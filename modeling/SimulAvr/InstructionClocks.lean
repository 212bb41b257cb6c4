import SimulAvr.AvrCore

/-!
# The clocks of an instruction

The handlers set `inst_CKS` to the number of clocks that their instruction takes, all of them but
that of BREAK.  The number is not negative (`execNextInstruction_clocks`), so that the loop of
`avr_core_step` counts it down to zero.
-/

namespace SimulAvr

open Program

section

variable {δ α β : Type}

/-- Every run of the program that returns has set `inst_CKS` to a number that is not negative. -/
def SetsClocks (x : CoreM δ α) : Prop :=
  Triple (fun _ => True) x (fun _ c => 0 ≤ c.instCKS) (fun _ => True)

namespace SetsClocks

/-- What the program does before does not matter. -/
theorem bind
    {x : CoreM δ β} {f : β → CoreM δ α} (hf : ∀ b, SetsClocks (f b)) :
  SetsClocks (x >>= f)
  := Triple.bind Triple.anything hf

theorem last
    {cks : Int} (h : 0 ≤ cks) (a : α) :
  SetsClocks (do avrCoreInstCKSSet cks; return a : CoreM δ α)
  := fun _ _ => h

theorem next
    (name : OpcodeName) {cks : Int} (h : 0 ≤ cks) :
  SetsClocks (nextInst name cks : CoreM δ OpRet)
  := bind fun _ => last h _

theorem ret
    {x : CoreM δ OpRet} (hx : SetsClocks x) (ret : OpRet) :
  SetsClocks (do let _ ← x; return ret : CoreM δ OpRet)
  := Triple.bind hx fun _ => Triple.pure fun _ h => h

theorem error
    (fmt : String) (args : List Int) :
  SetsClocks (avrError fmt args : CoreM δ α)
  := fun _ _ => trivial

/-- The end of a handler that may skip words -/
theorem ite
    {p : Prop} [Decidable p] (name : OpcodeName) {n cks cks' : Int} (h : 0 ≤ cks) (h' : 0 ≤ cks') :
  SetsClocks (if p then do avrCorePCIncr n; avrCoreInstCKSSet cks; return .opcode name
    else nextInst name cks' : CoreM δ OpRet)
  := Triple.ite (fun _ => bind fun _ => last h _) fun _ => next name h'

end SetsClocks

/-- Every run of the program that returns, from a core whose program counter has a size, has set
`inst_CKS` to a number that is not negative. -/
def SetsClocksSized (x : CoreM δ α) : Prop :=
  Triple (fun c => 0 ≤ c.pcSize) x (fun _ c => 0 ≤ c.instCKS) (fun _ => True)

namespace SetsClocksSized

theorem pcGet
    {f : Int → CoreM δ α} (hf : ∀ pc, SetsClocksSized (f pc)) :
  SetsClocksSized (avrCorePCGet >>= f)
  := by
  apply Triple.bind (Q := fun _ c => 0 ≤ c.pcSize) _ hf
  exact fun _ h => h

theorem pcSize
    {f : Int → CoreM δ α} (hf : ∀ n, 0 ≤ n → SetsClocks (f n)) :
  SetsClocksSized (avrCorePCSize >>= f)
  := by
  apply Triple.bind (Q := fun n _ => 0 ≤ n)
  · exact fun _ h => h
  · intro n c hn
    apply hf n hn c trivial

end SetsClocksSized

end

section

variable {δ : Type} [IoDevices δ]

/-- The instructions whose clocks depend on the size of the program counter, and BREAK -/
def sizedOpcodes : List OpcodeName :=
  [.CALL, .RCALL, .ICALL, .RET, .RETI, .BREAK]

/-- The handlers of the other instructions -/
theorem handler_setsClocks
    {func : OpcodeName} (hfunc : func ∉ sizedOpcodes) (opcode : Word) (arg1 arg2 : Int) :
  SetsClocks (func.handler opcode arg1 arg2 : CoreM δ OpRet)
  := by
  have hskip (twoWords : Bool) : (0 : Int) ≤ if twoWords then 3 else 2 := by
    cases twoWords <;> decide
  -- the cases are grouped by the number of accesses before the last ones
  cases func with
  | ESPM => exact .error _ _
  | SLEEP | WDR => exact .bind fun vdev => nomatch vdev
  | UNKNOWN => exact .ret (.next _ (by decide)) _
  | ELPM =>
    exact .ret (.bind fun _ => .bind fun _ => .bind fun _ => .bind fun _ => .next _ (by decide)) _
  | NOP => exact .next _ (by decide)
  | BCLR | BSET | LDI => exact .bind fun _ => .next _ (by decide)
  | BST | CBI | IN | MOV | OUT | POP | PUSH | SBI | SWAP =>
    exact .bind fun _ => .bind fun _ => .next _ (by decide)
  | BLD | CPI | LDD_Y | LDD_Z | LD_X | LPM | LPM_Z | STD_Y | STD_Z | ST_X =>
    exact .bind fun _ => .bind fun _ => .bind fun _ => .next _ (by decide)
  | ANDI | ASR | COM | CP | CPC | DEC | ELPM_Z | INC | LSR | MOVW | NEG | ORI | ROR | SBCI | SPM
  | SUBI =>
    exact .bind fun _ => .bind fun _ => .bind fun _ => .bind fun _ => .next _ (by decide)
  | ADC | ADD | AND | EOR | LD_X_decr | LD_X_incr | LD_Y_decr | LD_Y_incr | LD_Z_decr | LD_Z_incr
  | LPM_Z_incr | OR | SBC | ST_X_decr | ST_X_incr | ST_Y_decr | ST_Y_incr | ST_Z_decr | ST_Z_incr
  | SUB =>
    exact .bind fun _ => .bind fun _ => .bind fun _ => .bind fun _ => .bind fun _ =>
      .next _ (by decide)
  | ADIW | FMUL | FMULS | FMULSU | MUL | MULS | MULSU | SBIW =>
    exact .bind fun _ => .bind fun _ => .bind fun _ => .bind fun _ => .bind fun _ =>
      .bind fun _ => .next _ (by decide)
  | ELPM_Z_incr =>
    exact .bind fun _ => .bind fun _ => .bind fun _ => .bind fun _ => .bind fun _ =>
      .bind fun _ => .bind fun _ => .next _ (by decide)
  | RJMP => exact .bind fun _ => .last (by decide) _
  | EIJMP | IJMP | JMP => exact .bind fun _ => .bind fun _ => .last (by decide) _
  | EICALL | LDS | STS =>
    exact .bind fun _ => .bind fun _ => .bind fun _ => .bind fun _ => .last (by decide) _
  | BRBC | BRBS => exact .bind fun _ => .ite _ (by decide) (by decide)
  | SBIC | SBIS | SBRC | SBRS =>
    exact .bind fun _ => .bind fun _ => .ite _ (hskip _) (by decide)
  | CPSE =>
    exact .bind fun _ => .bind fun _ => .bind fun _ => .ite _ (hskip _) (by decide)
  | _ => exact absurd (by decide) hfunc

/-- The handler of an opcode leaves a number of clocks that is not negative. -/
theorem handler_clocks
    (func : OpcodeName) (opcode : Word) (arg1 arg2 : Int) :
  Triple (fun c => 0 ≤ c.pcSize ∧ 0 ≤ c.instCKS) (func.handler opcode arg1 arg2 : CoreM δ OpRet)
    (fun _ c => 0 ≤ c.instCKS) (fun _ => True)
  := by
  have hplus {n : Int} (hn : 0 ≤ n) : 0 ≤ n + 1 ∧ 0 ≤ n + 2 := by omega
  have hsized {x : CoreM δ OpRet} (hx : SetsClocksSized x) :
      Triple (fun c => 0 ≤ c.pcSize ∧ 0 ≤ c.instCKS) x (fun _ c => 0 ≤ c.instCKS) (fun _ => True) :=
    hx.conseq (fun _ h => h.1) (fun _ _ h => h) fun _ h => h
  by_cases hfunc : func ∈ sizedOpcodes
  · cases func with
    | BREAK => exact fun c hc => hc.2
    | CALL =>
      exact hsized (.pcGet fun _ => .pcSize fun n hn => .bind fun _ => .bind fun _ =>
        .bind fun _ => .bind fun _ => .last (hplus hn).2 _)
    | ICALL =>
      exact hsized (.pcGet fun _ => .pcSize fun n hn => .bind fun _ => .bind fun _ =>
        .bind fun _ => .last (hplus hn).1 _)
    | RCALL =>
      exact hsized (.pcGet fun _ => .pcSize fun n hn => .bind fun _ => .bind fun _ =>
        .last (hplus hn).1 _)
    | RET =>
      exact hsized (.pcSize fun n hn => .bind fun _ => .bind fun _ => .last (hplus hn).2 _)
    | RETI =>
      -- the bit I is set after the clocks
      exact hsized (.pcSize fun n hn => .bind fun _ => .bind fun _ => fun _ _ => (hplus hn).2)
    | _ => exact absurd hfunc (by decide)
  · exact (handler_setsClocks hfunc opcode arg1 arg2).conseq (fun _ _ => trivial) (fun _ _ h => h)
      fun _ h => h

/-- An instruction leaves a number of clocks that is not negative. -/
theorem execNextInstruction_clocks
    {c c' : AvrCore δ} {ret : OpRet} (hsize : 0 ≤ c.pcSize)
    (h : execNextInstruction.run c = .ok (ret, c')) :
  0 ≤ c'.instCKS
  := by
  obtain ⟨opcode, -, hexec⟩ := execNextInstruction_eq_ok h
  apply (handler_clocks (decodeOpcode opcode).func opcode _ _).of_ok (s := c.fetched) _ hexec
  exact ⟨hsize, Int.le_refl 0⟩

end

end SimulAvr
