import SimulAvr.CoreFootprint
import SimulAvr.GdbMemory
import SimulAvr.Target

/-!
# The instructions that abort the simulator

The handlers call `avr_error` by design for ESPM, for an overlap with the pointer register that
is moved, and for a CALL out of reach of the program counter, and the data memory and the flash
do for the accesses they refuse.  Every other abort of an instruction is one of SLEEP and WDR,
which never complete, of the fetch of the word after the last one of the flash, or of SPM
without an operation (`instruction_aborts_iff`).
-/

namespace SimulAvr

open Program Transition

/-- The values of SPMCSR for which SPM has an operation. -/
def spmCommands : List Byte :=
  [0x11, 0x01, 0x03, 0x05]

section

variable {δ : Type} [IoDevices δ]

/-- An access to data memory. -/
inductive DataAccess : ∀ α : Type, CoreM δ α → Prop
  | read (addr : Int) : DataAccess Byte (memRead addr)
  | write (addr : Int) (val : Byte) : DataAccess Unit (memWrite addr val)

/-- An access to the word of flash at an address. -/
inductive FlashAccess (addr : Int) : ∀ α : Type, CoreM δ α → Prop
  | read : FlashAccess addr Word (avrCoreFlashRead addr)
  | write (val : Word) : FlashAccess addr Unit (avrCoreFlashWrite addr val)

omit [IoDevices δ] in
/-- The word after the instruction is in the flash, if the instruction reads it. -/
def AvrCore.HasOperand (c : AvrCore δ) (func : OpcodeName) : Prop :=
  func ∈ skipOpcodes ++ twoWordOpcodes → c.flash.Valid (c.pc + 1)

/-- The error `e` of the program `x`, run in the state `t` by the instruction `opi` of the core
`c`, is admitted. -/
inductive Admitted (c : AvrCore δ) (opi : OpcodeInfo) :
    ∀ α : Type, CoreM δ α → AvrCore δ → AvrError → Prop
  /-- The device of a cell of data memory aborts, or the cell has no such register. -/
  | data {α : Type} {x : CoreM δ α} {t : AvrCore δ} {e : AvrError} (hfunc : opi.func ∈ dataOpcodes)
      (hoperand : c.HasOperand opi.func) (hx : DataAccess α x) : Admitted c opi α x t e
  /-- A pointer to program memory is outside of the flash. -/
  | flash {α : Type} {x : CoreM δ α} {t : AvrCore δ} {e : AvrError} {addr : Int}
      (hfunc : opi.func ∈ flashOpcodes) (hx : FlashAccess addr α x) (h : ¬ t.flash.Valid addr) :
      Admitted c opi α x t e
  | espm {α : Type} {x : CoreM δ α} {t : AvrCore δ} {e : AvrError} (h : opi.func = .ESPM) :
      Admitted c opi α x t e
  /-- The result is undefined. -/
  | overlap {α : Type} {x : CoreM δ α} {t : AvrCore δ} {e : AvrError}
      (h : opi.func.Overlaps opi.arg1) : Admitted c opi α x t e
  /-- The address is out of the allowed range. -/
  | call {α : Type} {x : CoreM δ α} {t : AvrCore δ} {e : AvrError} {k : Int} (h : opi.func = .CALL)
      (hsize : c.pcSize = 2) (hk : c.read (addressOperand opi.arg1) = some k) (hfar : k > 0xffff) :
      Admitted c opi α x t e

/-- Every call of `avr_error` by the next instruction, or by the fetch of it, is admitted. -/
def AvrCore.AbortsAdmitted (c : AvrCore δ) : Prop :=
  ∀ fmt args, execNextInstruction.run c = .error (.message fmt args) →
    ∃ opcode, flashRead c.flash c.pc = .ok opcode ∧
      ∃ (α : Type) (x : CoreM δ α) (t : AvrCore δ),
        Admitted c (decodeOpcode opcode) α x t (.message fmt args) ∧
          Reaches x t (execOpcode opcode) c.fetched ∧ x.run t = .error (.message fmt args)

/-- The instruction `func` does not abort in the core `c`, admitted aborts apart. -/
structure Completes (c : AvrCore δ) (func : OpcodeName) : Prop where
  sleep : func ≠ .SLEEP
  wdr : func ≠ .WDR
  operand : c.HasOperand func
  spm : func = .SPM → c.spmhelper.spmcsr ∈ spmCommands

/-! ### The aborts of a scope -/

/-- What an instruction may access after the fetch of its operand, where its aborts are
admitted. -/
def AvrCore.admits (c : AvrCore δ) (opi : OpcodeInfo) : Scope where
  cell _ := opi.func ∈ dataOpcodes ∧ c.HasOperand opi.func
  operand := False
  flash := opi.func ∈ flashOpcodes
  error := opi.func = .ESPM ∨ opi.func.Overlaps opi.arg1 ∨
    opi.func = .CALL ∧ c.pcSize = 2 ∧ ∃ k, c.read (addressOperand opi.arg1) = some k ∧ k > 0xffff

/-- The aborts that are not calls of `avr_error`, or are admitted. -/
def Blame (c : AvrCore δ) (opi : OpcodeInfo) (α : Type) (x : CoreM δ α) (t : AvrCore δ)
    (e : AvrError) : Prop :=
  ∀ fmt args, e = .message fmt args → Admitted c opi α x t e

variable {c : AvrCore δ} {opi : OpcodeInfo}

/-- The aborts of the accesses. -/
theorem access_blame
    {pc : Prop} {α : Type} {x : CoreM δ α} {t : AvrCore δ} {e : AvrError}
    (hx : Access (c.admits opi) pc α x) (h : x.run t = .error e) :
  Blame c opi α x t e
  := by
  rintro fmt args rfl
  cases hx with
  | error herror =>
    obtain hespm | hoverlap | ⟨hcall, hsize, k, hk, hfar⟩ := herror
    · exact .espm hespm
    · exact .overlap hoverlap
    · exact .call hcall hsize hk hfar
  | gpwrGet reg =>
    change dite _ _ _ = _ at h
    split at h <;> cases h
  | gpwrSet reg val =>
    change dite _ _ _ = _ at h
    split at h <;> cases h
  | memRead hcell => exact .data hcell.1 hcell.2 (.read _)
  | memWrite hcell => exact .data hcell.1 hcell.2 (.write _ _)
  | flashReadNext hoperand => exact hoperand.elim
  | flashRead hflash addr =>
    refine .flash hflash .read ?_
    intro hvalid
    rw [run_avrCoreFlashRead, Flash.flashRead_of_valid hvalid] at h
    contradiction
  | flashWrite hflash addr val =>
    refine .flash hflash (.write val) ?_
    intro hvalid
    rw [run_avrCoreFlashWrite, Flash.storageWritew_of_valid hvalid] at h
    contradiction
  | _ => contradiction

/-- What stays in the scope has no other aborts. -/
theorem Uses.blames
    {α : Type} {x : CoreM δ α} (hx : Uses (c.admits opi) True x) (t : AvrCore δ) :
  Blames (Blame c opi) x t
  := Blames.built hx fun _ _ _ _ hy h => access_blame hy h

/-! ### The handlers -/

omit [IoDevices δ] in
/-- The word after the instruction is read. -/
theorem run_flashReadNext_of_valid
    (h : c.flash.Valid (c.pc + 1)) :
  flashReadNext.run c = .ok (c.flash.word (c.pc + 1), c)
  := by
  rw [flashReadNext, run_bind_of_ok (run_avrCorePCGet c), run_avrCoreFlashRead,
    Flash.flashRead_of_valid h]
  rfl

omit [IoDevices δ] in
/-- The word after the last one is not. -/
theorem run_flashReadNext_of_not_valid
    (h : ¬ c.flash.Valid (c.pc + 1)) :
  flashReadNext.run c = .error (.message "address out of bounds: 0x%x" [(c.pc + 1) * 2])
  := by
  rw [flashReadNext, run_bind_of_ok (run_avrCorePCGet c), run_avrCoreFlashRead,
    Flash.flashRead_of_not_valid h]
  rfl

omit [IoDevices δ] in
/-- The scope is one of an instruction whose operand and whose size of the program counter
matter to no abort. -/
theorem within_admits
    (hfunc : opi.func ∉ skipOpcodes ++ twoWordOpcodes)
    (herror : opi.func ∈ errorOpcodes → opi.func = .ESPM) :
  opi.func.Within opi.arg1 (c.admits opi)
  where
  cell h _ _ := ⟨h, fun h => absurd h hfunc⟩
  disp h _ := ⟨List.mem_append_left _ h, fun h => absurd h hfunc⟩
  operand h := absurd h hfunc
  flash h := h
  error h := h.elim (fun h => .inl (herror h)) fun h => .inr (.inl h)

/-- The opcodes of the handlers that read an operand, the size of the program counter or SPMCSR
before the accesses that may abort. -/
def readingOpcodes : List OpcodeName :=
  skipOpcodes ++ twoWordOpcodes ++ [.SLEEP, .WDR, .SPM, .RCALL, .ICALL, .RET, .RETI]

/-- A handler that completes has no other aborts. -/
theorem handler_blames
    (hargs : opi.func.form.Admits opi.arg1 opi.arg2) (hsize : c.pcSize = 2 ∨ c.pcSize = 3)
    (h : Completes c opi.func) (opcode : Word) :
  Blames (Blame c opi) (opi.func.handler opcode opi.arg1 opi.arg2) c.fetched
  := by
  by_cases hreading : opi.func ∈ readingOpcodes
  · obtain ⟨func, arg1, arg2⟩ := opi
    obtain ⟨hsleep, hwdr, hoperand, hspm⟩ := h
    simp only at hargs hreading hsleep hwdr hoperand hspm
    have hio := io_admits hargs
    have hbytes : c.pcSize < 0 ∨ c.pcSize ≥ 4 → (c.admits ⟨func, arg1, arg2⟩).error := by
      intro
      omega
    have hcell (hdata : func ∈ dataOpcodes) (addr : Int) (_ : 0 ≤ addr ∧ addr ≤ 0xffff) :
        (c.admits ⟨func, arg1, arg2⟩).cell addr := ⟨hdata, hoperand⟩
    have hfetch (hmem : func ∈ skipOpcodes ++ twoWordOpcodes) :
        flashReadNext.run c.fetched = .ok (c.flash.word (c.pc + 1), c.fetched) :=
      run_flashReadNext_of_valid (c := c.fetched) (hoperand hmem)
    have hnext (hmem : func ∈ skipOpcodes ++ twoWordOpcodes) :
        isNextInst2Words.run c.fetched =
          .ok (isTwoWords (c.flash.word (c.pc + 1)), c.fetched) := by
      rw [isNextInst2Words, run_bind_of_ok (hfetch hmem)]
      rfl
    have haddress (hmem : func ∈ skipOpcodes ++ twoWordOpcodes) :
        (addressOperand arg1).run c.fetched =
          .ok (arg1 * 2 ^ 16 + (c.flash.word (c.pc + 1)).toNat, c.fetched) := by
      rw [addressOperand, run_bind_of_ok (hfetch hmem)]
      rfl
    cases func with
    | CPSE =>
      obtain ⟨d, rfl⟩ := exists_fin_of_mem hargs.1
      obtain ⟨r, rfl⟩ := exists_fin_of_mem hargs.2
      exact .of_ok (run_avrCoreGpwrGet _ d) <| .of_ok (run_avrCoreGpwrGet _ r) <|
        .of_ok (hnext (by decide)) <| (skipIf_uses _ _ _).blames _
    | SBRC =>
      exact .of_ok (hnext (by decide)) <|
        Uses.blames (.bind (.action (.gpwrGet _)) fun _ => skipIf_uses _ _ _) _
    | SBRS =>
      exact .of_ok (hnext (by decide)) <|
        Uses.blames (.bind (.action (.gpwrGet _)) fun _ => skipIf_uses _ _ _) _
    | SBIC =>
      have hA := cell_io (hcell (by decide)) (hio.1 (by decide))
      exact .of_ok (hnext (by decide)) <|
        Uses.blames (.bind (.action (.memRead hA)) fun _ => skipIf_uses _ _ _) _
    | SBIS =>
      have hA := cell_io (hcell (by decide)) (hio.1 (by decide))
      exact .of_ok (hnext (by decide)) <|
        Uses.blames (.bind (.action (.memRead hA)) fun _ => skipIf_uses _ _ _) _
    | JMP => exact .of_ok (haddress (by decide)) <| (jump_uses _ _ _).blames _
    | LDS =>
      exact .of_ok (hfetch (by decide)) <|
        (ldsRest_advances (hcell (by decide)) _ _).uses.blames _
    | STS =>
      exact .of_ok (hfetch (by decide)) <|
        (stsRest_advances (hcell (by decide)) _ _).uses.blames _
    | CALL =>
      have hfar : c.pcSize = 2 ∧ arg1 * 2 ^ 16 + ((c.flash.word (c.pc + 1)).toNat : Int) > 0xffff →
          (c.admits ⟨.CALL, arg1, arg2⟩).error := by
        rintro ⟨hsize, hfar⟩
        have haddress' : (addressOperand arg1).run c =
            .ok (arg1 * 2 ^ 16 + ((c.flash.word (c.pc + 1)).toNat : Int), c) := by
          rw [addressOperand, run_bind_of_ok (run_flashReadNext_of_valid (hoperand (by decide)))]
          rfl
        exact .inr (.inr ⟨rfl, hsize, _, read_eq_some haddress', hfar⟩)
      exact .of_ok (run_avrCorePCGet _) <| .of_ok (run_avrCorePCSize _) <|
        .of_ok (haddress (by decide)) <|
        (callRest_uses (hcell (by decide)) hfar hbytes _).blames _
    | RCALL =>
      exact .of_ok (run_avrCorePCGet _) <| .of_ok (run_avrCorePCSize _) <|
        (rcallRest_uses (hcell (by decide)) hbytes _ _).blames _
    | ICALL =>
      exact .of_ok (run_avrCorePCGet _) <| .of_ok (run_avrCorePCSize _) <|
        (icallRest_uses (hcell (by decide)) hbytes _).blames _
    | RET =>
      exact .of_ok (run_avrCorePCSize _) <| (retRest_uses (hcell (by decide)) hbytes).blames _
    | RETI =>
      exact .of_ok (run_avrCorePCSize _) <| (retiRest_uses (hcell (by decide)) hbytes).blames _
    | SPM =>
      have hcommand : c.spmhelper.spmcsr ∉ ([0x11, 0x01, 0x03, 0x05] : List Byte) →
          (c.admits ⟨.SPM, arg1, arg2⟩).error := fun h => absurd (hspm rfl) h
      refine .of_ok (run_extendedZ _) <| .of_ok (run_avrCoreGpwrGet _ 0) <|
        .of_ok (run_avrCoreGpwrGet _ 1) <| .bind (.of_ok (run_gets _ _) ?_) fun _ _ _ => ?_
      · have hflash : (c.admits ⟨.SPM, arg1, arg2⟩).flash := List.mem_of_elem_eq_true rfl
        exact (spmRest_uses hflash hcommand _ _ _).blames _
      · exact (nextInst_advances _ _).uses.blames _
    | SLEEP => contradiction
    | WDR => contradiction
    | _ => exact absurd hreading (by decide)
  · have hfunc : opi.func ∉ skipOpcodes ++ twoWordOpcodes := fun h =>
      hreading (List.mem_append_left _ h)
    have herror : opi.func ∈ errorOpcodes → opi.func = .ESPM := by
      intro herror
      generalize opi.func = func at herror hreading
      cases func <;> first | rfl | exact absurd (by decide) hreading | exact absurd herror (by decide)
    exact (handler_uses_within hargs (within_admits hfunc herror) opcode).blames _

/-! ### The handlers that do not complete -/

omit [IoDevices δ] in
/-- No instruction with an operand, and none of those that read SPMCSR, moves a pointer
register. -/
theorem not_overlaps
    {func : OpcodeName} (h : func ∈ readingOpcodes) (arg1 : Int) :
  ¬ func.Overlaps arg1
  := by
  have hdisjoint : ∀ func ∈ readingOpcodes, func ∉ pointerOpcodes 26 ∧
      func ∉ pointerOpcodes 28 ∧ func ∉ pointerOpcodes 30 := by
    decide +kernel
  obtain ⟨hX, hY, hZ⟩ := hdisjoint func h
  rintro ⟨p, hp, -⟩
  have hpointer : p = 26 ∨ p = 28 ∨ p = 30 := by
    rw [pointerOpcodes] at hp
    split_ifs at hp with h26 h28 h30
    · exact .inl h26
    · exact .inr (.inl h28)
    · exact .inr (.inr h30)
    · contradiction
  obtain rfl | rfl | rfl := hpointer
  · apply hX hp
  · apply hY hp
  · apply hZ hp

omit [IoDevices δ] in
/-- An access to the flash aborts for the address. -/
theorem FlashAccess.error
    {addr : Int} {α : Type} {x : CoreM δ α} {t : AvrCore δ} (hx : FlashAccess addr α x)
    (h : ¬ t.flash.Valid addr) :
  x.run t = .error (.message "address out of bounds: 0x%x" [addr * 2])
  := by
  cases hx with
  | read => rw [run_avrCoreFlashRead, Flash.flashRead_of_not_valid h]; rfl
  | write val =>
    rw [Flash.Valid] at h
    rw [run_avrCoreFlashWrite, storageWritew, if_pos (by omega)]
    rfl

/-- The aborts of SLEEP and WDR are not admitted. -/
theorem not_admitted_of_lookup
    (hfunc : opi.func = .SLEEP ∨ opi.func = .WDR) {α : Type} {x : CoreM δ α} {t : AvrCore δ}
    {e : AvrError} :
  ¬ Admitted c opi α x t e
  := by
  have hmem : opi.func ∈ readingOpcodes ∧ opi.func ∉ dataOpcodes ∧ opi.func ∉ flashOpcodes ∧
      opi.func ≠ .ESPM ∧ opi.func ≠ .CALL := by
    obtain h | h := hfunc <;> rw [h] <;> decide
  obtain ⟨hreading, hdata, hflash, hespm, hcall⟩ := hmem
  rintro (⟨hfunc, -, -⟩ | ⟨hfunc, -, -⟩ | hfunc | hoverlap | ⟨hfunc, -, -, -⟩)
  · apply hdata hfunc
  · apply hflash hfunc
  · apply hespm hfunc
  · apply not_overlaps hreading _ hoverlap
  · apply hcall hfunc

/-- The aborts of an instruction whose operand is missing are not admitted. -/
theorem not_admitted_of_operand
    (h : ¬ c.HasOperand opi.func) {α : Type} {x : CoreM δ α} {t : AvrCore δ} {e : AvrError} :
  ¬ Admitted c opi α x t e
  := by
  rw [AvrCore.HasOperand, Classical.not_imp] at h
  obtain ⟨hfunc, hvalid⟩ := h
  have hmem : ∀ func ∈ skipOpcodes ++ twoWordOpcodes, func ∉ flashOpcodes ∧ func ≠ .ESPM := by
    decide
  obtain ⟨hflash, hespm⟩ := hmem _ hfunc
  rintro (⟨-, hoperand, -⟩ | ⟨hfunc', -, -⟩ | hfunc' | hoverlap | ⟨-, -, hk, -⟩)
  · apply hvalid (hoperand hfunc)
  · apply hflash hfunc'
  · apply hespm hfunc'
  · apply not_overlaps (List.mem_append_left _ hfunc) _ hoverlap
  · rw [AvrCore.read, addressOperand,
      run_bind_of_error (run_flashReadNext_of_not_valid hvalid)] at hk
    contradiction

/-- The abort of SPM without an operation is not admitted. -/
theorem not_admitted_of_spm
    (hfunc : opi.func = .SPM) {α : Type} {x : CoreM δ α} {t : AvrCore δ} {args : List Int}
    (h : x.run t = .error (.message "SPM unknown operation %02x\n" args)) :
  ¬ Admitted c opi α x t (.message "SPM unknown operation %02x\n" args)
  := by
  have hmem : opi.func ∈ readingOpcodes ∧ opi.func ∉ dataOpcodes ∧ opi.func ≠ .ESPM ∧
      opi.func ≠ .CALL := by
    rw [hfunc]
    decide
  obtain ⟨hreading, hdata, hespm, hcall⟩ := hmem
  rintro (⟨hfunc, -, -⟩ | ⟨-, hx, hvalid⟩ | hfunc | hoverlap | ⟨hfunc, -, -, -⟩)
  · apply hdata hfunc
  · rw [hx.error hvalid] at h
    have htext := (AvrError.message.inj (Except.error.inj h)).1
    exact absurd htext (by decide)
  · apply hespm hfunc
  · apply not_overlaps hreading _ hoverlap
  · apply hcall hfunc

/-- The handler of an instruction whose operand is missing aborts. -/
theorem handler_aborts_of_operand
    (hargs : opi.func.form.Admits opi.arg1 opi.arg2) (h : ¬ c.HasOperand opi.func)
    (opcode : Word) :
  (opi.func.handler opcode opi.arg1 opi.arg2).run c.fetched
    = .error (.message "address out of bounds: 0x%x" [(c.pc + 1) * 2])
  := by
  rw [AvrCore.HasOperand, Classical.not_imp] at h
  obtain ⟨hfunc, hvalid⟩ := h
  have hfetch : flashReadNext.run c.fetched
      = .error (.message "address out of bounds: 0x%x" [(c.pc + 1) * 2]) :=
    run_flashReadNext_of_not_valid (c := c.fetched) hvalid
  have hnext : isNextInst2Words.run c.fetched
      = .error (.message "address out of bounds: 0x%x" [(c.pc + 1) * 2]) :=
    run_bind_of_error hfetch
  have haddress (kh : Int) : (addressOperand kh).run c.fetched
      = .error (.message "address out of bounds: 0x%x" [(c.pc + 1) * 2]) :=
    run_bind_of_error hfetch
  obtain ⟨func, arg1, arg2⟩ := opi
  simp only at hargs hfunc
  cases func with
  | CPSE =>
    obtain ⟨d, rfl⟩ := exists_fin_of_mem hargs.1
    obtain ⟨r, rfl⟩ := exists_fin_of_mem hargs.2
    apply (run_bind_of_ok (run_avrCoreGpwrGet _ d)).trans
    apply (run_bind_of_ok (run_avrCoreGpwrGet _ r)).trans
    apply run_bind_of_error hnext
  | SBRC => apply run_bind_of_error hnext
  | SBRS => apply run_bind_of_error hnext
  | SBIC => apply run_bind_of_error hnext
  | SBIS => apply run_bind_of_error hnext
  | JMP => apply run_bind_of_error (haddress _)
  | LDS => apply run_bind_of_error hfetch
  | STS => apply run_bind_of_error hfetch
  | CALL =>
    apply (run_bind_of_ok (run_avrCorePCGet _)).trans
    apply (run_bind_of_ok (run_avrCorePCSize _)).trans
    apply run_bind_of_error (haddress _)
  | _ => exact absurd hfunc (by decide)

omit [IoDevices δ] in
/-- SPM without an operation aborts. -/
theorem avrOpSPM_aborts
    (h : c.spmhelper.spmcsr ∉ spmCommands) :
  avrOpSPM.run c = .error (.message "SPM unknown operation %02x\n" [c.spmhelper.spmcsr.toNat])
  := by
  simp only [spmCommands, List.mem_cons, List.not_mem_nil, or_false, not_or] at h
  obtain ⟨hclear, hfill, herase, hwrite⟩ := h
  have hrun (reg0 reg1 : Byte) (Z : Nat) : (spmRun reg0 reg1 Z).run c
      = .error (.message "SPM unknown operation %02x\n" [c.spmhelper.spmcsr.toNat]) := by
    rw [spmRun, run_bind_of_ok (run_gets _ c)]
    simp only [if_neg hclear, if_neg hfill, if_neg herase, if_neg hwrite]
    rfl
  apply (run_bind_of_ok (run_extendedZ c)).trans
  apply (run_bind_of_ok (run_avrCoreGpwrGet c 0)).trans
  apply (run_bind_of_ok (run_avrCoreGpwrGet c 1)).trans
  apply run_bind_of_error (hrun _ _ _)

/-- An instruction that does not complete aborts, and its abort is not admitted. -/
theorem handler_aborts
    (hargs : opi.func.form.Admits opi.arg1 opi.arg2) (h : ¬ Completes c opi.func)
    (opcode : Word) :
  ∃ fmt args, (opi.func.handler opcode opi.arg1 opi.arg2).run c.fetched
      = .error (.message fmt args) ∧
    ∀ (α : Type) (x : CoreM δ α) t, x.run t = .error (.message fmt args) →
      ¬ Admitted c opi α x t (.message fmt args)
  := by
  by_cases hlookup : opi.func = .SLEEP ∨ opi.func = .WDR
  · refine ⟨"use of deprecated interface", [], ?_, fun _ _ _ _ => not_admitted_of_lookup hlookup⟩
    obtain hfunc | hfunc := hlookup <;> rw [hfunc] <;> rfl
  · by_cases hoperand : c.HasOperand opi.func
    · have hspm : opi.func = .SPM ∧ c.spmhelper.spmcsr ∉ spmCommands := by
        by_contra hspm
        rw [not_or] at hlookup
        apply h
        refine ⟨hlookup.1, hlookup.2, hoperand, fun hfunc => ?_⟩
        by_contra hcommand
        apply hspm ⟨hfunc, hcommand⟩
      obtain ⟨hfunc, hcommand⟩ := hspm
      refine ⟨"SPM unknown operation %02x\n", [c.spmhelper.spmcsr.toNat], ?_,
        fun _ _ _ => not_admitted_of_spm hfunc⟩
      rw [hfunc]
      apply avrOpSPM_aborts (c := c.fetched) hcommand
    · exact ⟨_, _, handler_aborts_of_operand hargs hoperand opcode, fun _ _ _ _ =>
        not_admitted_of_operand hoperand⟩

/-! ### The next instruction -/

/-- At a word of the flash, the calls of `avr_error` are admitted exactly when the instruction
completes. -/
theorem abortsAdmitted_iff
    (hpc : c.flash.Valid c.pc) (hsize : c.pcSize = 2 ∨ c.pcSize = 3) :
  c.AbortsAdmitted ↔ Completes c (decodeOpcode (c.flash.word c.pc)).func
  := by
  have hfetch := Flash.flashRead_of_valid hpc
  have hrun := execNextInstruction_of_fetch hfetch
  have hargs : (decodeOpcode (c.flash.word c.pc)).func.form.Admits
      (decodeOpcode (c.flash.word c.pc)).arg1 (decodeOpcode (c.flash.word c.pc)).arg2 :=
    lookupOpcode_admits _
  constructor
  · intro hadmitted
    by_contra hcompletes
    obtain ⟨fmt, args, herror, hnot⟩ := handler_aborts hargs hcompletes (c.flash.word c.pc)
    obtain ⟨opcode, hopcode, α, x, t, hx, -, hxt⟩ := hadmitted fmt args (hrun.trans herror)
    obtain rfl := Except.ok.inj (hfetch.symm.trans hopcode)
    apply hnot α x t hxt hx
  · intro hcompletes fmt args herror
    obtain ⟨α, x, t, hblame, hreach, hxt⟩ :=
      handler_blames hargs hsize hcompletes (c.flash.word c.pc) _ (hrun.symm.trans herror)
    exact ⟨_, hfetch, α, x, t, hblame fmt args rfl, hreach, hxt⟩

end

/-! ### Runs of the simulator -/

/-- The core that is made of a device definition, with a program in its flash. -/
def AvrCore.programmed {δ : Type} (dev : DevSuppDefn) (io : δ) (image : Int → Byte) : AvrCore δ :=
  let c := AvrCore.construct dev io
  { c with flash := { c.flash with data := image } }

/-- In every core that the simulator reaches with the program counter in the flash, the next
instruction calls `avr_error` only where that is admitted, exactly when it is neither SLEEP nor
WDR, has its operand, and finds its operation if it is SPM. -/
theorem instruction_aborts_iff
    {δ : Type} [IoDevices δ] {dev : DevSuppDefn} (hdev : dev.pc = 2 ∨ dev.pc = 3) {io : δ}
    {image : Int → Byte} {cellName : Int → Option (List Char)} {c : AvrCore δ}
    (hrun : Run (CoreStep cellName) Always (AvrCore.programmed dev io image) c)
    (hpc : 0 ≤ c.pc ∧ c.pc < c.pcMax) :
  c.AbortsAdmitted ↔ Completes c (decodeOpcode (c.flash.word c.pc)).func
  := by
  have hlayout := CoreStep.layout hrun
  have hmax : c.pcMax = dev.flash / 2 := congrArg Layout.pcMax hlayout
  have hbase : c.flash.base = 0 := congrArg Layout.flashBase hlayout
  have hflash : c.flash.size = dev.flash := congrArg Layout.flashSize hlayout
  apply abortsAdmitted_iff
  · rw [Flash.Valid, hbase, hflash]
    omega
  · rw [show c.pcSize = dev.pc from congrArg Layout.pcSize hlayout]
    apply hdev

/-- The bytes of a program of LDS instructions that load the SRAM at 0x60 into R2 -/
def ldsImage (i : Int) : Byte :=
  if i % 4 = 0 then 0x90 else if i % 4 = 1 then 0x20 else if i % 4 = 2 then 0x00 else 0x60

/-- Such a program does not abort at its second instruction, which has an operand and accesses
data. -/
theorem instruction_aborts_lds :
  ∃ c, Run (CoreStep fun _ => none) Always (AvrCore.programmed defnAt90s2313 () ldsImage) c ∧
    c.pc = 2 ∧ c.AbortsAdmitted
  := by
  have hstep : ∃ c,
      avrCoreStep.run (AvrCore.programmed defnAt90s2313 () ldsImage) = .ok (.opcode .LDS, c) ∧
      c.pc = 2 ∧ c.pcMax = 1024 ∧
      c.flash = (AvrCore.programmed defnAt90s2313 () ldsImage).flash :=
    ⟨_, rfl, rfl, rfl, rfl⟩
  obtain ⟨c, hstep, hpc, hmax, hflash⟩ := hstep
  have hrun : Run (CoreStep fun _ => none) Always
      (AvrCore.programmed defnAt90s2313 () ldsImage) c :=
    Run.single trivial (CoreStep.step hstep)
  refine ⟨c, hrun, hpc, ?_⟩
  rw [instruction_aborts_iff (.inl rfl) hrun (by rw [hpc, hmax]; decide)]
  have hlds : (decodeOpcode (c.flash.word c.pc)).func = .LDS := by
    rw [hflash, hpc]
    decide
  rw [hlds]
  constructor
  · decide
  · decide
  · intro _
    rw [Flash.Valid, hflash, hpc]
    decide
  · intro h
    exact absurd h (by decide)

/-- The words of a program of SLEEPs -/
def sleepImage (i : Int) : Byte :=
  if i % 2 = 0 then 0x95 else 0x88

/-- SLEEP aborts, and an abort of SLEEP is not admitted. -/
theorem sleep_aborts :
  ¬ ∀ (dev : DevSuppDefn) (image : Int → Byte) (c : AvrCore Unit), dev.pc = 2 →
    Run (CoreStep fun _ => none) Always (AvrCore.programmed dev () image) c →
    0 ≤ c.pc ∧ c.pc < c.pcMax → c.AbortsAdmitted
  := by
  intro h
  have hadmitted := h defnAt90s2313 sleepImage _ rfl (Run.refl _) (by decide)
  have hvalid : (AvrCore.programmed defnAt90s2313 () sleepImage).flash.Valid
      (AvrCore.programmed defnAt90s2313 () sleepImage).pc := by
    decide
  have hcompletes := (abortsAdmitted_iff hvalid (.inl rfl)).mp hadmitted
  exact hcompletes.sleep (by decide +kernel)

end SimulAvr
