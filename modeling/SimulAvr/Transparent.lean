import SimulAvr.Decoder.Programs
import SimulAvr.Target
import SimulAvr.Twins

/-!
# Transparency of breakpoints

A step of a core with breakpoints against the same step without: the core with breakpoints is
`Armed`, that is, BREAK stands at their addresses.  The steps agree where no breakpoint is at
the word after the instruction, and also where that word is not an operand and its length
does not count (`insert_transparent`).
-/

namespace SimulAvr

open Program

section

variable {δ : Type} {pcs : List Int} {c d : AvrCore δ}

/-! ### The breakpoints inserted -/

/-- The core `c` is the core `d` with BREAK at the addresses `pcs`, up to the breakpoints and
the messages to the display. -/
structure Armed (pcs : List Int) (c d : AvrCore δ) : Prop where
  bare : c.bare = d.bare
  base : c.flash.base = d.flash.base
  size : c.flash.size = d.flash.size
  /-- The breakpoints are at words of the flash. -/
  valid : ∀ pc ∈ pcs, d.flash.Valid pc
  word : ∀ addr, c.flash.word addr = if addr ∈ pcs then breakOpcode else d.flash.word addr

theorem Armed.refl
    (d : AvrCore δ) :
  Armed [] d d
  := by
  constructor
  · rfl
  · rfl
  · rfl
  · nofun
  · intro addr
    rfl

/-- One more breakpoint inserted before the others. -/
theorem Armed.cons
    {pc : Int} (hpc : d.flash.Valid pc) {breakpoints : UniqueList BreakPt.pc}
    (h : Armed pcs c ({ d with breakpoints := breakpoints }.writeWord pc breakOpcode)) :
  Armed (pc :: pcs) c d
  := by
  constructor
  · apply h.bare
  · apply h.base
  · apply h.size
  · intro pc' hpc'
    obtain rfl | hpc' := List.mem_cons.mp hpc'
    · apply hpc
    · apply h.valid pc' hpc'
  · intro addr
    rw [h.word, AvrCore.writeWord_flash, Flash.word_setWord]
    by_cases hmem : addr ∈ pcs
    · rw [if_pos hmem, if_pos (List.mem_cons_of_mem pc hmem)]
    · rw [if_neg hmem]
      by_cases haddr : addr = pc
      · rw [haddr, Function.update_self, if_pos List.mem_cons_self]
      · rw [Function.update_of_ne haddr, if_neg]
        rw [List.mem_cons, not_or]
        use haddr

/-- Inserting breakpoints at words of the flash. -/
theorem insert_spec
    (pcs : List Int) (d : AvrCore δ) (hpcs : ∀ pc ∈ pcs, d.flash.Valid pc) :
  ∃ c, (bpProgram (pcs.map .insert)).run d = .ok ((), c) ∧ Armed pcs c d
  := by
  induction pcs generalizing d with
  | nil =>
    use d
    exact ⟨rfl, Armed.refl d⟩
  | cons pc pcs ih =>
    rw [List.forall_mem_cons] at hpcs
    let breakpoints := d.breakpoints.add { pc := pc, opcode := d.flash.word pc }
    obtain ⟨c, hrun, h⟩ := ih ({ d with breakpoints := breakpoints }.writeWord pc breakOpcode) hpcs.2
    use c
    rw [List.map_cons, bpProgram, BpOp.program,
      Program.run_bind_of_ok (run_avrCoreInsertBreakpoint hpcs.1)]
    exact ⟨hrun, h.cons hpcs.1⟩

namespace Armed

theorem twins
    (h : Armed pcs c d) :
  Twins c.flash d.flash c.breakpoints d.breakpoints c d
  := ⟨rfl, rfl, rfl, rfl, h.bare⟩

/-- The fetch of an instruction keeps the breakpoints. -/
theorem fetched
    (h : Armed pcs c d) :
  Armed pcs c.fetched d.fetched
  := by
  constructor
  · rw [AvrCore.fetched, AvrCore.fetched, h.twins.eq_twin]
    rfl
  · apply h.base
  · apply h.size
  · apply h.valid
  · apply h.word

theorem valid_iff
    (h : Armed pcs c d) (addr : Int) :
  c.flash.Valid addr ↔ d.flash.Valid addr
  := by
  rw [Flash.Valid, Flash.Valid, h.base, h.size]

/-- Away from the breakpoints, and where the program has a BREAK itself, the word is that of
the program. -/
theorem flashRead_eq
    (h : Armed pcs c d) {addr : Int} (haddr : addr ∈ pcs → d.flash.word addr = breakOpcode) :
  flashRead c.flash addr = flashRead d.flash addr
  := by
  by_cases hvalid : d.flash.Valid addr
  · rw [Flash.flashRead_of_valid hvalid, Flash.flashRead_of_valid ((h.valid_iff addr).mpr hvalid)]
    rw [h.word]
    split
    · next hmem => rw [haddr hmem]
    · rfl
  · rw [Flash.flashRead_of_not_valid hvalid,
      Flash.flashRead_of_not_valid (fun hc => hvalid ((h.valid_iff addr).mp hc))]

end Armed

/-! ### Pairs of runs -/

/-- The pair of the cores `c` and `d`. -/
def Pair (c d : AvrCore δ) (s t : AvrCore δ) : Prop :=
  s = c ∧ t = d

/-- Runs from the two cores return the same and end in twins, or abort with the same error. -/
abbrev Agrees {α : Type} (c d : AvrCore δ) (x : CoreM δ α) : Prop :=
  Coupled (Pair c d) x x fun a s b t =>
    a = b ∧ Twins c.flash d.flash c.breakpoints d.breakpoints s t

theorem Armed.agrees
    (h : Armed pcs c d) {α : Type} {x : CoreM δ α}
    (hx : Respects (Twins c.flash d.flash c.breakpoints d.breakpoints) x) :
  Agrees c d x
  := by
  apply Coupled.conseq hx _ fun _ _ _ _ hq => hq
  rintro s t ⟨rfl, rfl⟩
  apply h.twins

/-- What a program returns is what it reads from the core without breakpoints. -/
theorem Agrees.read
    {α : Type} {x : CoreM δ α} (h : Agrees c d x) :
  Coupled (Pair c d) x x fun a s b t =>
    a = b ∧ d.read x = some b ∧ Twins c.flash d.flash c.breakpoints d.breakpoints s t
  := by
  apply h.strengthen
  rintro s t a s' b t' ⟨-, rfl⟩ - ht ⟨hval, htwins⟩
  use hval, read_eq_some ht

/-- A program that leaves the core leaves both cores. -/
theorem Agrees.silent
    {α : Type} {x : CoreM δ α} (hx : Silent x) (h : Agrees c d x) :
  Coupled (Pair c d) x x fun a s b t => a = b ∧ d.read x = some b ∧ Pair c d s t
  := by
  apply h.strengthen
  rintro s t a s' b t' ⟨rfl, rfl⟩ hs ht ⟨hval, -⟩
  use hval, read_eq_some ht, hx _ _ _ hs, hx _ _ _ ht

/-- A program that the cores agree on, and then one that keeps twins. -/
theorem Agrees.bind
    {α β : Type} {x : CoreM δ α} {f : α → CoreM δ β} (hx : Agrees c d x)
    (hf : ∀ a, Respects (Twins c.flash d.flash c.breakpoints d.breakpoints) (f a)) :
  Agrees c d (x >>= f)
  := by
  apply Coupled.bind hx
  rintro a _ s t ⟨rfl, hst⟩
  apply hf a s t hst

/-- A program that leaves the core, and then one that the cores agree on. -/
theorem Agrees.silent_bind
    {α β : Type} {x : CoreM δ α} {f : α → CoreM δ β} (hsilent : Silent x) (hx : Agrees c d x)
    (hf : ∀ a, Agrees c d (f a)) :
  Agrees c d (x >>= f)
  := by
  apply Coupled.bind (hx.silent hsilent)
  rintro a _ s t ⟨rfl, -, hst⟩
  apply hf a s t hst

/-- The word after the instruction, where it is that of the program. -/
theorem Armed.flashReadNext_agrees
    (h : Armed pcs c d) (hnext : d.pc + 1 ∈ pcs → d.flash.word (d.pc + 1) = breakOpcode) :
  Agrees c d flashReadNext
  := by
  rintro s t ⟨rfl, rfl⟩
  have hpc : s.pc = t.pc := h.twins.pc_eq
  have hread (u : AvrCore δ) : flashReadNext.run u = (avrCoreFlashRead (u.pc + 1)).run u := rfl
  rw [hread, hread, run_avrCoreFlashRead, run_avrCoreFlashRead, hpc, h.flashRead_eq hnext]
  cases flashRead t.flash (t.pc + 1) with
  | error e => rfl
  | ok word => exact ⟨rfl, h.twins⟩
end

section

variable {δ : Type} [IoDevices δ] {pcs : List Int} {c d : AvrCore δ}

/-! ### The words after the instruction -/

/-- The opcode is that of a skip, and the condition of the skip holds in the core `c`. -/
def OpcodeName.Skips (c : AvrCore δ) (arg1 arg2 : Int) : OpcodeName → Prop
  | .CPSE => ∃ val, c.read (avrCoreGpwrGet arg1) = some val ∧ c.read (avrCoreGpwrGet arg2) = some val
  | .SBRC => ∃ rd, c.read (avrCoreGpwrGet arg1) = some rd ∧ rd.getLsbD arg2.toNat = false
  | .SBRS => ∃ rd, c.read (avrCoreGpwrGet arg1) = some rd ∧ rd.getLsbD arg2.toNat = true
  | .SBIC => ∃ io, c.read (avrCoreIoRead arg1) = some io ∧ io.getLsbD arg2.toNat = false
  | .SBIS => ∃ io, c.read (avrCoreIoRead arg1) = some io ∧ io.getLsbD arg2.toNat = true
  | _ => False

/-- The instruction `opcode` does not depend on the word `next` after it being patched: if
`next` is its operand, `next` is BREAK itself, and if the instruction skips the next one,
that has a single word. -/
structure Unpatched (c : AvrCore δ) (opcode next : Word) : Prop where
  operand : (decodeOpcode opcode).func ∈ twoWordOpcodes → next = breakOpcode
  skip : (decodeOpcode opcode).func.Skips c.fetched (decodeOpcode opcode).arg1
    (decodeOpcode opcode).arg2 → isTwoWords next = false

/-! ### The handlers -/

omit [IoDevices δ] in
/-- What the core finds of the length of the next instruction: BREAK has one word. -/
theorem Armed.isNextInst2Words_coupled
    (h : Armed pcs c d) :
  Coupled (Pair c d) isNextInst2Words isNextInst2Words fun a s b t =>
    (a = b ∨ (d.pc + 1 ∈ pcs ∧ a = false ∧ b = isTwoWords (d.flash.word (d.pc + 1)))) ∧ Pair c d s t
  := by
  by_cases hmem : d.pc + 1 ∈ pcs
  · rintro s t ⟨rfl, rfl⟩
    have hvalid := h.valid _ hmem
    have hbreak : (flashReadNext : CoreM δ Word).run s = .ok (breakOpcode, s) := by
      have hread : (flashReadNext : CoreM δ Word).run s = (avrCoreFlashRead (s.pc + 1)).run s := rfl
      rw [hread, h.twins.pc_eq, run_avrCoreFlashRead_of_valid ((h.valid_iff _).mpr hvalid), h.word,
        if_pos hmem]
    have hnext : (flashReadNext : CoreM δ Word).run t = .ok (t.flash.word (t.pc + 1), t) :=
      run_avrCoreFlashRead_of_valid hvalid
    rw [isNextInst2Words, run_bind_of_ok hbreak, run_bind_of_ok hnext]
    refine ⟨?_, rfl, rfl⟩
    right
    use hmem
    exact ⟨by decide, rfl⟩
  · have hread : Agrees c d isNextInst2Words := by
      apply (h.flashReadNext_agrees fun hmem' => absurd hmem' hmem).bind
      intro k
      apply Respects.pure
    apply Coupled.conseq (hread.silent Silent.isNextInst2Words) fun _ _ hst => hst
    rintro a s b t ⟨hval, -, hst⟩
    use Or.inl hval

omit [IoDevices δ] in
/-- The end of a skip. -/
theorem skipIf_coupled
    {R : AvrCore δ → AvrCore δ → Prop} {name : OpcodeName} {cond : Bool} {a b : Bool}
    (hcond : cond = true → a = b)
    (hskip : ∀ skip, Respects R (skipIf name cond skip : CoreM δ OpRet)) :
  Coupled R (skipIf name cond (if a then 3 else 2)) (skipIf name cond (if b then 3 else 2))
    fun a s b t => a = b ∧ R s t
  := by
  cases cond with
  | true =>
    rw [hcond rfl]
    apply hskip
  | false => apply hskip

/-- The length of the next instruction counts if the skip is taken. -/
theorem length_eq
    {taken mem : Prop} {a b two : Bool} (hskip : taken → mem → two = false)
    (hlength : a = b ∨ (mem ∧ a = false ∧ b = two)) (htaken : taken) :
  a = b
  := by
  obtain heq | ⟨hmem, rfl, rfl⟩ := hlength
  · apply heq
  · rw [hskip htaken hmem]

theorem skipIf_twins
    {f f' : Flash} {b b' : UniqueList BreakPt.pc} (name : OpcodeName) (cond : Bool) (skip : Int) :
  Respects (Twins f f' b b') (skipIf name cond skip : CoreM δ OpRet)
  := by
  have huses : Uses ⟨fun _ => True, False, False, True⟩ True (skipIf name cond skip : CoreM δ OpRet) := by
    apply skipIf_uses
  apply Twins.uses False.elim id huses

theorem Armed.avrOpCPSE_agrees
    (h : Armed pcs c d) (arg1 arg2 : Int)
    (hskip : OpcodeName.CPSE.Skips d arg1 arg2 → d.pc + 1 ∈ pcs →
      isTwoWords (d.flash.word (d.pc + 1)) = false) :
  Agrees c d (avrOpCPSE arg1 arg2)
  := by
  have hget (reg : Int) : Agrees c d (avrCoreGpwrGet reg) := by
    apply h.agrees
    apply gpwrGet_respects fun _ _ hst => hst.sameCells
  apply Coupled.bind ((hget arg1).silent (Silent.gpwrGet arg1))
  rintro rd _ s t ⟨rfl, hrd, hst⟩
  apply Coupled.bind ((hget arg2).silent (Silent.gpwrGet arg2)) _ s t hst
  rintro rr _ s t ⟨rfl, hrr, hst⟩
  apply Coupled.bind h.isNextInst2Words_coupled _ s t hst
  rintro a b s t ⟨hlength, rfl, rfl⟩
  apply skipIf_coupled _ (skipIf_twins _ _) s t h.twins
  intro htaken
  apply length_eq hskip hlength
  use rd, hrd
  rw [hrr, of_decide_eq_true htaken]

theorem Armed.skipIfRegBit_agrees
    (h : Armed pcs c d) (name : OpcodeName) (val : Bool) (Rd b : Int)
    (hskip : (∃ rd, d.read (avrCoreGpwrGet Rd) = some rd ∧ rd.getLsbD b.toNat = val) →
      d.pc + 1 ∈ pcs → isTwoWords (d.flash.word (d.pc + 1)) = false) :
  Agrees c d (skipIfRegBit name val Rd b)
  := by
  have hget : Agrees c d (avrCoreGpwrGet Rd) := by
    apply h.agrees
    apply gpwrGet_respects fun _ _ hst => hst.sameCells
  apply Coupled.bind h.isNextInst2Words_coupled
  rintro a b' s t ⟨hlength, hst⟩
  apply Coupled.bind hget.read _ s t hst
  rintro rd _ s t ⟨rfl, hrd, hst⟩
  apply skipIf_coupled _ (skipIf_twins _ _) s t hst
  intro htaken
  apply length_eq hskip hlength
  use rd, hrd, of_decide_eq_true htaken

theorem Armed.skipIfIoBit_agrees
    (h : Armed pcs c d) (name : OpcodeName) (val : Bool) (A b : Int)
    (hskip : (∃ io, d.read (avrCoreIoRead A) = some io ∧ io.getLsbD b.toNat = val) →
      d.pc + 1 ∈ pcs → isTwoWords (d.flash.word (d.pc + 1)) = false) :
  Agrees c d (skipIfIoBit name val A b)
  := by
  have hget : Agrees c d (avrCoreIoRead A) := by
    apply h.agrees
    apply Twins.memRead
  apply Coupled.bind h.isNextInst2Words_coupled
  rintro a b' s t ⟨hlength, hst⟩
  apply Coupled.bind hget.read _ s t hst
  rintro io _ s t ⟨rfl, hio, hst⟩
  apply skipIf_coupled _ (skipIf_twins _ _) s t hst
  intro htaken
  apply length_eq hskip hlength
  use io, hio, of_decide_eq_true htaken

/-- The handlers, but for those that read or write flash data. -/
theorem Armed.handler_agrees
    (h : Armed pcs c d) {func : OpcodeName} {arg1 arg2 : Int} (hargs : func.form.Admits arg1 arg2)
    (hflash : func ∉ flashOpcodes)
    (hoperand : d.pc + 1 ∈ pcs → func ∈ twoWordOpcodes → d.flash.word (d.pc + 1) = breakOpcode)
    (hskip : d.pc + 1 ∈ pcs → func.Skips d arg1 arg2 → isTwoWords (d.flash.word (d.pc + 1)) = false)
    (opcode : Word) :
  Agrees c d (func.handler opcode arg1 arg2)
  := by
  have hskip' (htaken : func.Skips d arg1 arg2) (hmem : d.pc + 1 ∈ pcs) := hskip hmem htaken
  have hcell : ∀ addr, 0 ≤ addr ∧ addr ≤ 0xffff →
      (⟨fun _ => True, False, False, True⟩ : Scope).cell addr := fun _ _ => trivial
  have huses {α : Type} {x : CoreM δ α} (hx : Uses ⟨fun _ => True, False, False, True⟩ True x) :
      Respects (Twins c.flash d.flash c.breakpoints d.breakpoints) x := by
    apply Twins.uses False.elim id hx
  by_cases hskips : func ∈ skipOpcodes
  · cases func with
    | CPSE => apply h.avrOpCPSE_agrees _ _ hskip'
    | SBRC => apply h.skipIfRegBit_agrees _ _ _ _ hskip'
    | SBRS => apply h.skipIfRegBit_agrees _ _ _ _ hskip'
    | SBIC => apply h.skipIfIoBit_agrees _ _ _ _ hskip'
    | SBIS => apply h.skipIfIoBit_agrees _ _ _ _ hskip'
    | _ => exact absurd hskips (by decide)
  · by_cases hwords : func ∈ twoWordOpcodes
    · have hnext (hmem : d.pc + 1 ∈ pcs) := hoperand hmem hwords
      have hread : Agrees c d flashReadNext := h.flashReadNext_agrees hnext
      have haddress (kh : Int) : Agrees c d (addressOperand kh) := by
        apply hread.bind
        intro k
        apply Respects.pure
      cases func with
      | LDS =>
        apply hread.bind
        intro k
        apply huses (ldsRest_advances hcell arg1 k).uses
      | STS =>
        apply hread.bind
        intro k
        apply huses (stsRest_advances hcell arg1 k).uses
      | JMP =>
        apply (haddress arg1).bind
        intro k
        apply huses (jump_uses _ _ _)
      | CALL =>
        apply Agrees.silent_bind (Silent.gets _) (h.agrees (huses (.action .pcGet)))
        intro pc
        apply Agrees.silent_bind (Silent.gets _) (h.agrees (huses (.action .pcSize)))
        intro pcBytes
        apply (haddress arg1).bind
        intro k
        apply Respects.bind (avrErrorIf_respects _ _ _)
        intro _
        apply Respects.bind (huses (avrCoreStackPush_uses hcell (fun _ => trivial) _))
        intro _
        apply huses (jump_uses _ _ _)
      | _ => exact absurd hwords (by decide)
    · apply h.agrees
      apply Twins.uses _ hflash (handler_uses hargs opcode)
      rintro (hmem : func ∈ skipOpcodes ++ twoWordOpcodes)
      obtain hmem | hmem := List.mem_append.mp hmem
      · contradiction
      · contradiction

/-! ### The step -/

/-- The next instruction. -/
theorem Armed.execNextInstruction_agrees
    (h : Armed pcs c d) (hpc : d.pc ∉ pcs)
    (hflash : ∀ opcode, flashRead d.flash d.pc = .ok opcode →
      (decodeOpcode opcode).func ∉ flashOpcodes)
    (hnext : ∀ opcode, flashRead d.flash d.pc = .ok opcode → d.pc + 1 ∈ pcs →
      Unpatched d opcode (d.flash.word (d.pc + 1))) :
  Agrees c d execNextInstruction
  := by
  rintro s t ⟨rfl, rfl⟩
  have hfetch : flashRead s.flash s.pc = flashRead t.flash t.pc := by
    rw [h.twins.pc_eq]
    apply h.flashRead_eq
    intro hmem
    contradiction
  cases ht : flashRead t.flash t.pc with
  | error e =>
    have herror (u : AvrCore δ) (hu : flashRead u.flash u.pc = .error e) :
        execNextInstruction.run u = .error e := by
      have hread : (avrCoreFlashRead u.pc).run u = .error e := by
        rw [run_avrCoreFlashRead, hu]
        rfl
      rw [execNextInstruction, run_bind_of_ok (run_avrCorePCGet u), run_bind_of_error hread]
    rw [herror s (hfetch.trans ht), herror t ht]
  | ok opcode =>
    rw [execNextInstruction_of_fetch ht, execNextInstruction_of_fetch (hfetch.trans ht)]
    apply h.fetched.handler_agrees (lookupOpcode_admits opcode) (hflash opcode ht)
    · intro hmem
      apply (hnext opcode ht hmem).operand
    · intro hmem
      apply (hnext opcode ht hmem).skip
    · exact ⟨rfl, rfl⟩

/-- The rest of the step, and of a step of a core that sleeps. -/
theorem Armed.avrCoreStep_agrees
    (h : Armed pcs c d)
    (hexec : d.state ≠ .sleep → Agrees c d execNextInstruction) :
  Agrees c d avrCoreStep
  := by
  have hunless : Agrees c d execUnlessAsleep := by
    rintro s t ⟨rfl, rfl⟩
    have hstate : s.state = t.state := by
      rw [h.twins.eq_twin]
      rfl
    rw [execUnlessAsleep, run_bind_of_ok (run_gets _ s), run_bind_of_ok (run_gets _ t), hstate]
    by_cases hsleep : t.state = .sleep
    · rw [if_pos hsleep]
      exact ⟨rfl, h.twins⟩
    · rw [if_neg hsleep]
      apply hexec hsleep s t ⟨rfl, rfl⟩
  apply hunless.bind
  intro res
  apply Respects.bind (Twins.gets fun _ _ _ _ => rfl)
  intro instCKS
  apply Respects.bind (Twins.propagateClocks _)
  intro _
  apply Respects.bind Twins.asyncCbExec
  intro _
  apply Respects.ite
  · intro _
    apply Respects.pure
  · intro _
    apply Respects.bind Twins.checkInterrupts
    intro _
    apply Respects.pure

/-- The step of the core with the breakpoints returns what the step without returns, and ends
in the same core but for the flash, the breakpoints and the messages to the display, or aborts
with the same error. -/
def Transparent (pcs : List Int) (d : AvrCore δ) : Prop :=
  ∃ c, (bpProgram (pcs.map .insert)).run d = .ok ((), c) ∧
    Coupled (Pair c d) avrCoreStep avrCoreStep fun a s b t => a = b ∧ s.bare = t.bare

/-- Breakpoints at words of the flash are transparent to a step from elsewhere that executes no
instruction that reads or writes flash data, if the word after the instruction, where there is a
breakpoint at it, is BREAK where it is an operand, and of an instruction of one word where it is
skipped. -/
theorem insert_transparent
    (pcs : List Int) (d : AvrCore δ) (hpcs : ∀ pc ∈ pcs, d.flash.Valid pc) (hpc : d.pc ∉ pcs)
    (hflash : ∀ opcode, flashRead d.flash d.pc = .ok opcode →
      (decodeOpcode opcode).func ∉ flashOpcodes)
    (hnext : ∀ opcode, d.state ≠ .sleep → flashRead d.flash d.pc = .ok opcode → d.pc + 1 ∈ pcs →
      Unpatched d opcode (d.flash.word (d.pc + 1))) :
  Transparent pcs d
  := by
  obtain ⟨c, hrun, h⟩ := insert_spec pcs d hpcs
  use c, hrun
  have hstep : Agrees c d avrCoreStep := by
    apply h.avrCoreStep_agrees
    intro hawake
    apply h.execNextInstruction_agrees hpc hflash
    intro opcode
    apply hnext opcode hawake
  apply hstep.conseq (fun _ _ hst => hst)
  rintro a s b t ⟨hval, htwins⟩
  use hval, htwins.bare

end

/-- The at90s2313 at the first of the given words. -/
def AvrCore.ofWords (words : List Word) : AvrCore Unit :=
  { AvrCore.at90s2313 with flash := .ofWords words }

/-- `CPSE r0, r0` skips a NOP with a breakpoint. -/
theorem insert_transparent_cpse_nop :
  Transparent [1] (AvrCore.ofWords [0x1000, 0x0000, 0x0000])
  := by
  have hfirst (opcode : Word) (hfetch : flashRead (.ofWords [0x1000, 0x0000, 0x0000]) 0 = .ok opcode) :
      opcode = 0x1000 := by
    apply Except.ok.inj (hfetch.symm.trans _)
    decide +kernel
  apply insert_transparent
  · decide +kernel
  · decide +kernel
  · intro opcode hfetch
    rw [hfirst opcode hfetch]
    decide +kernel
  · intro opcode _ hfetch _
    rw [hfirst opcode hfetch]
    constructor
    · decide +kernel
    · intro _
      decide +kernel

/-- `CPSE r0, r0` skips a single word of a JMP with a breakpoint. -/
theorem insert_not_transparent :
  ¬ ∀ (pcs : List Int) (d : AvrCore Unit), (∀ pc ∈ pcs, d.flash.Valid pc) → d.pc ∉ pcs →
    (∀ opcode, flashRead d.flash d.pc = .ok opcode → (decodeOpcode opcode).func ∉ flashOpcodes) →
    Transparent pcs d
  := by
  intro h
  let d : AvrCore Unit := .ofWords [0x1000, 0x940c, 0x0000, 0x0000]
  have hfirst : flashRead d.flash d.pc = .ok 0x1000 := by
    decide +kernel
  have hvalid : ∀ pc ∈ [(1 : Int)], d.flash.Valid pc := by
    decide +kernel
  have hflash : ∀ opcode, flashRead d.flash d.pc = .ok opcode →
      (decodeOpcode opcode).func ∉ flashOpcodes := by
    intro opcode hfetch
    rw [← Except.ok.inj (hfirst.symm.trans hfetch)]
    decide +kernel
  obtain ⟨c, hrun, hstep⟩ := h [1] d hvalid (by decide +kernel) hflash
  have hd : (avrCoreStep.run d).toOption.map (fun r => r.2.pc) = some 3 := by
    decide +kernel
  have hc : ((bpProgram [.insert 1] >>= fun _ => avrCoreStep).run d).toOption.map
      (fun r => r.2.pc) = some 2 := by
    decide +kernel
  have hrun' : (bpProgram [.insert 1]).run d = .ok ((), c) := hrun
  rw [run_bind_of_ok hrun'] at hc
  have hsame := hstep c d ⟨rfl, rfl⟩
  cases hrun₁ : avrCoreStep.run c with
  | error e =>
    rw [hrun₁] at hc
    contradiction
  | ok r₁ =>
    cases hrun₂ : avrCoreStep.run d with
    | error e =>
      rw [hrun₂] at hd
      contradiction
    | ok r₂ =>
      rw [hrun₁] at hc
      rw [hrun₂] at hd
      rw [hrun₁, hrun₂] at hsame
      have hpc : r₁.2.bare.pc = r₂.2.bare.pc := by rw [hsame.2]
      have hc' : r₁.2.bare.pc = 2 := Option.some.inj hc
      have hd' : r₂.2.bare.pc = 3 := Option.some.inj hd
      rw [hc', hd'] at hpc
      contradiction

end SimulAvr
