import SimulAvr.Decoder.Control

/-!
# Interrupts, breakpoints and steps

The list of pending interrupts, the breakpoints, the reset, and the processing of one
instruction with its clock ticks, callbacks and interrupts.
-/

namespace SimulAvr

/-- `IRQ_RESET_ADDR` -/
abbrev irqResetAddr : Int := 0x00

/-- `BREAK_OPCODE` -/
abbrev breakOpcode : Word := 0x9598

/-! ### Interrupts -/

section

variable {δ : Type}

/-- `avr_core_irq_raise` -/
def AvrCore.irqRaise (c : AvrCore δ) (irq : Nat) : AvrCore δ :=
  { c with irqPending := c.irqPending.add (c.irqVtable irq) }

/-- `avr_core_irq_clear` -/
def AvrCore.irqClear (c : AvrCore δ) (irq : IntVect) : AvrCore δ :=
  { c with irqPending := c.irqPending.delete irq.addr }

/-- `avr_core_irq_clear_all` -/
def AvrCore.irqClearAll (c : AvrCore δ) : AvrCore δ :=
  { c with irqPending := .nil }

/-- `irq_cmp_pending` is zero: the interrupt can be handled in the state of the core. -/
def irqCmpPending (state : StateType) (sleepMode : BitVec 32) (irq : IntVect) : Bool :=
  if state = .sleep then sleepMode &&& irq.canWake ≠ 0 else true

/-- `irq_get_pending_vector`, where `found` is not checked -/
def irqGetPendingVector (head : UniqueList IntVect.addr) (state : StateType)
    (sleepMode : BitVec 32) : Except AvrError IntVect :=
  match head.lookup (irqCmpPending state sleepMode) with
  | some found => .ok found
  | none => .error .nullVector

/-- `avr_core_irq_get_pending` -/
def avrCoreIrqGetPending : CoreM δ IntVect :=
  fun c => (irqGetPendingVector c.irqPending c.state c.sleepMode).map (fun irq => (irq, c))

/-! ### Breakpoints -/

/-- `avr_core_insert_breakpoint` -/
def avrCoreInsertBreakpoint (pc : Int) : CoreM δ Unit := do
  let insn ← avrCoreFlashRead pc
  update (fun c => { c with breakpoints := c.breakpoints.add { pc := pc, opcode := insn } })
  avrCoreFlashWrite pc breakOpcode

/-- `avr_core_remove_breakpoint` -/
def avrCoreRemoveBreakpoint (pc : Int) : CoreM δ Unit := do
  let breakpoints ← gets AvrCore.breakpoints
  match breakpoints.lookup (fun bp => bp.pc = pc) with
  | none => return ()
  | some bp =>
    update (fun c => { c with breakpoints := c.breakpoints.delete pc })
    avrCoreFlashWrite pc bp.opcode

/-- `bp->opcode = opcode` for the breakpoint at `pc` -/
def AvrCore.bpSetOpcode (c : AvrCore δ) (pc : Int) (opcode : Word) : AvrCore δ :=
  let save (bp : BreakPt) := if bp.pc = pc then { bp with opcode := opcode } else bp
  { c with breakpoints := c.breakpoints.map save (fun bp => by dsimp only [save]; split <;> rfl) }

/-- `iter_enable_breakpoint` -/
def iterEnableBreakpoint (enable : Bool) (bp : BreakPt) : CoreM δ Unit := do
  if enable then
    let insn ← avrCoreFlashRead bp.pc
    if insn ≠ breakOpcode then
      update (fun c => c.bpSetOpcode bp.pc insn)
      avrCoreFlashWrite bp.pc breakOpcode
  else
    avrCoreFlashWrite bp.pc bp.opcode

/-- `brk_pt_iterator`, for a function that deletes no item -/
def brkPtIterator (func : BreakPt → CoreM δ Unit) : CoreM δ Unit := do
  let breakpoints ← gets AvrCore.breakpoints
  breakpoints.entries.forM func

/-- `avr_core_disable_breakpoints` -/
def avrCoreDisableBreakpoints : CoreM δ Unit :=
  brkPtIterator (iterEnableBreakpoint false)

/-- `avr_core_enable_breakpoints` -/
def avrCoreEnableBreakpoints : CoreM δ Unit :=
  brkPtIterator (iterEnableBreakpoint true)

end

/-! ### Steps -/

section

variable {δ : Type} [IoDevices δ]

/-- `avr_core_reset` -/
def AvrCore.reset (c : AvrCore δ) : AvrCore δ :=
  let c := (c.pcSet 0).irqClearAll
  let c := { c with instCKS := 0 }
  (c.displaySend (.clock c.ck)).memReset

/-- The effect of an event of a callback on the core. -/
def AvrCore.devEvent (c : AvrCore δ) : DevEvent → AvrCore δ
  | .irqRaise irq => c.irqRaise irq

/-- `avr_core_clk_cb_exec` -/
def avrCoreClkCbExec : CoreM δ Unit := do
  let c ← get
  let (dev, events) ← liftDev (IoDevices.clkCbExec c.ck c.dev)
  update (fun c => events.foldl AvrCore.devEvent { c with dev := dev })

/-- `avr_core_async_cb_exec` -/
def avrCoreAsyncCbExec : CoreM δ Unit := do
  let dev ← gets AvrCore.dev
  let (dev, events) ← liftDev (IoDevices.asyncCbExec dev)
  update (fun c => events.foldl AvrCore.devEvent { c with dev := dev })

/-- `avr_core_CK_incr` -/
def AvrCore.ckIncr (c : AvrCore δ) : AvrCore δ :=
  { c with ck := c.ck + 1 }.displaySend (.clock (c.ck + 1 : Nat))

/-- The loop of `avr_core_step` that propagates the clocks of an instruction, with `n`
clocks left.  No callback changes `inst_CKS`. -/
def propagateClocks : Nat → CoreM δ Unit
  | 0 => return ()
  | n + 1 => do
    avrCoreClkCbExec
    update AvrCore.ckIncr
    update (fun c => { c with instCKS := c.instCKS - 1 })
    propagateClocks n

/-- `exec_next_instruction` -/
def execNextInstruction : CoreM δ OpRet := do
  let pc ← avrCorePCGet
  let opcode ← avrCoreFlashRead pc
  -- break points and invalid opcodes don't add extraneous clock counts
  avrCoreInstCKSSet 0
  execOpcode opcode

/-- The part of `avr_core_check_interrupts` that vectors to `irq`. -/
def vectorTo (irq : IntVect) : CoreM δ Unit := do
  let pc ← avrCorePCGet
  let pcBytes ← avrCorePCSize
  avrCoreStackPush pcBytes (.ofInt 32 pc)
  avrCoreSregSetBit SREG.I false
  let irqOffset ← gets AvrCore.irqOffset
  avrCorePCSet (irq.addr + irqOffset)
  update (fun c => c.irqClear irq)

/-- The part of `avr_core_check_interrupts` that services `irq`. -/
def takeInterrupt (irq : IntVect) : CoreM δ Unit := do
  avrErrorIf (irq.name = none) "Raised an invalid irq for device" []
  -- The global interrupt (SREG.I) never blocks a reset.
  update (fun c => if irq.addr = irqResetAddr then c.reset else c)
  let I ← avrCoreSregGetBit SREG.I
  if I then vectorTo irq else return ()

/-- `avr_core_check_interrupts` -/
def avrCoreCheckInterrupts : CoreM δ Unit := do
  let irqPending ← gets AvrCore.irqPending
  if irqPending.entries = [] then
    return ()
  else
    let irq ← avrCoreIrqGetPending
    takeInterrupt irq

/-- The execution of an instruction by `avr_core_step`, unless the core sleeps. -/
def execUnlessAsleep : CoreM δ OpRet := do
  let state ← gets AvrCore.state
  -- `res` is initially 0, the number of BREAK
  if state = .sleep then return .opcode .BREAK else execNextInstruction

/-- `avr_core_step` -/
def avrCoreStep : CoreM δ OpRet := do
  let res ← execUnlessAsleep
  let instCKS ← gets AvrCore.instCKS
  propagateClocks instCKS.toNat
  avrCoreAsyncCbExec
  -- If the previous instruction was a reti, then we need to delay handling of any
  -- pending IRQs until after the next instruction is executed.
  if res = .opcode .RETI then return res
  avrCoreCheckInterrupts
  return res

/-! ### Runs of the steps -/

/-- The core after the fetch of an instruction. -/
def AvrCore.fetched (c : AvrCore δ) : AvrCore δ :=
  { c with instCKS := 0 }

/-- The execution of the instruction that is fetched. -/
theorem execNextInstruction_of_fetch
    {c : AvrCore δ} {opcode : Word} (hfetch : flashRead c.flash c.pc = .ok opcode) :
  execNextInstruction.run c = (execOpcode opcode).run c.fetched
  := by
  have hread : (avrCoreFlashRead c.pc).run c = .ok (opcode, c) := by
    rw [run_avrCoreFlashRead, hfetch]
    rfl
  rw [execNextInstruction, Program.run_bind_of_ok (run_avrCorePCGet c),
    Program.run_bind_of_ok hread, Program.run_bind_of_ok (run_avrCoreInstCKSSet c 0)]
  rfl

/-- A run of the next instruction: the word at the program counter is fetched and
executed. -/
theorem execNextInstruction_eq_ok
    {c c' : AvrCore δ} {ret : OpRet} (h : execNextInstruction.run c = .ok (ret, c')) :
  ∃ opcode, flashRead c.flash c.pc = .ok opcode ∧
    (execOpcode opcode).run c.fetched = .ok (ret, c')
  := by
  cases hfetch : flashRead c.flash c.pc with
  | error e =>
    have hread : (avrCoreFlashRead c.pc).run c = .error e := by
      rw [run_avrCoreFlashRead, hfetch]
      rfl
    rw [execNextInstruction, Program.run_bind_of_ok (run_avrCorePCGet c),
      Program.run_bind_of_error hread] at h
    contradiction
  | ok opcode =>
    rw [execNextInstruction_of_fetch hfetch] at h
    exact ⟨opcode, rfl, h⟩

/-- The parts of a run of a step. -/
theorem avrCoreStep_eq_ok
    {c c' : AvrCore δ} {ret : OpRet} :
  avrCoreStep.run c = .ok (ret, c') ↔
    ∃ c₁ c₂ c₃, execUnlessAsleep.run c = .ok (ret, c₁) ∧
      (propagateClocks c₁.instCKS.toNat).run c₁ = .ok ((), c₂) ∧
      avrCoreAsyncCbExec.run c₂ = .ok ((), c₃) ∧
      if ret = .opcode .RETI then c' = c₃ else avrCoreCheckInterrupts.run c₃ = .ok ((), c')
  := by
  constructor
  · intro h
    obtain ⟨res, c₁, hexec, h⟩ := Program.run_bind_eq_ok.mp h
    rw [Program.run_bind_of_ok (run_gets _ c₁)] at h
    obtain ⟨⟨⟩, c₂, hclocks, h⟩ := Program.run_bind_eq_ok.mp h
    obtain ⟨⟨⟩, c₃, hasync, h⟩ := Program.run_bind_eq_ok.mp h
    by_cases hreti : res = .opcode .RETI
    · rw [if_pos hreti] at h
      cases h
      refine ⟨c₁, c₂, _, hexec, hclocks, hasync, ?_⟩
      rw [if_pos hreti]
    · rw [if_neg hreti] at h
      obtain ⟨⟨⟩, c₄, hcheck, h⟩ := Program.run_bind_eq_ok.mp h
      cases h
      refine ⟨c₁, c₂, c₃, hexec, hclocks, hasync, ?_⟩
      rw [if_neg hreti]
      apply hcheck
  · rintro ⟨c₁, c₂, c₃, hexec, hclocks, hasync, h⟩
    rw [avrCoreStep, Program.run_bind_of_ok hexec, Program.run_bind_of_ok (run_gets _ c₁)]
    rw [Program.run_bind_of_ok hclocks, Program.run_bind_of_ok hasync]
    by_cases hreti : ret = .opcode .RETI
    · rw [if_pos hreti] at h ⊢
      rw [h]
      rfl
    · rw [if_neg hreti] at h ⊢
      rw [Program.run_bind_of_ok h]
      rfl

end

end SimulAvr
