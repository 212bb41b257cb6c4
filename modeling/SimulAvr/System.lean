import SimulAvr.Interrupts
import SimulAvr.Lib.Runs

/-!
# Runs of a core

The core as a transition system: the events that change it are the execution of an
instruction, the raising and clearing of interrupts, the check for interrupts, resets,
writes of the program counter by the debugger, and other steps such as clock ticks.
Every step of the simulator is a run of the system (`avrCoreStep_run`).
-/

namespace SimulAvr

open Transition

section

variable {δ : Type} [IoDevices δ]

/-! ### Events -/

/-- The events of a core. -/
inductive Event where
  /-- `exec_next_instruction` -/
  | instruction
  /-- `avr_core_irq_raise` -/
  | irqRaise (irq : Nat)
  /-- `avr_core_irq_clear` -/
  | irqClear (irq : IntVect)
  /-- `avr_core_check_interrupts` -/
  | checkInterrupts
  /-- `avr_core_reset` -/
  | reset
  /-- `avr_core_PC_set` by the debugger -/
  | pcSet (val : Int)
  | other

/-- The core `c'` has the program counter, the layout and the pending interrupts of `c`, as
after a step that is not one of the events with a name. -/
structure Quiet (c c' : AvrCore δ) : Prop where
  pc : c'.pc = c.pc
  layout : c'.layout = c.layout
  irqPending : c'.irqPending = c.irqPending

/-- The steps of a core. -/
inductive Step : Event → AvrCore δ → AvrCore δ → Prop
  | instruction {c c' : AvrCore δ} {ret : OpRet}
      (h : execNextInstruction.run c = .ok (ret, c')) : Step .instruction c c'
  | irqRaise (irq : Nat) (c : AvrCore δ) : Step (.irqRaise irq) c (c.irqRaise irq)
  | irqClear (irq : IntVect) (c : AvrCore δ) : Step (.irqClear irq) c (c.irqClear irq)
  | checkInterrupts {c c' : AvrCore δ} (h : avrCoreCheckInterrupts.run c = .ok ((), c')) :
      Step .checkInterrupts c c'
  | reset (c : AvrCore δ) : Step .reset c c.reset
  | pcSet (val : Int) (c : AvrCore δ) : Step (.pcSet val) c (c.pcSet val)
  | other {c c' : AvrCore δ} (h : Quiet c c') : Step .other c c'

/-- The runs of a core whose events meet a condition. -/
abbrev CoreRun (ok : AvrCore δ → Event → Prop) : AvrCore δ → AvrCore δ → Prop :=
  Run Step ok

/-- A run that raises two interrupts. -/
theorem irqRaise_irqRaise_run
    {ok : AvrCore δ → Event → Prop} {c : AvrCore δ} {irq irq' : Nat}
    (h : ok c (.irqRaise irq)) (h' : ok (c.irqRaise irq) (.irqRaise irq')) :
  CoreRun ok c ((c.irqRaise irq).irqRaise irq')
  := by
  apply Run.tail
  · apply Run.single h (Step.irqRaise irq c)
  · apply h'
  · apply Step.irqRaise

/-- An instruction changes what instructions may change. -/
theorem execNextInstruction_frame
    {c c' : AvrCore δ} {ret : OpRet} (h : execNextInstruction.run c = .ok (ret, c')) :
  Frame True c c'
  := by
  obtain ⟨opcode, -, hexec⟩ := execNextInstruction_eq_ok h
  have huses : Uses (decodeOpcode opcode).func.scope True (execOpcode opcode : CoreM δ OpRet) :=
    handler_uses (lookupOpcode_admits opcode) opcode
  apply Frame.trans _ (huses.frame hexec)
  constructor <;> intros <;> trivial

/-- The steps leave the layout. -/
theorem Step.layout
    {c c' : AvrCore δ} {e : Event} (hstep : Step e c c') :
  c'.layout = c.layout
  := by
  cases hstep with
  | instruction h => apply (execNextInstruction_frame h).layout
  | irqRaise irq => rfl
  | irqClear irq => rfl
  | checkInterrupts h => apply check_layout h
  | reset => apply (AvrCore.reset_spec c).layout
  | pcSet val => rfl
  | other h => apply h.layout

/-- The runs leave the layout. -/
theorem CoreRun.layout
    {ok : AvrCore δ → Event → Prop} {c c' : AvrCore δ} (hrun : CoreRun ok c c') :
  c'.layout = c.layout
  := by
  apply hrun.invariant (I := fun c' => c'.layout = c.layout) _ rfl
  intro c₁ e c₂ h _ hstep
  rw [hstep.layout, h]

/-! ### The steps of the simulator are runs -/

/-- The events of callbacks raise interrupts. -/
theorem devEvents_run
    (c : AvrCore δ) (events : List DevEvent) :
  CoreRun Always c (events.foldl AvrCore.devEvent c)
  := by
  induction events generalizing c with
  | nil => apply Run.refl
  | cons event events ih =>
    apply Run.trans _ (ih _)
    cases event with
    | irqRaise irq => apply Run.single trivial (Step.irqRaise irq c)

/-- A pass over a list of callbacks is a run. -/
theorem callbacks_run
    {x : Except DevError (δ × List DevEvent)} {c c' : AvrCore δ}
    (h : (do
      let (dev, events) ← liftDev x
      update (fun c => events.foldl AvrCore.devEvent { c with dev := dev }) :
        CoreM δ Unit).run c = .ok ((), c')) :
  CoreRun Always c c'
  := by
  cases x with
  | error e => contradiction
  | ok r =>
    obtain ⟨dev, events⟩ := r
    cases h
    apply Run.trans _ (devEvents_run _ events)
    apply Run.single trivial
    apply Step.other
    constructor <;> rfl

/-- The clock ticks of an instruction are a run. -/
theorem propagateClocks_run
    {n : Nat} {c c' : AvrCore δ} (h : (propagateClocks n).run c = .ok ((), c')) :
  CoreRun Always c c'
  := by
  induction n generalizing c with
  | zero =>
    cases h
    apply Run.refl
  | succ n ih =>
    obtain ⟨⟨⟩, c₁, hclk, hrest⟩ := Program.run_bind_eq_ok.mp h
    rw [Program.run_bind_of_ok (run_update _ c₁), Program.run_bind_of_ok (run_update _ _)]
      at hrest
    apply Run.trans (callbacks_run hclk)
    apply Run.trans _ (ih hrest)
    apply Run.single trivial
    apply Step.other
    constructor <;> rfl

/-- A step of the simulator is a run. -/
theorem avrCoreStep_run
    {c c' : AvrCore δ} {ret : OpRet} (h : avrCoreStep.run c = .ok (ret, c')) :
  CoreRun Always c c'
  := by
  obtain ⟨c₁, c₂, c₃, hexec, hclocks, hasync, hcheck⟩ := avrCoreStep_eq_ok.mp h
  have hexec' : CoreRun Always c c₁ := by
    rw [execUnlessAsleep, Program.run_bind_of_ok (run_gets _ c)] at hexec
    split at hexec
    · cases hexec
      apply Run.refl
    · apply Run.single trivial (Step.instruction hexec)
  apply Run.trans hexec'
  apply Run.trans (propagateClocks_run hclocks)
  apply Run.trans (callbacks_run hasync)
  split at hcheck
  · rw [hcheck]
    apply Run.refl
  · apply Run.single trivial (Step.checkInterrupts hcheck)

end

end SimulAvr
