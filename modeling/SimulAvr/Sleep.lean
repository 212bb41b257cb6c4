import SimulAvr.InterruptReturn

/-!
# Sleep and wake-up

A step of a sleeping core executes no instruction: it runs the callbacks and checks for
interrupts.  The check takes the first pending interrupt that can wake the core, without a
look at whether there is one, and nothing ends the sleep (`step_asleep`).  So a step does what
it should only if an interrupt is found that must not be taken (`sleep_step_iff`).
-/

namespace SimulAvr

open Program

section

variable {δ : Type} [IoDevices δ]

/-! ### The step of a sleeping core -/

/-- The callbacks of a step of a sleeping core leave the core `c'` for the check. -/
def CallbacksRun (c c' : AvrCore δ) : Prop :=
  ∃ c₁, (propagateClocks c.instCKS.toNat).run c = .ok ((), c₁) ∧
    avrCoreAsyncCbExec.run c₁ = .ok ((), c')

/-- The callbacks leave the program counter, the registers and the state, and may raise
interrupts. -/
theorem CallbacksRun.ticks
    {c c' : AvrCore δ} (h : CallbacksRun c c') :
  Ticks c c'
  := by
  obtain ⟨c₁, hclocks, hasync⟩ := h
  apply Ticks.trans (Ticks.propagateClocks hclocks)
  rw [avrCoreAsyncCbExec, run_bind_of_ok (run_gets _ c₁)] at hasync
  apply Ticks.callbacks hasync

theorem CallbacksRun.unique
    {c c₁ c₂ : AvrCore δ} (h₁ : CallbacksRun c c₁) (h₂ : CallbacksRun c c₂) :
  c₁ = c₂
  := by
  obtain ⟨d₁, hclocks₁, hasync₁⟩ := h₁
  obtain ⟨d₂, hclocks₂, hasync₂⟩ := h₂
  rw [hclocks₁] at hclocks₂
  cases hclocks₂
  rw [hasync₁] at hasync₂
  cases hasync₂
  rfl

/-- A step of a sleeping core runs the callbacks and checks for interrupts; the number it
returns is that of BREAK. -/
theorem avrCoreStep_asleep
    {c c' : AvrCore δ} {ret : OpRet} (hsleep : c.state = .sleep) :
  avrCoreStep.run c = .ok (ret, c') ↔
    ret = .opcode .BREAK ∧ ∃ d, CallbacksRun c d ∧ avrCoreCheckInterrupts.run d = .ok ((), c')
  := by
  have hexec : execUnlessAsleep.run c = .ok (.opcode .BREAK, c) := by
    rw [execUnlessAsleep, run_bind_of_ok (run_gets _ c), if_pos hsleep]
    rfl
  rw [avrCoreStep_eq_ok, hexec]
  constructor
  · rintro ⟨c₁, c₂, c₃, h, hclocks, hasync, hcheck⟩
    cases h
    rw [if_neg (by decide)] at hcheck
    exact ⟨rfl, c₃, ⟨c₂, hclocks, hasync⟩, hcheck⟩
  · rintro ⟨rfl, d, ⟨c₁, hclocks, hasync⟩, hcheck⟩
    refine ⟨c, c₁, d, rfl, hclocks, hasync, ?_⟩
    rw [if_neg (by decide)]
    apply hcheck

/-- A check does not change the state of the device. -/
theorem check_state
    {c c' : AvrCore δ} (h : avrCoreCheckInterrupts.run c = .ok ((), c')) :
  c'.state = c.state
  := by
  obtain rfl | ⟨irq, htake⟩ := check_cases h
  · rfl
  have hfor : (c.resetFor irq).state = c.state := by
    rw [AvrCore.resetFor]
    split
    · apply (AvrCore.reset_frame c).state
    · rfl
  obtain ⟨-, ⟨-, rfl⟩ | ⟨-, hvector⟩⟩ := takeInterrupt_cases htake
  · apply hfor
  · obtain ⟨c₁, -, hframe, rfl⟩ := vectorTo_eq_ok hvector
    apply hframe.state.trans hfor

/-- Nothing ends the sleep. -/
theorem step_asleep
    {c c' : AvrCore δ} {ret : OpRet} (hsleep : c.state = .sleep)
    (hstep : avrCoreStep.run c = .ok (ret, c')) :
  c'.state = .sleep
  := by
  obtain ⟨-, d, hcallbacks, hcheck⟩ := (avrCoreStep_asleep hsleep).mp hstep
  rw [check_state hcheck, hcallbacks.ticks.state, hsleep]

/-! ### Wake-up -/

/-- The first pending interrupt that can wake the core. -/
def AvrCore.firstWaking (c : AvrCore δ) : Option IntVect :=
  c.irqPending.entries.find? fun irq => c.sleepMode &&& irq.canWake ≠ 0

/-- The interrupt `irq` has been taken, and the core is awake: the next step executes the
instruction at its vector. -/
structure TakenAwake (c c' : AvrCore δ) (irq : IntVect) : Prop where
  pc : c'.pc = if irq.addr = irqResetAddr then 0
    else AvrCore.adjustPCToMax c.pcMax (irq.addr + c.irqOffset)
  taken : irq ∉ c'.irqPending.entries
  awake : c'.state ≠ .sleep

/-- What the check of a sleeping core should do: with no interrupt that can wake the core it
leaves PC, SP, SREG and the pending interrupts, and it takes the first one that can, where I
is set or the interrupt is RESET. -/
structure ChecksAsleep (c c' : AvrCore δ) : Prop where
  stays : c.firstWaking = none →
    c'.pc = c.pc ∧ c'.sp = c.sp ∧ c'.sreg = c.sreg ∧ c'.irqPending = c.irqPending
  wakes : ∀ irq, c.firstWaking = some irq →
    c.sregGetBit SREG.I = true ∨ irq.addr = irqResetAddr → TakenAwake c c' irq

/-- What a step of a sleeping core should do: it does not fault, executes no instruction
before the check, and wakes up or stays asleep in it. -/
def SleepsWell (c : AvrCore δ) : Prop :=
  ∃ d c', CallbacksRun c d ∧ avrCoreStep.run c = .ok (.opcode .BREAK, c') ∧ ChecksAsleep d c'

/-- The callbacks do not abort, and then the first pending interrupt that can wake the core
exists, and has a name, but is masked. -/
def WakingMasked (c : AvrCore δ) : Prop :=
  ∃ d irq, CallbacksRun c d ∧ d.firstWaking = some irq ∧ irq.name ≠ none ∧
    irq.addr ≠ irqResetAddr ∧ c.sregGetBit SREG.I = false

omit [IoDevices δ] in
/-- The interrupt that `avr_core_irq_get_pending` finds. -/
theorem irqGetPendingVector_asleep
    {c : AvrCore δ} (hsleep : c.state = .sleep) :
  avrCoreIrqGetPending.run c =
    match c.firstWaking with
    | some irq => .ok (irq, c)
    | none => .error .nullVector
  := by
  have hlookup : c.irqPending.lookup (irqCmpPending c.state c.sleepMode) = c.firstWaking := by
    rw [UniqueList.lookup, AvrCore.firstWaking, hsleep]
    rfl
  change (irqGetPendingVector _ _ _).map _ = _
  rw [irqGetPendingVector, hlookup]
  cases c.firstWaking <;> rfl

/-- The check of a sleeping core with pending interrupts. -/
theorem check_asleep
    {c : AvrCore δ} (hsleep : c.state = .sleep) (hpending : c.irqPending.entries ≠ []) :
  avrCoreCheckInterrupts.run c =
    match c.firstWaking with
    | some irq => (takeInterrupt irq).run c
    | none => .error .nullVector
  := by
  rw [avrCoreCheckInterrupts, run_bind_of_ok (run_gets _ c), if_neg hpending]
  have hget := irqGetPendingVector_asleep hsleep
  cases hwaking : c.firstWaking with
  | some irq =>
    rw [hwaking] at hget
    apply run_bind_of_ok hget
  | none =>
    rw [hwaking] at hget
    apply run_bind_of_error hget

/-- A step of a sleeping core with pending interrupts does what it should exactly if an
interrupt is found that must not be taken. -/
theorem sleep_step_iff
    {c : AvrCore δ} (hsleep : c.state = .sleep) (hpending : c.irqPending.entries ≠ []) :
  SleepsWell c ↔ WakingMasked c
  := by
  have hstate {d : AvrCore δ} (hd : CallbacksRun c d) : d.state = .sleep :=
    hd.ticks.state.trans hsleep
  have hraised {d : AvrCore δ} (hd : CallbacksRun c d) : d.irqPending.entries ≠ [] := by
    obtain ⟨irq, hirq⟩ := List.exists_mem_of_ne_nil _ hpending
    apply List.ne_nil_of_mem (hd.ticks.raised irq hirq)
  have hI {d : AvrCore δ} (hd : CallbacksRun c d) : d.sregGetBit SREG.I = c.sregGetBit SREG.I := by
    rw [AvrCore.sregGetBit, AvrCore.sregGetBit, hd.ticks.sreg]
  constructor
  · rintro ⟨d, c', hd, hstep, hchecks⟩
    obtain ⟨-, d', hd', hrun⟩ := (avrCoreStep_asleep hsleep).mp hstep
    obtain rfl := hd.unique hd'
    have hasleep := step_asleep hsleep hstep
    rw [check_asleep (hstate hd) (hraised hd)] at hrun
    cases hwaking : d.firstWaking with
    | none =>
      rw [hwaking] at hrun
      contradiction
    | some irq =>
      rw [hwaking] at hrun
      have hmasked : ¬ (d.sregGetBit SREG.I = true ∨ irq.addr = irqResetAddr) := by
        intro htake
        apply (hchecks.wakes irq hwaking htake).awake hasleep
      rw [not_or, Bool.not_eq_true, hI hd] at hmasked
      exact ⟨d, irq, hd, hwaking, (takeInterrupt_cases hrun).1, hmasked.2, hmasked.1⟩
  · rintro ⟨d, irq, hd, hwaking, hname, haddr, hmasked⟩
    have hfor : d.resetFor irq = d := if_neg haddr
    have hrun : avrCoreCheckInterrupts.run d = .ok ((), d) := by
      rw [check_asleep (hstate hd) (hraised hd), hwaking]
      dsimp only
      rw [run_takeInterrupt hname, hfor, hI hd, hmasked]
      rfl
    refine ⟨d, d, hd, (avrCoreStep_asleep hsleep).mpr ⟨rfl, d, hd, hrun⟩, ?_⟩
    constructor
    · intro hnone
      rw [hwaking] at hnone
      contradiction
    · intro irq' hirq' htake
      rw [hwaking] at hirq'
      cases hirq'
      rw [hI hd, hmasked] at htake
      obtain h | h := htake
      · contradiction
      · exact absurd h haddr

end

/-- A masked interrupt that can wake the core. -/
theorem sleep_step_iff_masked :
  SleepsWell ({ AvrCore.at90s2313 with
    state := .sleep
    sleepMode := 1
    irqVtable := fun _ => { vtabAt90s2313 10 with canWake := 1 } }.irqRaise 10)
  := by
  apply (sleep_step_iff rfl (by decide +kernel)).mpr
  refine ⟨_, { vtabAt90s2313 10 with canWake := 1 }, ⟨_, rfl, rfl⟩, ?_⟩
  decide +kernel

/-- A sleeping core faults at an interrupt that cannot wake it. -/
theorem sleep_step_faults :
  ¬ ∀ c : AvrCore Unit, c.state = .sleep → c.irqPending.entries ≠ [] → SleepsWell c
  := by
  intro h
  let c : AvrCore Unit := { AvrCore.at90s2313 with state := .sleep, sleepMode := 1 }.irqRaise 10
  have hpending : c.irqPending.entries ≠ [] := by
    decide +kernel
  have hfault : (avrCoreStep.run c).toOption.isNone = true := by
    decide +kernel
  obtain ⟨d, c', -, hstep, -⟩ := h c rfl hpending
  rw [hstep] at hfault
  exact absurd hfault Bool.false_ne_true

end SimulAvr
