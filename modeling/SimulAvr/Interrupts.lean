import SimulAvr.Reset

/-!
# Interrupts

What `avr_core_check_interrupts` does to a core: it services the first pending interrupt
of an awake one (`check_of_cons`), which is a reset, a vectoring, or nothing when the
interrupt is masked (`takeInterrupt_cases`, `vectorTo_eq_ok`).
-/

namespace SimulAvr

section

variable {δ : Type} [IoDevices δ]

/-! ### The check for interrupts -/

omit [IoDevices δ] in
/-- The selection of a pending interrupt finds one in the core as it is, or none. -/
theorem avrCoreIrqGetPending_cases
    (c : AvrCore δ) :
  avrCoreIrqGetPending.run c = .error .nullVector ∨
    ∃ irq, avrCoreIrqGetPending.run c = .ok (irq, c)
  := by
  change (irqGetPendingVector _ _ _).map _ = _ ∨ ∃ irq, (irqGetPendingVector _ _ _).map _ = _
  rw [irqGetPendingVector]
  cases c.irqPending.lookup (irqCmpPending c.state c.sleepMode) with
  | none =>
    left
    rfl
  | some irq =>
    right
    use irq
    rfl

omit [IoDevices δ] in
/-- An awake core selects the first pending interrupt. -/
theorem run_avrCoreIrqGetPending
    {c : AvrCore δ} {irq : IntVect} {irqs : List IntVect} (hstate : c.state ≠ .sleep)
    (hpending : c.irqPending.entries = irq :: irqs) :
  avrCoreIrqGetPending.run c = .ok (irq, c)
  := by
  have hlookup : c.irqPending.lookup (irqCmpPending c.state c.sleepMode) = some irq := by
    rw [UniqueList.lookup, hpending, List.find?_cons_of_pos]
    rw [irqCmpPending, if_neg hstate]
  change (irqGetPendingVector _ _ _).map _ = _
  rw [irqGetPendingVector, hlookup]
  rfl

/-- Without pending interrupts nothing happens. -/
theorem check_of_nil
    {c : AvrCore δ} (hpending : c.irqPending.entries = []) :
  avrCoreCheckInterrupts.run c = .ok ((), c)
  := by
  rw [avrCoreCheckInterrupts, Program.run_bind_of_ok (run_gets _ c), if_pos hpending]
  rfl

/-- An awake core services the first pending interrupt. -/
theorem check_of_cons
    {c : AvrCore δ} {irq : IntVect} {irqs : List IntVect} (hstate : c.state ≠ .sleep)
    (hpending : c.irqPending.entries = irq :: irqs) :
  avrCoreCheckInterrupts.run c = (takeInterrupt irq).run c
  := by
  rw [avrCoreCheckInterrupts, Program.run_bind_of_ok (run_gets _ c)]
  rw [if_neg (by rw [hpending]; simp)]
  rw [Program.run_bind_of_ok (run_avrCoreIrqGetPending hstate hpending)]

/-- The core after the reset that servicing `irq` starts with, if `irq` is RESET. -/
def AvrCore.resetFor (c : AvrCore δ) (irq : IntVect) : AvrCore δ :=
  if irq.addr = irqResetAddr then c.reset else c

/-- The reset that servicing an interrupt starts with leaves the layout. -/
theorem resetFor_layout
    (c : AvrCore δ) (irq : IntVect) :
  (c.resetFor irq).layout = c.layout
  := by
  rw [AvrCore.resetFor]
  split
  · apply (AvrCore.reset_spec c).layout
  · rfl

/-- Servicing a supported interrupt. -/
theorem run_takeInterrupt
    {irq : IntVect} (hname : irq.name ≠ none) (c : AvrCore δ) :
  (takeInterrupt irq).run c =
    if (c.resetFor irq).sregGetBit SREG.I then (vectorTo irq).run (c.resetFor irq)
    else .ok ((), c.resetFor irq)
  := by
  rw [takeInterrupt, Program.run_bind_of_ok (run_avrErrorIf_neg hname _ _ c)]
  rw [Program.run_bind_of_ok (run_update _ c)]
  rw [Program.run_bind_of_ok (run_avrCoreSregGetBit _ SREG.I)]
  rw [show (if irq.addr = irqResetAddr then c.reset else c) = c.resetFor irq from rfl]
  cases (c.resetFor irq).sregGetBit SREG.I <;> rfl

/-- A run that services an interrupt vectors to it or finds it masked. -/
theorem takeInterrupt_cases
    {irq : IntVect} {c c' : AvrCore δ} (h : (takeInterrupt irq).run c = .ok ((), c')) :
  irq.name ≠ none ∧
    ((c.resetFor irq).sregGetBit SREG.I = false ∧ c' = c.resetFor irq ∨
      (c.resetFor irq).sregGetBit SREG.I = true ∧
        (vectorTo irq).run (c.resetFor irq) = .ok ((), c'))
  := by
  by_cases hname : irq.name = none
  · have herror := run_avrErrorIf_pos hname "Raised an invalid irq for device" [] c
    rw [takeInterrupt, Program.run_bind_of_error herror] at h
    contradiction
  · refine ⟨hname, ?_⟩
    rw [run_takeInterrupt hname] at h
    cases hI : (c.resetFor irq).sregGetBit SREG.I with
    | false =>
      rw [hI] at h
      left
      cases h
      exact ⟨rfl, rfl⟩
    | true =>
      rw [hI] at h
      right
      exact ⟨rfl, h⟩

/-- The core that vectoring to `irq` leaves, when `c₁` is the core after its push. -/
def AvrCore.vectored (c₁ : AvrCore δ) (irq : IntVect) : AvrCore δ :=
  ((c₁.sregSetBit SREG.I false).pcSet (irq.addr + c₁.irqOffset)).irqClear irq

/-- Vectoring to an interrupt pushes the program counter. -/
theorem run_vectorTo
    (irq : IntVect) (c : AvrCore δ) :
  (vectorTo irq).run c = ((avrCoreStackPush c.pcSize (.ofInt 32 c.pc)).run c).map
    (fun r => ((), r.2.vectored irq))
  := by
  rw [vectorTo, Program.run_bind_of_ok (run_avrCorePCGet c)]
  rw [Program.run_bind_of_ok (run_avrCorePCSize c)]
  cases hpush : (avrCoreStackPush c.pcSize (.ofInt 32 c.pc)).run c with
  | error e => rw [Program.run_bind_of_error hpush]; rfl
  | ok r =>
    obtain ⟨_, c₁⟩ := r
    rw [Program.run_bind_of_ok hpush]
    rfl

/-- A run that vectors to an interrupt. -/
theorem vectorTo_eq_ok
    {irq : IntVect} {c c' : AvrCore δ} (h : (vectorTo irq).run c = .ok ((), c')) :
  ∃ c₁, (avrCoreStackPush c.pcSize (.ofInt 32 c.pc)).run c = .ok ((), c₁) ∧
    Frame False c c₁ ∧ c' = c₁.vectored irq
  := by
  rw [run_vectorTo] at h
  cases hpush : (avrCoreStackPush c.pcSize (.ofInt 32 c.pc)).run c with
  | error e =>
    rw [hpush] at h
    contradiction
  | ok r =>
    obtain ⟨_, c₁⟩ := r
    rw [hpush] at h
    cases h
    use c₁, rfl
    have huses : Uses ⟨fun _ => True, False, False, True⟩ False
        (avrCoreStackPush c.pcSize (.ofInt 32 c.pc) : CoreM δ Unit) :=
      avrCoreStackPush_uses (fun _ _ => trivial) (fun _ => trivial) _
    exact ⟨huses.frame hpush, rfl⟩

/-- A check without pending interrupts, or one that services an interrupt. -/
theorem check_cases
    {c c' : AvrCore δ} (h : avrCoreCheckInterrupts.run c = .ok ((), c')) :
  c' = c ∨ ∃ irq, (takeInterrupt irq).run c = .ok ((), c')
  := by
  rw [avrCoreCheckInterrupts, Program.run_bind_of_ok (run_gets _ c)] at h
  by_cases hpending : c.irqPending.entries = []
  · rw [if_pos hpending] at h
    cases h
    left
    rfl
  · rw [if_neg hpending] at h
    obtain ⟨irq, c₀, hget, htake⟩ := Program.run_bind_eq_ok.mp h
    right
    use irq
    change (irqGetPendingVector _ _ _).map _ = _ at hget
    cases hirq : irqGetPendingVector c.irqPending c.state c.sleepMode with
    | error e =>
      rw [hirq] at hget
      contradiction
    | ok irq' =>
      rw [hirq] at hget
      cases hget
      apply htake

/-- The pending interrupts after a check: those before it, without one of them, or none
after a reset. -/
theorem check_irqPending
    {c c' : AvrCore δ} (h : avrCoreCheckInterrupts.run c = .ok ((), c')) :
  c'.irqPending = c.irqPending ∨ (∃ k, c'.irqPending = c.irqPending.delete k) ∨
    c'.irqPending = .nil
  := by
  obtain rfl | ⟨irq, htake⟩ := check_cases h
  · left
    rfl
  · obtain ⟨-, hcases⟩ := takeInterrupt_cases htake
    have hfor : (c.resetFor irq).irqPending = c.irqPending ∨ (c.resetFor irq).irqPending = .nil
        := by
      rw [AvrCore.resetFor]
      split
      · right
        apply (AvrCore.reset_spec c).irqPending
      · left
        rfl
    obtain ⟨-, rfl⟩ | ⟨-, hvector⟩ := hcases
    · obtain hfor | hfor := hfor
      · left
        apply hfor
      · right
        right
        apply hfor
    · obtain ⟨c₁, -, hframe, rfl⟩ := vectorTo_eq_ok hvector
      have hdelete : (c₁.vectored irq).irqPending = (c.resetFor irq).irqPending.delete irq.addr
          := by
        rw [← hframe.irqPending]
        rfl
      rw [hdelete]
      obtain hfor | hfor := hfor
      · right
        left
        use irq.addr
        rw [hfor]
      · right
        right
        rw [hfor]
        rfl

/-- A check leaves the layout. -/
theorem check_layout
    {c c' : AvrCore δ} (h : avrCoreCheckInterrupts.run c = .ok ((), c')) :
  c'.layout = c.layout
  := by
  obtain rfl | ⟨irq, htake⟩ := check_cases h
  · rfl
  · obtain ⟨-, hcases⟩ := takeInterrupt_cases htake
    obtain ⟨-, rfl⟩ | ⟨-, hvector⟩ := hcases
    · apply resetFor_layout
    · obtain ⟨c₁, -, hframe, rfl⟩ := vectorTo_eq_ok hvector
      exact hframe.layout.trans (resetFor_layout c irq)

end

end SimulAvr
