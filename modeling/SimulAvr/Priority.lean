import SimulAvr.Device
import SimulAvr.System

/-!
# The order of the interrupts

Two properties of the runs of a core: the least pending vector is serviced, provided the
interrupts are raised in the order of their addresses (`interrupt_priority`), and a
pending reset is performed, provided it is raised before other interrupts are pending
(`reset_never_blocked`).
-/

namespace SimulAvr

open Transition

section

variable {δ : Type} [IoDevices δ]

/-! ### Priority -/

/-- The interrupt that is serviced has the least address of the pending ones. -/
def ServesLeast (c : AvrCore δ) : Prop :=
  ∃ irq ∈ c.irqPending.entries, (∀ irq' ∈ c.irqPending.entries, irq.addr ≤ irq'.addr) ∧
    avrCoreCheckInterrupts.run c = (takeInterrupt irq).run c

/-- An interrupt is raised in order when it is pending already, or its address is greater
than those of all pending ones. -/
def Event.InOrder (c : AvrCore δ) : Event → Prop
  | .irqRaise irq =>
    (∃ irq' ∈ c.irqPending.entries, irq'.addr = (c.irqVtable irq).addr) ∨
      ∀ irq' ∈ c.irqPending.entries, irq'.addr < (c.irqVtable irq).addr
  | _ => True

omit [IoDevices δ] in
/-- Raising an interrupt keeps the pending ones sorted exactly when it is raised in
order. -/
theorem irqRaise_sorted_iff
    {c : AvrCore δ} (h : c.irqPending.Sorted) (irq : Nat) :
  (c.irqRaise irq).irqPending.Sorted ↔ (Event.irqRaise irq).InOrder c
  := UniqueList.sorted_add_iff h _

/-- The steps whose events are in order keep the pending interrupts sorted. -/
theorem Step.sorted
    {c c' : AvrCore δ} {e : Event} (hstep : Step e c c') (horder : e.InOrder c)
    (h : c.irqPending.Sorted) :
  c'.irqPending.Sorted
  := by
  cases hstep with
  | irqRaise irq => exact (irqRaise_sorted_iff h irq).mpr horder
  | irqClear irq => exact h.delete _
  | reset =>
    rw [(AvrCore.reset_spec c).irqPending]
    apply UniqueList.sorted_nil
  | checkInterrupts hcheck =>
    obtain heq | ⟨k, heq⟩ | heq := check_irqPending hcheck
    · rw [heq]
      apply h
    · rw [heq]
      apply h.delete
    · rw [heq]
      apply UniqueList.sorted_nil
  | instruction hexec =>
    rw [(execNextInstruction_frame hexec).irqPending]
    apply h
  | pcSet val => apply h
  | other hquiet =>
    rw [hquiet.irqPending]
    apply h

/-- An awake core whose pending interrupts are sorted services the least. -/
theorem servesLeast_of_sorted
    {c : AvrCore δ} (h : c.irqPending.Sorted) (hstate : c.state ≠ .sleep)
    (hpending : c.irqPending.entries ≠ []) :
  ServesLeast c
  := by
  cases hentries : c.irqPending.entries with
  | nil => contradiction
  | cons irq irqs =>
    use irq, by rw [hentries]; apply List.mem_cons_self
    constructor
    · intro irq' hirq'
      apply h.head_le hentries hirq'
    · apply check_of_cons hstate hentries

/-- In a run from an empty list whose interrupts are raised in order, the pending
interrupts are sorted by address, and an awake core services the one with the least
address. -/
theorem interrupt_priority
    {c₀ c : AvrCore δ} (h₀ : c₀.irqPending = .nil)
    (hrun : CoreRun (fun c e => e.InOrder c) c₀ c) :
  c.irqPending.Sorted ∧
    (c.state ≠ .sleep → c.irqPending.entries ≠ [] → ServesLeast c)
  := by
  have hsorted : c.irqPending.Sorted := by
    apply hrun.invariant _ _
    · intro c e c' h horder hstep
      apply hstep.sorted horder h
    · rw [h₀]
      apply UniqueList.sorted_nil
  exact ⟨hsorted, servesLeast_of_sorted hsorted⟩

theorem interrupt_priority_inOrder :
  let c := ({ AvrCore.at90s2313 with sreg := 0x80 }.irqRaise 1).irqRaise 10
  c.irqPending.Sorted ∧ (c.state ≠ .sleep → c.irqPending.entries ≠ [] → ServesLeast c)
  := by
  intro c
  have hrun : CoreRun (fun c e => e.InOrder c) { AvrCore.at90s2313 with sreg := 0x80 } c := by
    apply irqRaise_irqRaise_run
    · right
      intro irq' hmem
      contradiction
    · right
      intro irq' hmem
      have hentries : ({ AvrCore.at90s2313 with sreg := 0x80 }.irqRaise 1).irqPending.entries
          = [vtabAt90s2313 1] := by decide +kernel
      rw [hentries, List.mem_singleton] at hmem
      rw [hmem]
      decide
  apply interrupt_priority rfl hrun

/-- A run of an awake core with interrupts enabled whose pending TIMER0_OVF is serviced
before INT0. -/
theorem interrupt_priority_fails :
  ¬ ∀ c₀ c : AvrCore Unit, c₀.irqPending = .nil → CoreRun Always c₀ c → c.state ≠ .sleep →
    c.sregGetBit SREG.I = true → c.irqPending.entries ≠ [] → ServesLeast c
  := by
  intro h
  let c : AvrCore Unit := ({ AvrCore.at90s2313 with sreg := 0x80 }.irqRaise 10).irqRaise 1
  have hentries : c.irqPending.entries = [vtabAt90s2313 10, vtabAt90s2313 1] := by
    decide +kernel
  obtain ⟨irq, hmem, hleast, hserves⟩ := h { AvrCore.at90s2313 with sreg := 0x80 } c rfl
    (irqRaise_irqRaise_run trivial trivial) (by decide) (by decide) (by rw [hentries]; simp)
  rw [check_of_cons (by decide) hentries] at hserves
  rw [hentries] at hmem hleast
  have hpc : ((takeInterrupt (vtabAt90s2313 10)).run c).toOption.map (fun r => r.2.pc) = some 6
      := by decide +kernel
  have hpc' : ((takeInterrupt (vtabAt90s2313 1)).run c).toOption.map (fun r => r.2.pc) = some 1
      := by decide +kernel
  obtain rfl | hmem := List.mem_cons.mp hmem
  · have hle := hleast (vtabAt90s2313 1) (by simp)
    contradiction
  · rw [List.mem_singleton] at hmem
    rw [hserves, hmem, hpc'] at hpc
    contradiction

/-! ### Resets -/

/-- A pending RESET is the first pending interrupt. -/
def ResetFirst (c : AvrCore δ) : Prop :=
  ∀ irq ∈ c.irqPending.entries, irq.addr = irqResetAddr →
    ∃ irqs, c.irqPending.entries = irq :: irqs

/-- RESET is raised only when no other interrupt is pending, or it is pending already. -/
def Event.ResetAlone (c : AvrCore δ) : Event → Prop
  | .irqRaise irq => (c.irqVtable irq).addr = irqResetAddr → c.irqPending.entries = [] ∨
      ∃ irq' ∈ c.irqPending.entries, irq'.addr = irqResetAddr
  | _ => True

omit [IoDevices δ] in
/-- Without pending interrupts there is no RESET that is not the first. -/
theorem resetFirst_of_nil
    {c : AvrCore δ} (h : c.irqPending = .nil) :
  ResetFirst c
  := by
  intro irq hmem
  rw [h] at hmem
  contradiction

omit [IoDevices δ] in
/-- Deleting pending interrupts keeps RESET the first. -/
theorem resetFirst_of_delete
    {c c' : AvrCore δ} {k : Int} (h : ResetFirst c)
    (hdelete : c'.irqPending = c.irqPending.delete k) :
  ResetFirst c'
  := by
  intro irq hmem haddr
  rw [hdelete, UniqueList.mem_delete_iff] at hmem
  obtain ⟨hmem, hk⟩ := hmem
  obtain ⟨irqs, hentries⟩ := h irq hmem haddr
  rw [hdelete, UniqueList.delete_entries, hentries, List.filter_cons_of_pos (by simpa using hk)]
  exact ⟨_, rfl⟩

/-- The steps that raise RESET alone keep it the first pending interrupt. -/
theorem Step.resetFirst
    {c c' : AvrCore δ} {e : Event} (hstep : Step e c c') (halone : e.ResetAlone c)
    (h : ResetFirst c) :
  ResetFirst c'
  := by
  cases hstep with
  | irqRaise irq =>
    intro irq' hmem haddr
    by_cases htaken : ∃ y ∈ c.irqPending.entries, y.addr = (c.irqVtable irq).addr
    · obtain ⟨y, hy, heq⟩ := htaken
      have hadd : (c.irqRaise irq).irqPending = c.irqPending := UniqueList.add_of_mem hy heq
      rw [hadd] at hmem ⊢
      apply h irq' hmem haddr
    · push Not at htaken
      have hadd : (c.irqRaise irq).irqPending.entries
          = c.irqPending.entries ++ [c.irqVtable irq] := UniqueList.add_entries_of_fresh htaken
      rw [hadd] at hmem ⊢
      rw [List.mem_append, List.mem_singleton] at hmem
      obtain hmem | rfl := hmem
      · obtain ⟨irqs, hentries⟩ := h irq' hmem haddr
        rw [hentries]
        exact ⟨_, rfl⟩
      · obtain hnil | ⟨y, hy, hreset⟩ := halone haddr
        · rw [hnil]
          exact ⟨[], rfl⟩
        · have hne := htaken y hy
          rw [haddr] at hne
          contradiction
  | irqClear irq => apply resetFirst_of_delete h rfl
  | reset =>
    apply resetFirst_of_nil
    apply (AvrCore.reset_spec c).irqPending
  | checkInterrupts hcheck =>
    obtain heq | ⟨k, heq⟩ | heq := check_irqPending hcheck
    · rw [ResetFirst, heq]
      apply h
    · apply resetFirst_of_delete h heq
    · apply resetFirst_of_nil heq
  | instruction hexec =>
    rw [ResetFirst, (execNextInstruction_frame hexec).irqPending]
    apply h
  | pcSet val => apply h
  | other hquiet =>
    rw [ResetFirst, hquiet.irqPending]
    apply h

/-- Servicing RESET is a reset, after which the interrupts are masked. -/
theorem takeInterrupt_reset
    {irq : IntVect} (hname : irq.name ≠ none) (haddr : irq.addr = irqResetAddr) {c : AvrCore δ}
    (hsreg : c.mem.SregAttached) :
  (takeInterrupt irq).run c = .ok ((), c.reset)
  := by
  have hfor : c.resetFor irq = c.reset := if_pos haddr
  have hI : c.reset.sregGetBit SREG.I = false := by
    rw [AvrCore.sregGetBit, (AvrCore.reset_spec c).sreg hsreg]
    rfl
  rw [run_takeInterrupt hname, hfor, hI]
  rfl

/-- A check of an awake core performs a pending reset exactly when RESET is the first
pending interrupt. -/
theorem check_reset_iff
    {irq : IntVect} {c : AvrCore δ} (hsreg : c.mem.SregAttached) (hstate : c.state ≠ .sleep)
    (hmem : irq ∈ c.irqPending.entries) (haddr : irq.addr = irqResetAddr)
    (hname : irq.name ≠ none) :
  avrCoreCheckInterrupts.run c = .ok ((), c.reset) ↔ ∃ irqs, c.irqPending.entries = irq :: irqs
  := by
  constructor
  · intro hcheck
    cases hentries : c.irqPending.entries with
    | nil =>
      rw [hentries] at hmem
      contradiction
    | cons irq' irqs =>
      rw [hentries, List.mem_cons] at hmem
      obtain rfl | hmem := hmem
      · exact ⟨irqs, rfl⟩
      · -- another interrupt is serviced, and RESET stays pending
        have hunique := c.irqPending.unique
        rw [hentries, List.pairwise_cons] at hunique
        have hne := hunique.1 irq hmem
        rw [haddr] at hne
        rw [check_of_cons hstate hentries] at hcheck
        obtain ⟨-, hcases⟩ := takeInterrupt_cases hcheck
        have hfor : c.resetFor irq' = c := if_neg hne
        rw [hfor] at hcases
        have hnil := (AvrCore.reset_spec c).irqPending
        obtain ⟨-, hreset⟩ | ⟨-, hvector⟩ := hcases
        · rw [hreset] at hnil
          rw [hnil] at hentries
          contradiction
        · obtain ⟨c₁, -, hframe, hreset⟩ := vectorTo_eq_ok hvector
          have hdelete : (c₁.vectored irq').irqPending = c.irqPending.delete irq'.addr := by
            rw [← hframe.irqPending]
            rfl
          rw [hreset, hdelete] at hnil
          have hleft : irq ∈ (c.irqPending.delete irq'.addr).entries := by
            rw [UniqueList.mem_delete_iff, hentries, haddr]
            exact ⟨List.mem_cons_of_mem _ hmem, hne.symm⟩
          rw [hnil] at hleft
          contradiction
  · rintro ⟨irqs, hentries⟩
    rw [check_of_cons hstate hentries]
    apply takeInterrupt_reset hname haddr hsreg

/-- In a run from an empty list that raises RESET alone, an awake core with RESET pending
is reset by the next check. -/
theorem reset_never_blocked
    {c₀ c : AvrCore δ} (h₀ : c₀.irqPending = .nil) (hsreg : c₀.mem.SregAttached)
    (hmax : 0 < c₀.pcMax) (hrun : CoreRun (fun c e => e.ResetAlone c) c₀ c) {irq : IntVect}
    (hmem : irq ∈ c.irqPending.entries) (haddr : irq.addr = irqResetAddr)
    (hname : irq.name ≠ none) (hstate : c.state ≠ .sleep) :
  avrCoreCheckInterrupts.run c = .ok ((), c.reset) ∧
    c.reset.pc = 0 ∧ c.reset.irqPending = .nil
  := by
  have hfirst : ResetFirst c := by
    apply hrun.invariant _ (resetFirst_of_nil h₀)
    intro c e c' h halone hstep
    apply hstep.resetFirst halone h
  have hmem₀ : c.mem = c₀.mem := congrArg Layout.mem hrun.layout
  have hmax₀ : c.pcMax = c₀.pcMax := congrArg Layout.pcMax hrun.layout
  refine ⟨?_, ?_, (AvrCore.reset_spec c).irqPending⟩
  · rw [check_reset_iff (hmem₀ ▸ hsreg) hstate hmem haddr hname]
    apply hfirst irq hmem haddr
  · rw [(AvrCore.reset_spec c).pc, hmax₀, AvrCore.adjustPCToMax]
    simp only [lt_irrefl, if_false, ge_iff_le, if_neg (not_le.mpr hmax)]

theorem at90s2313_sregAttached :
  AvrCore.at90s2313.mem.SregAttached
  := by
  use 0x5f
  decide +kernel

theorem reset_never_blocked_alone :
  let c := (AvrCore.at90s2313.irqRaise 0).irqRaise 10
  avrCoreCheckInterrupts.run c = .ok ((), c.reset) ∧
    c.reset.pc = 0 ∧ c.reset.irqPending = .nil
  := by
  intro c
  have hrun : CoreRun (fun c e => e.ResetAlone c) AvrCore.at90s2313 c := by
    apply irqRaise_irqRaise_run
    · intro _
      left
      rfl
    · intro haddr
      contradiction
  have hmem : vtabAt90s2313 0 ∈ c.irqPending.entries := by decide +kernel
  apply reset_never_blocked rfl at90s2313_sregAttached (by decide) hrun hmem <;> decide

/-- A run of an awake core with RESET pending that the masked TIMER0_OVF blocks. -/
theorem reset_never_blocked_fails :
  ¬ ∀ c₀ c : AvrCore Unit, c₀.irqPending = .nil → c₀.mem.SregAttached → 0 < c₀.pcMax →
    CoreRun Always c₀ c → ∀ irq ∈ c.irqPending.entries, irq.addr = irqResetAddr →
    irq.name ≠ none → c.state ≠ .sleep → avrCoreCheckInterrupts.run c = .ok ((), c.reset)
  := by
  intro h
  let c : AvrCore Unit := (AvrCore.at90s2313.irqRaise 10).irqRaise 0
  have hentries : c.irqPending.entries = [vtabAt90s2313 10, vtabAt90s2313 0] := by
    decide +kernel
  have hmem : vtabAt90s2313 0 ∈ c.irqPending.entries := by
    rw [hentries]
    simp
  have hcheck := h AvrCore.at90s2313 c rfl at90s2313_sregAttached (by decide)
    (irqRaise_irqRaise_run trivial trivial) _ hmem (by decide) (by decide) (by decide)
  rw [check_reset_iff (c := c) at90s2313_sregAttached (by decide) hmem (by decide) (by decide), hentries]
    at hcheck
  obtain ⟨irqs, hfirst⟩ := hcheck
  rw [List.cons.injEq] at hfirst
  have hne : vtabAt90s2313 10 ≠ vtabAt90s2313 0 := by decide +kernel
  exact hne hfirst.1

end

end SimulAvr
