import Mathlib.Data.Option.Basic

/-!
# A logic of machine programs

A machine takes its steps by a partial function on states.  An assertion leads to another one in a
number of steps where every state with the first gets, by that many steps, to a state with the
second.  The rules follow the parts of a program: one step, one part after the other, the cases of
a branch, a loop that counts down, and a call of a subroutine that is itself known by its
assertions.  A machine that simulates another one inherits what is proved of the other one.
-/

namespace MachineLogic

variable {σ τ : Type}

/-- `n` steps of a machine -/
def steps (next : σ → Option σ) : Nat → σ → Option σ
  | 0, s => some s
  | n + 1, s => next s >>= steps next n

/-- Every state with `P` gets by `n` steps to a state with `Q`. -/
def Leads (next : σ → Option σ) (n : Nat) (P Q : σ → Prop) : Prop :=
  ∀ s, P s → ∃ s', steps next n s = some s' ∧ Q s'

variable {next : σ → Option σ} {m n : Nat} {P P' Q Q' R : σ → Prop} {s s' t : σ}

/-- The steps after the first one -/
theorem steps_succ
    (h : next s = some s') :
  steps next (n + 1) s = steps next n s'
  := by
  rw [steps, h]
  rfl

/-- Steps after others -/
theorem steps_add
    (h : steps next m s = some s') :
  steps next (m + n) s = steps next n s'
  := by
  induction m generalizing s with
  | zero =>
    cases h
    rw [Nat.zero_add]
  | succ m ih =>
    rw [steps] at h
    obtain ⟨s₁, hs₁, hrest⟩ := Option.bind_eq_some_iff.mp h
    rw [Nat.succ_add, steps_succ hs₁]
    apply ih hrest

theorem steps_one
    (h : next s = some s') :
  steps next 1 s = some s'
  := steps_succ h

theorem steps_trans
    (h : steps next m s = some s') (h' : steps next n s' = some t) :
  steps next (m + n) s = some t
  := (steps_add h).trans h'

namespace Leads

/-- No step -/
theorem refl
    (P : σ → Prop) :
  Leads next 0 P P
  := fun s hs => ⟨s, rfl, hs⟩

/-- One step -/
theorem step
    (h : ∀ s, P s → ∃ s', next s = some s' ∧ Q s') :
  Leads next 1 P Q
  := by
  intro s hs
  obtain ⟨s', hnext, hQ⟩ := h s hs
  refine ⟨s', ?_, hQ⟩
  rw [steps_succ hnext]
  rfl

/-- One part of a program after the other -/
theorem trans
    (h : Leads next m P Q) (h' : Leads next n Q R) :
  Leads next (m + n) P R
  := by
  intro s hs
  obtain ⟨s₁, hsteps, hs₁⟩ := h s hs
  obtain ⟨s', hsteps', hs'⟩ := h' s₁ hs₁
  exact ⟨s', (steps_add hsteps).trans hsteps', hs'⟩

/-- The rule of consequence -/
theorem conseq
    (h : Leads next n P Q) (hP : ∀ s, P' s → P s) (hQ : ∀ s, Q s → Q' s) :
  Leads next n P' Q'
  := by
  intro s hs
  obtain ⟨s', hsteps, hs'⟩ := h s (hP s hs)
  exact ⟨s', hsteps, hQ s' hs'⟩

/-- The cases of a branch -/
theorem cases
    (h : Leads next n (fun s => P s ∧ R s) Q) (h' : Leads next n (fun s => P s ∧ ¬ R s) Q) :
  Leads next n P Q
  := by
  intro s hs
  by_cases hR : R s
  · exact h s ⟨hs, hR⟩
  · exact h' s ⟨hs, hR⟩

/-- A loop that counts down by rounds of the same length -/
theorem loop
    {I : Nat → σ → Prop} {cost : Nat} (h : ∀ k, Leads next cost (I (k + 1)) (I k)) (n : Nat) :
  Leads next (n * cost) (I n) (I 0)
  := by
  induction n with
  | zero =>
    rw [Nat.zero_mul]
    apply refl
  | succ n ih =>
    rw [Nat.succ_mul, Nat.add_comm]
    exact (h n).trans ih

end Leads

/-! ### Simulation -/

/-- Every step of the second machine is a step of the first one. -/
def Simulates (next : σ → Option σ) (next' : τ → Option τ) (R : σ → τ → Prop) : Prop :=
  ∀ s t t', R s t → next' t = some t' → ∃ s', next s = some s' ∧ R s' t'

namespace Simulates

variable {next' : τ → Option τ} {R : σ → τ → Prop}

/-- Any number of steps of the second machine are steps of the first one. -/
theorem steps
    (h : Simulates next next' R) {s : σ} {t t' : τ} (hst : R s t)
    (ht : MachineLogic.steps next' n t = some t') :
  ∃ s', MachineLogic.steps next n s = some s' ∧ R s' t'
  := by
  induction n generalizing s t with
  | zero =>
    cases ht
    exact ⟨s, rfl, hst⟩
  | succ n ih =>
    obtain ⟨t₁, hnext, hrest⟩ := Option.bind_eq_some_iff.mp ht
    obtain ⟨s₁, hs₁, hR⟩ := h s t t₁ hst hnext
    obtain ⟨s', hs', hR'⟩ := ih hR hrest
    refine ⟨s', ?_, hR'⟩
    rw [steps_succ hs₁]
    exact hs'

/-- What the second machine does the first one does. -/
theorem leads
    (h : Simulates next next' R) {P Q : τ → Prop} (hleads : Leads next' n P Q) :
  Leads next n (fun s => ∃ t, R s t ∧ P t) (fun s => ∃ t, R s t ∧ Q t)
  := by
  rintro s ⟨t, hst, hP⟩
  obtain ⟨t', hsteps, hQ⟩ := hleads t hP
  obtain ⟨s', hs', hR⟩ := h.steps hst hsteps
  exact ⟨s', hs', t', hR, hQ⟩

end Simulates

end MachineLogic
