import Mathlib.Logic.Function.Iterate
import SimulAvr.Lib.Program

/-!
# Lists of callbacks

A pass over a list of callbacks runs them in order and drops those that ask for it.  A pass
keeps what its callbacks keep (`pass_keeps`), also each time it runs one (`visits_keeps`), emits
what they emit (`pass_emits`), keeps the balance of what they emit and consume (`pass_balance`),
and establishes what one of them establishes (`pass_establishes`); of a callback that the list
has once, among others that leave what it works on, a pass is one run (`pass_once`).
-/

namespace CallbackList

open Program

variable {σ ε κ ω : Type}

/-- A pass over a list of callbacks, each of which says whether it is to be removed, and emits
events: the callbacks that stay, and the events -/
def pass (execute : κ → Program σ ε (Bool × List ω)) : List κ → Program σ ε (List κ × List ω)
  | [] => return ([], [])
  | f :: fs => do
    let r ← execute f
    let rest ← pass execute fs
    return (if r.1 then rest.1 else f :: rest.1, r.2 ++ rest.2)

/-- The callbacks that a pass runs, each with the state in which it runs -/
def visits (execute : κ → Program σ ε (Bool × List ω)) : List κ → σ → List (κ × σ)
  | [], _ => []
  | f :: fs, s =>
    (f, s) :: match (execute f).run s with
      | .ok (_, t) => visits execute fs t
      | .error _ => []

variable {execute : κ → Program σ ε (Bool × List ω)} {E : ε → Prop}

/-- A pass runs the callbacks of its list in order. -/
theorem visits_sublist
    (fs : List κ) (s : σ) :
  ((visits execute fs s).map Prod.fst).Sublist fs
  := by
  induction fs generalizing s with
  | nil => apply List.Sublist.refl
  | cons f fs ih =>
    rw [visits, List.map_cons]
    apply List.Sublist.cons_cons
    cases (execute f).run s with
    | error e => apply List.nil_sublist
    | ok r => apply ih

/-- What every callback of a list keeps holds whenever a pass runs one. -/
theorem visits_keeps
    {I : σ → Prop} {fs : List κ} (h : ∀ f ∈ fs, Keeps I E (execute f)) {s : σ} (hs : I s) :
  ∀ v ∈ visits execute fs s, I v.2
  := by
  induction fs generalizing s with
  | nil => exact List.forall_mem_nil _
  | cons f fs ih =>
    rw [List.forall_mem_cons] at h
    rw [visits, List.forall_mem_cons]
    use hs
    cases hrun : (execute f).run s with
    | error e => exact List.forall_mem_nil _
    | ok r => apply ih h.2 (h.1.of_ok hs hrun)

/-- An event of a pass is one of a callback that it runs. -/
theorem pass_emits
    {fs : List κ} {s t : σ} {r : List κ × List ω} (h : (pass execute fs).run s = .ok (r, t)) :
  ∀ event ∈ r.2, ∃ v ∈ visits execute fs s, ∃ r' u,
    (execute v.1).run v.2 = .ok (r', u) ∧ event ∈ r'.2
  := by
  induction fs generalizing s r with
  | nil =>
    cases h
    exact List.forall_mem_nil _
  | cons f fs ih =>
    rw [pass, run_bind_eq_ok] at h
    obtain ⟨r₁, s₁, hrun, h⟩ := h
    rw [run_bind_eq_ok] at h
    obtain ⟨rest, s₂, hrest, h⟩ := h
    cases h
    intro event hmem
    rw [visits, hrun]
    rcases List.mem_append.mp hmem with hmem | hmem
    · exact ⟨(f, s), List.mem_cons_self, r₁, s₁, hrun, hmem⟩
    · obtain ⟨v, hv, hevent⟩ := ih hrest event hmem
      exact ⟨v, List.mem_cons_of_mem _ hv, hevent⟩

/-- A pass keeps what every callback of its list keeps, and drops callbacks only. -/
theorem pass_keeps
    {I : σ → Prop} {fs : List κ} (h : ∀ f ∈ fs, Keeps I E (execute f)) :
  Triple I (pass execute fs) (fun r s => I s ∧ r.1.Sublist fs) E
  := by
  induction fs with
  | nil => exact Triple.pure fun _ hs => ⟨hs, .slnil⟩
  | cons f fs ih =>
    rw [List.forall_mem_cons] at h
    apply Triple.bind h.1
    rintro ⟨removed, events⟩
    apply Triple.bind (ih h.2)
    intro rest
    apply Triple.pure
    rintro s ⟨hs, hrest⟩
    cases removed with
    | true => exact ⟨hs, hrest.cons f⟩
    | false => exact ⟨hs, hrest.cons_cons f⟩

/-- The events of a pass and a quantity of the state stay in balance where those of every callback
do. -/
theorem pass_balance
    {I : σ → Prop} {emits : ω → Bool} {quantity : σ → Nat} {fs : List κ}
    (h : ∀ n, ∀ f ∈ fs, Triple (fun s => I s ∧ quantity s = n) (execute f)
      (fun r s => I s ∧ r.2.countP emits + quantity s = n) E) (n : Nat) :
  Triple (fun s => I s ∧ quantity s = n) (pass execute fs)
    (fun r s => I s ∧ r.2.countP emits + quantity s = n) E
  := by
  induction fs generalizing n with
  | nil => exact Triple.pure fun _ ⟨hs, hn⟩ => ⟨hs, (Nat.zero_add _).trans hn⟩
  | cons f fs ih =>
    apply Triple.bind (h n f (.head fs))
    rintro ⟨removed, events⟩
    -- what is left of the quantity is the balance of the callbacks that follow
    apply Triple.bind (Q := fun rest s => I s ∧ events.countP emits + (rest.2.countP emits + quantity s) = n)
    · rintro s ⟨hs, hn⟩
      have hrest := ih (fun m g hg => h m g (.tail f hg)) (quantity s) s ⟨hs, rfl⟩
      cases hrun : (pass execute fs).run s with
      | error e =>
        rw [hrun] at hrest
        exact hrest
      | ok r =>
        rw [hrun] at hrest
        obtain ⟨hr, hm⟩ := hrest
        use hr
        rw [hm]
        exact hn
    · intro rest
      apply Triple.pure
      rintro s ⟨hs, hn⟩
      use hs
      rw [List.countP_append, Nat.add_assoc]
      exact hn

/-- A pass establishes what one of the callbacks of its list establishes and all of them keep, and
keeps this callback. -/
theorem pass_establishes
    {I R : σ → Prop} {f : κ} {fs : List κ} (hmem : f ∈ fs)
    (hkeeps : ∀ g ∈ fs, Keeps I E (execute g)) (hstays : ∀ g ∈ fs, Keeps (fun s => I s ∧ R s) E (execute g))
    (hf : Triple I (execute f) (fun r s => r.1 = false ∧ I s ∧ R s) E) :
  Triple I (pass execute fs) (fun r s => (I s ∧ R s) ∧ f ∈ r.1) E
  := by
  induction fs with
  | nil => contradiction
  | cons g fs ih =>
    rw [List.forall_mem_cons] at hkeeps hstays
    rcases List.mem_cons.mp hmem with rfl | hmem
    · apply Triple.bind hf
      rintro ⟨removed, events⟩
      apply Triple.bind (Q := fun _ s => removed = false ∧ I s ∧ R s)
      · exact Triple.fact fun _ => (pass_keeps hstays.2).conseq (fun _ hs => hs)
          (fun _ _ hs => hs.1) fun _ he => he
      · intro rest
        apply Triple.pure
        rintro s ⟨rfl, hs⟩
        exact ⟨hs, List.mem_cons_self⟩
    · apply Triple.bind hkeeps.1
      rintro ⟨removed, events⟩
      apply Triple.bind (ih hmem hkeeps.2 hstays.2)
      intro rest
      apply Triple.pure
      rintro s ⟨hs, hrest⟩
      use hs
      cases removed with
      | true => exact hrest
      | false => exact List.mem_cons_of_mem g hrest

variable [DecidableEq κ] {f : κ} {fs : List κ}

/-- Callbacks that are not `f` -/
theorem pass_others
    {I : σ → Prop} (hothers : ∀ g ∈ fs, g ≠ f → Keeps I E (execute g)) (hcount : fs.count f = 0) :
  Triple I (pass execute fs) (fun r s => I s ∧ r.1.count f = 0) E
  := by
  have hne : ∀ g ∈ fs, g ≠ f := by
    rintro g hg rfl
    apply List.count_eq_zero.mp hcount hg
  apply (pass_keeps fun g hg => hothers g hg (hne g hg)).conseq
  · exact fun _ hs => hs
  · rintro r s ⟨hs, hsub⟩
    use hs
    have := hsub.count_le f
    omega
  · exact fun _ he => he

/-- A pass over a list that has `f` once, among callbacks that keep what `f` starts from and
what it leaves -/
theorem pass_once
    {P : σ → Prop} {Q : Bool → σ → Prop} (hbefore : ∀ g ∈ fs, g ≠ f → Keeps P E (execute g))
    (hafter : ∀ b, ∀ g ∈ fs, g ≠ f → Keeps (Q b) E (execute g))
    (hf : Triple P (execute f) (fun r => Q r.1) E) (hcount : fs.count f = 1) :
  Triple P (pass execute fs) (fun r s => Q (decide (r.1.count f = 0)) s ∧ r.1.count f ≤ 1) E
  := by
  induction fs with
  | nil => contradiction
  | cons g fs ih =>
    by_cases hg : g = f
    · subst hg
      rw [List.count_cons_self] at hcount
      apply Triple.bind hf
      rintro ⟨removed, events⟩
      apply Triple.bind (pass_others (fun g' hmem => hafter removed g' (.tail g hmem)) (by omega))
      intro rest
      apply Triple.pure
      rintro s ⟨hs, hrest⟩
      cases removed with
      | true =>
        change Q (decide (rest.1.count g = 0)) s ∧ rest.1.count g ≤ 1
        rw [hrest]
        exact ⟨hs, Nat.zero_le 1⟩
      | false =>
        change Q (decide ((g :: rest.1).count g = 0)) s ∧ (g :: rest.1).count g ≤ 1
        rw [List.count_cons_self, hrest]
        exact ⟨hs, Nat.le_refl 1⟩
    · rw [List.count_cons_of_ne hg] at hcount
      apply Triple.bind (hbefore g (.head fs) hg)
      rintro ⟨removed, events⟩
      apply Triple.bind (ih (fun g' hmem => hbefore g' (.tail g hmem))
        (fun b g' hmem => hafter b g' (.tail g hmem)) hcount)
      intro rest
      apply Triple.pure
      rintro s ⟨hs, hrest⟩
      cases removed with
      | true => exact ⟨hs, hrest⟩
      | false =>
        change Q (decide ((g :: rest.1).count f = 0)) s ∧ (g :: rest.1).count f ≤ 1
        rw [List.count_cons_of_ne hg]
        exact ⟨hs, hrest⟩

/-- A pass over a list that has `f` once, among callbacks that leave a part, does to the part
what `f` does to it. -/
theorem pass_once_part
    {β : Type} {part : σ → β} {b b' : β} {removed : Bool}
    (hothers : ∀ c, ∀ g ∈ fs, g ≠ f → Keeps (fun s => part s = c) E (execute g))
    (hf : Triple (fun s => part s = b) (execute f) (fun r s => r.1 = removed ∧ part s = b') E)
    (hcount : fs.count f = 1) :
  Triple (fun s => part s = b) (pass execute fs)
    (fun r s => part s = b' ∧ r.1.count f = if removed then 0 else 1) E
  := by
  apply (pass_once (Q := fun c s => c = removed ∧ part s = b') (hothers b) _ hf hcount).conseq
  · exact fun _ hs => hs
  · rintro r s ⟨⟨hr, hs⟩, hle⟩
    use hs
    cases removed with
    | true => exact of_decide_eq_true hr
    | false =>
      have hne : r.1.count f ≠ 0 := of_decide_eq_false hr
      change r.1.count f = 1
      omega
  · exact fun _ he => he
  · exact fun c g hmem hg => Triple.fact fun _ => hothers b' g hmem hg

/-- A pass does to a part what `f` does to it, as often as the list has `f`, among callbacks that
leave the part. -/
theorem pass_iterate
    {β : Type} {I : σ → Prop} {part : σ → β} {step : β → β}
    (hothers : ∀ b, ∀ g ∈ fs, g ≠ f → Keeps (fun s => I s ∧ part s = b) E (execute g))
    (hf : ∀ b, Triple (fun s => I s ∧ part s = b) (execute f) (fun _ s => I s ∧ part s = step b) E)
    (b : β) :
  Triple (fun s => I s ∧ part s = b) (pass execute fs)
    (fun _ s => I s ∧ part s = step^[fs.count f] b) E
  := by
  induction fs generalizing b with
  | nil => exact Triple.pure fun _ hs => hs
  | cons g fs ih =>
    have ih := ih fun b g' hmem => hothers b g' (.tail g hmem)
    by_cases hg : g = f
    · subst hg
      rw [List.count_cons_self]
      apply Triple.bind (hf b)
      intro r
      apply Triple.bind (ih (step b))
      exact fun _ => Triple.pure fun _ hs => hs
    · rw [List.count_cons_of_ne hg]
      apply Triple.bind (hothers b g (.head fs) hg)
      intro r
      apply Triple.bind (ih b)
      exact fun _ => Triple.pure fun _ hs => hs

end CallbackList
