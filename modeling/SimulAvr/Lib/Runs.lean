import Mathlib.Logic.Relation

/-!
# Runs of a transition system

A transition system is a relation `step e` on states for every event `e`.  A run under
a condition on events takes steps only by events that meet the condition in the state
they happen in; an invariant is proved of a run by proving it of one step
(`Run.invariant`).  A path lists the events of a run with the states they happen in; where a
step keeps an invariant exactly when its event meets a condition, the invariant holds all
along a path exactly when all its events meet the condition (`Path.invariant_iff`).
-/

namespace Transition

variable {σ ε : Type}

/-- The run from a state to another, each step of which is by an event that meets
`ok`. -/
def Run (step : ε → σ → σ → Prop) (ok : σ → ε → Prop) : σ → σ → Prop :=
  Relation.ReflTransGen (fun s t => ∃ e, ok s e ∧ step e s t)

/-- The condition that every event meets. -/
abbrev Always : σ → ε → Prop :=
  fun _ _ => True

namespace Run

variable {step : ε → σ → σ → Prop} {ok : σ → ε → Prop} {s t u : σ}

theorem refl
    (s : σ) :
  Run step ok s s
  := Relation.ReflTransGen.refl

/-- A run of one step. -/
theorem single
    {e : ε} (hok : ok s e) (hst : step e s t) :
  Run step ok s t
  := Relation.ReflTransGen.single ⟨e, hok, hst⟩

theorem trans
    (hst : Run step ok s t) (htu : Run step ok t u) :
  Run step ok s u
  := Relation.ReflTransGen.trans hst htu

/-- A run with one more step. -/
theorem tail
    (hst : Run step ok s t) {e : ε} (hok : ok t e) (htu : step e t u) :
  Run step ok s u
  := Relation.ReflTransGen.tail hst ⟨e, hok, htu⟩

/-- What every step under the condition preserves holds at the end of every run under
the condition. -/
theorem invariant
    {I : σ → Prop} (hstep : ∀ s e t, I s → ok s e → step e s t → I t)
    (hst : Run step ok s t) (hs : I s) :
  I t
  := by
  induction hst with
  | refl => apply hs
  | tail _ hlast ih =>
    obtain ⟨e, hok, hstep'⟩ := hlast
    apply hstep _ e _ ih hok hstep'

end Run

/-- The path from a state to another that takes events, each in the state it is listed with. -/
inductive Path (step : ε → σ → σ → Prop) : σ → List (σ × ε) → σ → Prop
  | nil (s : σ) : Path step s [] s
  | cons {s t u : σ} {e : ε} {taken : List (σ × ε)} (hst : step e s t)
      (h : Path step t taken u) : Path step s ((s, e) :: taken) u

namespace Path

variable {step : ε → σ → σ → Prop} {I J : σ → Prop} {ok : σ → ε → Prop} {s u : σ}
  {taken : List (σ × ε)} {α : Type}

/-- What holds in all states of a path holds in the first one. -/
theorem first
    (h : Path step s taken u) (hI : (∀ p ∈ taken, I p.1) ∧ I u) :
  I s
  := by
  cases h with
  | nil => apply hI.2
  | cons => apply hI.1 _ List.mem_cons_self

/-- The events of a path are taken. -/
theorem exists_step
    (h : Path step s taken u) :
  ∀ p ∈ taken, ∃ t, step p.2 p.1 t
  := by
  induction h with
  | nil => nofun
  | cons hst _ ih =>
    rw [List.forall_mem_cons]
    exact ⟨⟨_, hst⟩, ih⟩

/-- The event of a path that comes after others -/
theorem of_append_cons
    {before after : List (σ × ε)} {t : σ} {e : ε} (h : Path step s (before ++ (t, e) :: after) u) :
  ∃ v, Path step s before t ∧ step e t v ∧ Path step v after u
  := by
  induction before generalizing s with
  | nil =>
    cases h with
    | cons hst h => exact ⟨_, .nil _, hst, h⟩
  | cons _ before ih =>
    cases h with
    | cons hst h =>
      obtain ⟨v, hbefore, hstep, hafter⟩ := ih h
      exact ⟨v, hbefore.cons hst, hstep, hafter⟩

/-- A path of one step -/
theorem single
    {e : ε} (hst : step e s u) :
  Path step s [(s, e)] u
  := .cons hst (.nil u)

/-- A path after another -/
theorem append
    {after : List (σ × ε)} {v : σ} (h : Path step s taken u) (h' : Path step u after v) :
  Path step s (taken ++ after) v
  := by
  induction h with
  | nil => exact h'
  | cons hst _ ih => exact (ih h').cons hst

/-- What the events of a path add to a log is what the log has more. -/
theorem log_eq
    {ω : Type} {log : σ → List ω} {adds : ε → Option ω}
    (hstep : ∀ s e t, step e s t → log t = log s ++ (adds e).toList) (h : Path step s taken u) :
  log u = log s ++ taken.filterMap fun p => adds p.2
  := by
  induction h with
  | nil => rw [List.filterMap_nil, List.append_nil]
  | @cons s t u e taken hst _ ih =>
    rw [ih, hstep s e t hst, List.append_assoc]
    congr 1
    rw [List.filterMap_cons]
    cases adds e <;> rfl

/-- An invariant of the events so far and the state that a step keeps -/
theorem invariant_history
    {H : List (σ × ε) → σ → Prop} (h : Path step s taken u) (hok : ∀ p ∈ taken, ok p.1 p.2)
    (hstep : ∀ hist s e t, H hist s → ok s e → step e s t → H (hist ++ [(s, e)]) t)
    {hist : List (σ × ε)} (hs : H hist s) :
  H (hist ++ taken) u
  := by
  induction h generalizing hist with
  | nil =>
    rw [List.append_nil]
    apply hs
  | @cons s t u e taken hst _ ih =>
    rw [List.forall_mem_cons] at hok
    have ht := ih hok.2 (hstep hist s e t hs hok.1 hst)
    rw [List.append_assoc] at ht
    apply ht

/-- An invariant that a step keeps exactly under a condition, and an invariant `J` that helps. -/
theorem invariant_iff
    (hJ : ∀ s e t, J s → step e s t → J t)
    (hexact : ∀ s e t, J s → I s → step e s t → (I t ↔ ok s e))
    (h : Path step s taken u) (hJs : J s) (hs : I s) :
  ((∀ p ∈ taken, I p.1) ∧ I u) ↔ ∀ p ∈ taken, ok p.1 p.2
  := by
  induction h with
  | nil =>
    constructor
    · nofun
    · intro _
      exact ⟨nofun, hs⟩
  | cons hst hpath ih =>
    have hJt := hJ _ _ _ hJs hst
    have hiff := hexact _ _ _ hJs hs hst
    rw [List.forall_mem_cons, List.forall_mem_cons]
    constructor
    · rintro ⟨⟨-, htaken⟩, hu⟩
      have ht := hpath.first ⟨htaken, hu⟩
      exact ⟨hiff.mp ht, (ih hJt ht).mp ⟨htaken, hu⟩⟩
    · rintro ⟨hok, htaken⟩
      have ht := hiff.mpr hok
      obtain ⟨hI, hu⟩ := (ih hJt ht).mpr htaken
      exact ⟨⟨hs, hI⟩, hu⟩

/-- The last of the values that the events of a path give, after a value from before them -/
def lastGiven (given : σ → ε → Option α) (taken : List (σ × ε)) (init : α) : α :=
  taken.foldl (fun val p => (given p.1 p.2).getD val) init

/-- What every step sets to the value that its event gives, if any, is the last value given. -/
theorem eq_lastGiven
    {get : σ → α} {given : σ → ε → Option α}
    (hstep : ∀ s e t, step e s t → get t = (given s e).getD (get s)) (h : Path step s taken u) :
  get u = lastGiven given taken (get s)
  := by
  induction h with
  | nil => rfl
  | cons hst _ ih =>
    rw [ih, hstep _ _ _ hst]
    rfl

end Path

/-- Take the steps that `next` gives for the events of a list, as long as they meet `check`. -/
def exec (next : ε → σ → Option σ) (check : σ → ε → Bool) : List ε → σ → Option σ
  | [], s => some s
  | e :: es, s =>
    if check s e then (next e s).bind (exec next check es) else none

/-- The events of a path of steps that are taken one after the other -/
theorem exec_path_events
    {next : ε → σ → Option σ} {check : σ → ε → Bool} {step : ε → σ → σ → Prop}
    (hnext : ∀ e s t, next e s = some t → step e s t) {es : List ε} {s t : σ}
    (h : exec next check es s = some t) :
  ∃ taken, Path step s taken t ∧ taken.map Prod.snd = es ∧ ∀ p ∈ taken, check p.1 p.2 = true
  := by
  induction es generalizing s with
  | nil =>
    cases h
    exact ⟨[], Path.nil _, rfl, nofun⟩
  | cons e es ih =>
    rw [exec] at h
    split at h
    · next hok =>
      obtain ⟨s₁, hs₁, hrest⟩ := Option.bind_eq_some_iff.mp h
      obtain ⟨taken, hpath, hevents, hcheck⟩ := ih hrest
      use (s, e) :: taken, Path.cons (hnext e s s₁ hs₁) hpath
      rw [List.map_cons, hevents, List.forall_mem_cons]
      exact ⟨rfl, hok, hcheck⟩
    · contradiction

/-- Steps that are taken one after the other are a path. -/
theorem exec_path
    {next : ε → σ → Option σ} {check : σ → ε → Bool} {step : ε → σ → σ → Prop}
    (hnext : ∀ e s t, next e s = some t → step e s t) {es : List ε} {s t : σ}
    (h : exec next check es s = some t) :
  ∃ taken, Path step s taken t ∧ ∀ p ∈ taken, check p.1 p.2 = true
  := by
  obtain ⟨taken, hpath, -, hcheck⟩ := exec_path_events hnext h
  exact ⟨taken, hpath, hcheck⟩

/-- Steps that are taken one after the other are a run. -/
theorem exec_run
    {next : ε → σ → Option σ} {check : σ → ε → Bool} {step : ε → σ → σ → Prop}
    {ok : σ → ε → Prop} (hnext : ∀ e s t, next e s = some t → step e s t)
    (hcheck : ∀ s e, check s e = true → ok s e) {es : List ε} {s t : σ}
    (h : exec next check es s = some t) :
  Run step ok s t
  := by
  induction es generalizing s with
  | nil =>
    cases h
    apply Run.refl
  | cons e es ih =>
    rw [exec] at h
    split at h
    · next hok =>
      obtain ⟨s₁, hs₁, hrest⟩ := Option.bind_eq_some_iff.mp h
      apply Run.trans (Run.single (hcheck s e hok) (hnext e s s₁ hs₁)) (ih hrest)
    · contradiction

end Transition
