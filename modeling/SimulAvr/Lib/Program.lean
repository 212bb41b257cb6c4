import Mathlib.Algebra.Ring.Int.Defs
import Mathlib.Algebra.Ring.Nat
import Mathlib.Tactic.Common

/-!
# Programs over a state

A program of type `Program σ ε α` changes a state of type `σ` and returns a value of
type `α`, or aborts with an error of type `ε`.  The module provides the triples
`Triple P x Q E`, the two-run statement `Coupled P x y Q`, and the class `Built A` of
the programs made from a set `A` of actions by sequencing; a property of a state, of
two states or of the errors that every action of `A` respects is respected by every
program built from `A` (`Built.keeps`, `Built.respects`), and where such a program aborts,
an action of `A` does (`Built.error_reached`).  `Returns x s Q` says that a run does not abort.
-/

/-- A program changes a state of type `σ`, and returns a value of type `α` or aborts
with an error of type `ε`. -/
abbrev Program (σ ε α : Type) : Type :=
  StateT σ (Except ε) α

namespace Program

variable {σ ε α β : Type}

/-! ### Runs -/

@[simp]
theorem run_pure
    (a : α) (s : σ) :
  (pure a : Program σ ε α).run s = .ok (a, s)
  := rfl

@[simp]
theorem run_throw
    (e : ε) (s : σ) :
  (throw e : Program σ ε α).run s = .error e
  := rfl

@[simp]
theorem run_modify
    (f : σ → σ) (s : σ) :
  (modify f : Program σ ε PUnit).run s = .ok (⟨⟩, f s)
  := rfl

@[simp]
theorem run_get
    (s : σ) :
  (get : Program σ ε σ).run s = .ok (s, s)
  := rfl

@[simp]
theorem ok_bind
    (a : α) (f : α → Except ε β) :
  (Except.ok a >>= f) = f a
  := rfl

@[simp]
theorem error_bind
    (e : ε) (f : α → Except ε β) :
  (Except.error e >>= f) = .error e
  := rfl

/-- `x >>= f` returns exactly when `x` returns and `f` returns after it. -/
theorem bind_eq_ok
    {x : Except ε α} {f : α → Except ε β} {b : β} :
  x >>= f = .ok b ↔ ∃ a, x = .ok a ∧ f a = .ok b
  := by
  cases x with
  | error e =>
    rw [error_bind]
    constructor
    · nofun
    · rintro ⟨a, h, -⟩
      contradiction
  | ok a =>
    rw [ok_bind]
    constructor
    · intro h
      use a
    · rintro ⟨a', h, hf⟩
      cases h
      apply hf

/-- A run of `x >>= f` whose first part returns goes on with `f`. -/
theorem run_bind_of_ok
    {x : Program σ ε α} {f : α → Program σ ε β} {s s' : σ} {a : α}
    (h : x.run s = .ok (a, s')) :
  (x >>= f).run s = (f a).run s'
  := by
  rw [StateT.run_bind, h]
  rfl

/-- A run of `x >>= f` whose first part aborts is aborted. -/
theorem run_bind_of_error
    {x : Program σ ε α} {f : α → Program σ ε β} {s : σ} {e : ε}
    (h : x.run s = .error e) :
  (x >>= f).run s = .error e
  := by
  rw [StateT.run_bind, h]
  rfl

/-- A run of `x >>= f` returns exactly when `x` returns and `f` returns after it. -/
theorem run_bind_eq_ok
    {x : Program σ ε α} {f : α → Program σ ε β} {s t : σ} {b : β} :
  (x >>= f).run s = .ok (b, t)
    ↔ ∃ a s', x.run s = .ok (a, s') ∧ (f a).run s' = .ok (b, t)
  := by
  cases h : x.run s with
  | error e =>
    rw [run_bind_of_error h]
    simp
  | ok r =>
    obtain ⟨a, s'⟩ := r
    rw [run_bind_of_ok h]
    constructor
    · intro hf
      use a, s'
    · rintro ⟨_, _, heq, hf⟩
      cases heq
      apply hf

/-! ### Triples -/

/-- Every run of `x` from a state with `P` returns a value and a state with `Q`, or
aborts with an error that satisfies `E`. -/
def Triple (P : σ → Prop) (x : Program σ ε α) (Q : α → σ → Prop) (E : ε → Prop) : Prop :=
  ∀ s, P s → match x.run s with
    | .ok (a, s') => Q a s'
    | .error e => E e

namespace Triple

variable {P : σ → Prop} {Q : α → σ → Prop} {R : β → σ → Prop} {E : ε → Prop}

theorem pure
    {a : α} (h : ∀ s, P s → Q a s) :
  Triple P (pure a : Program σ ε α) Q E
  := h

theorem throw
    {e : ε} (h : E e) :
  Triple P (throw e : Program σ ε α) Q E
  := fun _ _ => h

theorem bind
    {x : Program σ ε α} {f : α → Program σ ε β}
    (hx : Triple P x Q E) (hf : ∀ a, Triple (Q a) (f a) R E) :
  Triple P (x >>= f) R E
  := by
  intro s hs
  have hxs := hx s hs
  cases h : x.run s with
  | error e =>
    rw [run_bind_of_error h]
    rw [h] at hxs
    apply hxs
  | ok r =>
    obtain ⟨a, s'⟩ := r
    rw [run_bind_of_ok h]
    rw [h] at hxs
    apply hf a s' hxs

theorem ite
    {c : Prop} [Decidable c] {x y : Program σ ε α}
    (hx : c → Triple P x Q E) (hy : ¬ c → Triple P y Q E) :
  Triple P (if c then x else y) Q E
  := by
  split
  · apply hx
    assumption
  · apply hy
    assumption

/-- Every program does something. -/
theorem anything
    {x : Program σ ε α} :
  Triple P x (fun _ _ => True) (fun _ => True)
  := by
  intro s _
  cases x.run s <;> trivial

/-- The rule of consequence. -/
theorem conseq
    {P' : σ → Prop} {Q' : α → σ → Prop} {E' : ε → Prop} {x : Program σ ε α}
    (h : Triple P x Q E) (hP : ∀ s, P' s → P s) (hQ : ∀ a s, Q a s → Q' a s)
    (hE : ∀ e, E e → E' e) :
  Triple P' x Q' E'
  := by
  intro s hs
  have hxs := h s (hP s hs)
  cases hr : x.run s with
  | error e =>
    rw [hr] at hxs
    apply hE e hxs
  | ok r =>
    rw [hr] at hxs
    apply hQ _ _ hxs

/-- A fact that does not depend on the state -/
theorem fact
    {c : Prop} {x : Program σ ε α} (h : c → Triple P x Q E) :
  Triple (fun s => c ∧ P s) x (fun a s => c ∧ Q a s) E
  := by
  rintro s ⟨hc, hs⟩
  exact (h hc).conseq (fun _ h => h) (fun _ _ h => ⟨hc, h⟩) (fun _ h => h) s hs

/-- A program with two triples has both. -/
theorem and
    {P' : σ → Prop} {Q' : α → σ → Prop} {x : Program σ ε α} (h : Triple P x Q E)
    (h' : Triple P' x Q' E) :
  Triple (fun s => P s ∧ P' s) x (fun a s => Q a s ∧ Q' a s) E
  := by
  rintro s ⟨hs, hs'⟩
  have hxs := h s hs
  have hxs' := h' s hs'
  cases hr : x.run s with
  | error e =>
    rw [hr] at hxs
    exact hxs
  | ok r =>
    rw [hr] at hxs hxs'
    exact ⟨hxs, hxs'⟩

/-- A run that returns ends in the postcondition. -/
theorem of_ok
    {x : Program σ ε α} (h : Triple P x Q E) {s s' : σ} {a : α}
    (hs : P s) (hr : x.run s = .ok (a, s')) :
  Q a s'
  := by
  have hxs := h s hs
  rw [hr] at hxs
  apply hxs

/-- A run that aborts has an admitted error. -/
theorem of_error
    {x : Program σ ε α} (h : Triple P x Q E) {s : σ} {e : ε}
    (hs : P s) (hr : x.run s = .error e) :
  E e
  := by
  have hxs := h s hs
  rw [hr] at hxs
  apply hxs

end Triple

/-- `x` keeps `I` and aborts with errors in `E` only. -/
abbrev Keeps (I : σ → Prop) (E : ε → Prop) (x : Program σ ε α) : Prop :=
  Triple I x (fun _ => I) E

/-! ### Loops -/

/-- The loop over the counters `i, i + 1, …`, of which `n` are left, whose body changes a
value of type `α`. -/
def loop (body : Int → α → Program σ ε α) : Int → Nat → α → Program σ ε α
  | _, 0, a => pure a
  | i, n + 1, a => body i a >>= loop body (i + 1) n

/-- A loop keeps what its body keeps. -/
theorem Keeps.loop
    {I : σ → Prop} {E : ε → Prop} {body : Int → α → Program σ ε α}
    (hbody : ∀ i a, Keeps I E (body i a)) (i : Int) (n : Nat) (a : α) :
  Keeps I E (loop body i n a)
  := by
  induction n generalizing i a with
  | zero => exact Triple.pure fun _ h => h
  | succ n ih => exact Triple.bind (hbody i a) fun a => ih (i + 1) a

/-- A loop keeps what its body keeps at the counters of the loop. -/
theorem Keeps.loop_range
    {I : σ → Prop} {E : ε → Prop} {body : Int → α → Program σ ε α} {i : Int} {n : Nat}
    (hbody : ∀ j a, i ≤ j → j < i + n → Keeps I E (body j a)) (a : α) :
  Keeps I E (Program.loop body i n a)
  := by
  induction n generalizing i a with
  | zero => exact Triple.pure fun _ h => h
  | succ n ih =>
    apply Triple.bind (hbody i a (Int.le_refl i) (by omega))
    intro a
    apply ih
    intro j a hlow hhigh
    apply hbody
    · omega
    · omega

/-! ### Pairs of runs -/

/-- From states related by `P`, the programs `x` and `y` return values and states related
by `Q`, or abort with the same error. -/
def Coupled (P : σ → σ → Prop) (x : Program σ ε α) (y : Program σ ε β)
    (Q : α → σ → β → σ → Prop) : Prop :=
  ∀ s t, P s t → match x.run s, y.run t with
    | .ok (a, s'), .ok (b, t') => Q a s' b t'
    | .error e, .error e' => e = e'
    | _, _ => False

/-- From states related by `R`, the program `x` returns equal values and states related by
`R`, or aborts with the same error. -/
abbrev Respects (R : σ → σ → Prop) (x : Program σ ε α) : Prop :=
  Coupled R x x (fun a s b t => a = b ∧ R s t)

namespace Coupled

variable {γ δ : Type} {P : σ → σ → Prop} {x : Program σ ε α} {y : Program σ ε β}

/-- Two runs that return. -/
theorem of_ok
    {Q : α → σ → β → σ → Prop}
    (h : ∀ s t, P s t → ∃ a s' b t', x.run s = .ok (a, s') ∧ y.run t = .ok (b, t') ∧ Q a s' b t') :
  Coupled P x y Q
  := by
  intro s t hst
  obtain ⟨a, s', b, t', hx, hy, hq⟩ := h s t hst
  rw [hx, hy]
  apply hq

theorem pure
    {Q : α → σ → β → σ → Prop} {a : α} {b : β} (h : ∀ s t, P s t → Q a s b t) :
  Coupled P (pure a : Program σ ε α) (pure b) Q
  := h

theorem bind
    {Q : α → σ → β → σ → Prop} {R : γ → σ → δ → σ → Prop} {f : α → Program σ ε γ}
    {g : β → Program σ ε δ} (hxy : Coupled P x y Q)
    (hfg : ∀ a b, Coupled (fun s t => Q a s b t) (f a) (g b) R) :
  Coupled P (x >>= f) (y >>= g) R
  := by
  intro s t hst
  have h := hxy s t hst
  cases hx : x.run s with
  | error e =>
    cases hy : y.run t with
    | error e' =>
      rw [run_bind_of_error hx, run_bind_of_error hy]
      rw [hx, hy] at h
      apply h
    | ok r =>
      rw [hx, hy] at h
      contradiction
  | ok r =>
    cases hy : y.run t with
    | error e' =>
      rw [hx, hy] at h
      contradiction
    | ok r' =>
      obtain ⟨a, s'⟩ := r
      obtain ⟨b, t'⟩ := r'
      rw [hx, hy] at h
      rw [run_bind_of_ok hx, run_bind_of_ok hy]
      apply hfg a b s' t' h

/-- What holds of the runs that return may be used for the postcondition. -/
theorem strengthen
    {Q Q' : α → σ → β → σ → Prop} (h : Coupled P x y Q)
    (hQ : ∀ s t a s' b t', P s t → x.run s = .ok (a, s') → y.run t = .ok (b, t') →
      Q a s' b t' → Q' a s' b t') :
  Coupled P x y Q'
  := by
  intro s t hst
  have hxy := h s t hst
  cases hx : x.run s with
  | error e =>
    cases hy : y.run t with
    | error e' =>
      rw [hx, hy] at hxy
      apply hxy
    | ok r =>
      rw [hx, hy] at hxy
      contradiction
  | ok r =>
    cases hy : y.run t with
    | error e' =>
      rw [hx, hy] at hxy
      contradiction
    | ok r' =>
      rw [hx, hy] at hxy
      apply hQ s t _ _ _ _ hst hx hy hxy

/-- The rule of consequence. -/
theorem conseq
    {P' : σ → σ → Prop} {Q Q' : α → σ → β → σ → Prop} (h : Coupled P x y Q)
    (hP : ∀ s t, P' s t → P s t) (hQ : ∀ a s b t, Q a s b t → Q' a s b t) :
  Coupled P' x y Q'
  := by
  intro s t hst
  apply h.strengthen (fun _ _ a s' b t' _ _ _ hq => hQ a s' b t' hq) s t (hP s t hst)

end Coupled

namespace Respects

variable {R : σ → σ → Prop}

theorem pure
    (a : α) :
  Respects R (pure a : Program σ ε α)
  := Coupled.pure fun _ _ h => ⟨rfl, h⟩

theorem bind
    {x : Program σ ε α} {f : α → Program σ ε β}
    (hx : Respects R x) (hf : ∀ a, Respects R (f a)) :
  Respects R (x >>= f)
  := by
  apply Coupled.bind hx
  rintro a b s t ⟨rfl, hst⟩
  apply hf a s t hst

theorem throw
    (e : ε) :
  Respects R (throw e : Program σ ε α)
  := fun _ _ _ => rfl

theorem ite
    {c : Prop} [Decidable c] {x y : Program σ ε α} (hx : c → Respects R x)
    (hy : ¬ c → Respects R y) :
  Respects R (if c then x else y)
  := by
  split
  · apply hx
    assumption
  · apply hy
    assumption

/-- A program keeps what it respects of two equal states. -/
theorem diagonal_iff
    {I : σ → Prop} {x : Program σ ε α} :
  Respects (fun s t => s = t ∧ I s) x ↔ Keeps I (fun _ => True) x
  := by
  constructor
  · intro h s hs
    have hss := h s s ⟨rfl, hs⟩
    cases hx : x.run s with
    | error e => trivial
    | ok r =>
      rw [hx] at hss
      apply hss.2.2
  · rintro h s t ⟨rfl, hs⟩
    have hs' := h s hs
    cases hx : x.run s with
    | error e => rfl
    | ok r =>
      rw [hx] at hs'
      exact ⟨rfl, rfl, hs'⟩

/-- A loop respects what its body respects, at the counters of the loop. -/
theorem loop
    {body : Int → α → Program σ ε α} {i : Int} {n : Nat}
    (hbody : ∀ j a, i ≤ j → j < i + n → Respects R (body j a)) (a : α) :
  Respects R (loop body i n a)
  := by
  induction n generalizing i a with
  | zero => apply Respects.pure
  | succ n ih =>
    apply Respects.bind
    · apply hbody
      · apply Int.le_refl
      · omega
    · intro a
      apply ih
      intro j a hlow hhigh
      apply hbody
      · omega
      · omega

end Respects

/-! ### Programs built from a set of actions -/

/-- The programs made by sequencing from the actions in `A`. -/
inductive Built (A : ∀ α : Type, Program σ ε α → Prop) :
    ∀ α : Type, Program σ ε α → Prop
  /-- An action of `A`. -/
  | action {α : Type} {x : Program σ ε α} (h : A α x) : Built A α x
  /-- Returning a value. -/
  | pure {α : Type} (a : α) : Built A α (pure a)
  /-- Sequencing. -/
  | bind {α β : Type} {x : Program σ ε α} {f : α → Program σ ε β}
      (hx : Built A α x) (hf : ∀ a, Built A β (f a)) : Built A β (x >>= f)

namespace Built

variable {A B : ∀ α : Type, Program σ ε α → Prop}

/-- A program built from `A` is built from every larger set. -/
theorem mono
    (hAB : ∀ α x, A α x → B α x) {x : Program σ ε α} (h : Built A α x) :
  Built B α x
  := by
  induction h with
  | action h => apply action (hAB _ _ h)
  | pure a => apply pure
  | bind _ _ ihx ihf => apply bind ihx ihf

theorem ite
    {c : Prop} [Decidable c] {x y : Program σ ε α} (hx : Built A α x)
    (hy : Built A α y) :
  Built A α (if c then x else y)
  := by
  split
  · apply hx
  · apply hy

/-- A loop is built from what its body is built from. -/
theorem loop
    {body : Int → α → Program σ ε α} (hbody : ∀ i a, Built A α (body i a)) (i : Int) (n : Nat)
    (a : α) :
  Built A α (loop body i n a)
  := by
  induction n generalizing i a with
  | zero => apply pure
  | succ n ih => apply bind (hbody i a) fun a => ih (i + 1) a

/-- An invariant of the actions of `A` is an invariant of the programs built from
them. -/
theorem keeps
    {I : σ → Prop} {E : ε → Prop} (hA : ∀ α x, A α x → Keeps I E x)
    {x : Program σ ε α} (h : Built A α x) :
  Keeps I E x
  := by
  induction h with
  | action h => apply hA _ _ h
  | pure a =>
    intro s hs
    apply hs
  | bind _ _ ihx ihf => apply Triple.bind ihx ihf

/-- A relation that the actions of `A` respect is respected by the programs built
from them. -/
theorem respects
    {R : σ → σ → Prop} (hA : ∀ α x, A α x → Respects R x)
    {x : Program σ ε α} (h : Built A α x) :
  Respects R x
  := by
  induction h with
  | action h => apply hA _ _ h
  | pure a => apply Respects.pure
  | bind _ _ ihx ihf => apply Respects.bind ihx ihf

end Built

/-! ### Runs that return -/

/-- The run of `x` from `s` returns, with a value and a state that meet `Q`. -/
def Returns (x : Program σ ε α) (s : σ) (Q : α → σ → Prop) : Prop :=
  ∃ a t, x.run s = .ok (a, t) ∧ Q a t

namespace Returns

variable {x : Program σ ε α} {f : α → Program σ ε β} {s t : σ} {a : α}
  {Q Q' : α → σ → Prop} {R : β → σ → Prop}

theorem iff_of_ok
    (hx : x.run s = .ok (a, t)) :
  Returns x s Q ↔ Q a t
  := by
  constructor
  · rintro ⟨a', t', hrun, hQ⟩
    rw [hx] at hrun
    cases hrun
    apply hQ
  · intro hQ
    exact ⟨a, t, hx, hQ⟩

theorem not_of_error
    {e : ε} (hx : x.run s = .error e) :
  ¬ Returns x s Q
  := by
  rintro ⟨a, t, hrun, -⟩
  rw [hx] at hrun
  contradiction

theorem pure_iff :
  Returns (pure a : Program σ ε α) s Q ↔ Q a s
  := iff_of_ok rfl

theorem bind_iff :
  Returns (x >>= f) s R ↔ Returns x s fun a t => Returns (f a) t R
  := by
  constructor
  · rintro ⟨b, u, hrun, hR⟩
    obtain ⟨a, t, hx, hf⟩ := run_bind_eq_ok.mp hrun
    exact ⟨a, t, hx, b, u, hf, hR⟩
  · rintro ⟨a, t, hx, b, u, hf, hR⟩
    exact ⟨b, u, run_bind_eq_ok.mpr ⟨a, t, hx, hf⟩, hR⟩

/-- A first part that returns. -/
theorem bind_iff_of_ok
    (hx : x.run s = .ok (a, t)) :
  Returns (x >>= f) s R ↔ Returns (f a) t R
  := by
  rw [bind_iff, iff_of_ok hx]

theorem mono
    (h : Returns x s Q) (hQ : ∀ a t, Q a t → Q' a t) :
  Returns x s Q'
  := by
  obtain ⟨a, t, hx, hq⟩ := h
  exact ⟨a, t, hx, hQ a t hq⟩

/-- A program that returns in two ways returns in both. -/
theorem and
    (h : Returns x s Q) (h' : Returns x s Q') :
  Returns x s fun a t => Q a t ∧ Q' a t
  := by
  obtain ⟨a, t, hx, hq⟩ := h
  exact ⟨a, t, hx, hq, (iff_of_ok hx).mp h'⟩

/-- A condition that does not depend on the run. -/
theorem and_const_iff
    {p : Prop} :
  Returns x s (fun a t => Q a t ∧ p) ↔ Returns x s Q ∧ p
  := by
  constructor
  · rintro ⟨a, t, hx, hQ, hp⟩
    exact ⟨⟨a, t, hx, hQ⟩, hp⟩
  · rintro ⟨⟨a, t, hx, hQ⟩, hp⟩
    exact ⟨a, t, hx, hQ, hp⟩

/-- A program that never aborts returns. -/
theorem of_triple
    {P : σ → Prop} (h : Triple P x Q fun _ => False) (hs : P s) :
  Returns x s Q
  := by
  have hxs := h s hs
  cases hrun : x.run s with
  | error e =>
    rw [hrun] at hxs
    apply hxs.elim
  | ok r =>
    rw [hrun] at hxs
    exact ⟨r.1, r.2, hrun, hxs⟩

end Returns

/-! ### The origin of an error -/

/-- In the run of a program, the program `y` is run from the state `t`. -/
inductive Reaches {β : Type} (y : Program σ ε β) (t : σ) : ∀ {α : Type}, Program σ ε α → σ → Prop
  | refl : Reaches y t y t
  /-- In the first part of a sequence. -/
  | left {α γ : Type} {x : Program σ ε α} {f : α → Program σ ε γ} {s : σ}
      (h : Reaches y t x s) : Reaches y t (x >>= f) s
  /-- In the second part of a sequence. -/
  | right {α γ : Type} {x : Program σ ε α} {f : α → Program σ ε γ} {s s' : σ} {a : α}
      (hx : x.run s = .ok (a, s')) (h : Reaches y t (f a) s') : Reaches y t (x >>= f) s

/-- Where a program that is reached aborts, the run does. -/
theorem Reaches.error
    {y : Program σ ε β} {t : σ} {x : Program σ ε α} {s : σ} {e : ε} (h : Reaches y t x s)
    (hy : y.run t = .error e) :
  x.run s = .error e
  := by
  induction h with
  | refl => apply hy
  | left _ ih => apply run_bind_of_error ih
  | right hx _ ih => apply (run_bind_of_ok hx).trans ih

/-- A program that is built from `A` aborts where an action of `A` does. -/
theorem Built.error_reached
    {A : ∀ α : Type, Program σ ε α → Prop} {x : Program σ ε α} (hx : Built A α x) {s : σ} {e : ε}
    (h : x.run s = .error e) :
  ∃ (β : Type) (y : Program σ ε β) (t : σ), A β y ∧ Reaches y t x s ∧ y.run t = .error e
  := by
  induction hx generalizing s with
  | action hy => exact ⟨_, _, s, hy, .refl, h⟩
  | pure a => contradiction
  | @bind α γ x f _ _ ihx ihf =>
    cases hrun : x.run s with
    | error e' =>
      rw [run_bind_of_error hrun] at h
      obtain rfl := Except.error.inj h
      obtain ⟨β, y, t, hy, hreach, hyt⟩ := ihx hrun
      exact ⟨β, y, t, hy, .left hreach, hyt⟩
    | ok r =>
      obtain ⟨a, s'⟩ := r
      rw [run_bind_of_ok hrun] at h
      obtain ⟨β, y, t, hy, hreach, hyt⟩ := ihf a h
      exact ⟨β, y, t, hy, .right hrun hreach, hyt⟩

/-- Every error of a run of `x` from `s` is that of a program run in it, with the blame `B`. -/
def Blames (B : ∀ β : Type, Program σ ε β → σ → ε → Prop) (x : Program σ ε α) (s : σ) : Prop :=
  ∀ e, x.run s = .error e →
    ∃ (β : Type) (y : Program σ ε β) (t : σ), B β y t e ∧ Reaches y t x s ∧ y.run t = .error e

namespace Blames

variable {B : ∀ β : Type, Program σ ε β → σ → ε → Prop} {x : Program σ ε α}
  {f : α → Program σ ε β} {s s' : σ}

/-- After a first part that returns, the second part is to blame. -/
theorem of_ok
    {a : α} (hx : x.run s = .ok (a, s')) (h : Blames B (f a) s') :
  Blames B (x >>= f) s
  := by
  intro e he
  rw [run_bind_of_ok hx] at he
  obtain ⟨γ, y, t, hB, hreach, hyt⟩ := h e he
  exact ⟨γ, y, t, hB, .right hx hreach, hyt⟩

theorem bind
    (hx : Blames B x s) (hf : ∀ a s', x.run s = .ok (a, s') → Blames B (f a) s') :
  Blames B (x >>= f) s
  := by
  cases hrun : x.run s with
  | error e =>
    intro e' he
    rw [run_bind_of_error hrun] at he
    obtain rfl := Except.error.inj he
    obtain ⟨γ, y, t, hB, hreach, hyt⟩ := hx e hrun
    exact ⟨γ, y, t, hB, .left hreach, hyt⟩
  | ok r =>
    obtain ⟨a, s'⟩ := r
    apply of_ok hrun (hf a s' hrun)

/-- A program that is built from actions, of which those that abort take the blame. -/
theorem built
    {A : ∀ α : Type, Program σ ε α → Prop} (hx : Built A α x)
    (hA : ∀ β (y : Program σ ε β) t e, A β y → y.run t = .error e → B β y t e) :
  Blames B x s
  := by
  intro e he
  obtain ⟨β, y, t, hy, hreach, hyt⟩ := hx.error_reached he
  exact ⟨β, y, t, hA β y t e hy hyt, hreach, hyt⟩

end Blames

end Program
