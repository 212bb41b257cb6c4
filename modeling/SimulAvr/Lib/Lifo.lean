import Mathlib.Tactic.Common

/-!
# Last in, first out

The discipline of a stack: a sequence of pushes and pops is properly nested from a stack
when every pop finds a value that fits it, which is the one pushed last among those not
yet popped (`Nest`).  A part of a nested sequence is nested (`Nest.append_inv`).
-/

namespace Lifo

/-- A push of a value of type `α`, or a pop, which asks for a value by one of type `β`. -/
inductive Op (α β : Type) where
  | push (a : α)
  | pop (b : β)

variable {α β : Type}

/-- From the stack `s` the operations pop the values `out` and leave the stack `t`: every
pop finds a value that fits it, and every push leaves a stack that is `ok`. -/
inductive Nest (fits : α → β → Prop) (ok : List α → Prop) :
    (s : List α) → List (Op α β) → (out t : List α) → Prop
  | nil (s : List α) : Nest fits ok s [] [] s
  | push {s : List α} {a : α} {ops : List (Op α β)} {out t : List α} (hok : ok (a :: s))
      (h : Nest fits ok (a :: s) ops out t) : Nest fits ok s (.push a :: ops) out t
  | pop {s : List α} {a : α} {b : β} {ops : List (Op α β)} {out t : List α} (hfits : fits a b)
      (h : Nest fits ok s ops out t) : Nest fits ok (a :: s) (.pop b :: ops) (a :: out) t

variable {fits : α → β → Prop} {ok : List α → Prop}

/-- The parts of a nested sequence are nested. -/
theorem Nest.append_inv
    {s : List α} {ops₁ ops₂ : List (Op α β)} {out t : List α}
    (h : Nest fits ok s (ops₁ ++ ops₂) out t) :
  ∃ out₁ out₂ u, out = out₁ ++ out₂ ∧ Nest fits ok s ops₁ out₁ u ∧ Nest fits ok u ops₂ out₂ t
  := by
  induction ops₁ generalizing s out with
  | nil =>
    use [], out, s, rfl, .nil s
    apply h
  | cons op ops₁ ih =>
    cases h with
    | push hok h =>
      obtain ⟨out₁, out₂, u, hout, h₁, h₂⟩ := ih h
      use out₁, out₂, u, hout, .push hok h₁
    | @pop _ a _ _ _ _ hfits h =>
      obtain ⟨out₁, out₂, u, hout, h₁, h₂⟩ := ih h
      rw [hout]
      use a :: out₁, out₂, u, rfl, .pop hfits h₁

end Lifo
