import Mathlib.Data.List.Basic
import Mathlib.Data.List.Range
import Mathlib.Logic.Function.Basic

/-!
# Queues in an array

The queue that the first `n` places of an array hold.  A byte put into place `n` goes to the end
of the queue; where every other element moves down one place, the first one leaves it.
-/

namespace ArrayQueue

variable {α : Type} (f : Nat → α)

/-- The elements of the queue -/
def contents (n : Nat) : List α :=
  (List.range n).map f

@[simp]
theorem contents_zero :
  contents f 0 = []
  := rfl

/-- An element that is put at the end -/
theorem contents_put
    (n : Nat) (a : α) :
  contents (Function.update f n a) (n + 1) = contents f n ++ [a]
  := by
  rw [contents, List.range_succ, List.map_append, List.map_singleton, Function.update_self]
  congr 1
  apply List.map_congr_left
  intro i hi
  apply Function.update_of_ne
  exact Nat.ne_of_lt (List.mem_range.mp hi)

/-- The first element leaves, and the others move down. -/
theorem contents_shift
    {g : Nat → α} {n : Nat} (hg : ∀ i < n, g i = f (i + 1)) :
  contents f (n + 1) = f 0 :: contents g n
  := by
  rw [contents, List.range_succ_eq_map, List.map_cons, List.map_map]
  congr 1
  apply List.map_congr_left
  intro i hi
  exact (hg i (List.mem_range.mp hi)).symm

end ArrayQueue
