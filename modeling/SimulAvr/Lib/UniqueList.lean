import Mathlib.Data.List.Pairwise
import Mathlib.Data.List.Sort

/-!
# Lists with unique keys

The type `UniqueList key` of the lists no two entries of which have the same value
of `key`, with the operations that append an entry unless its key is taken, that
delete the entry with a given key, and that replace entries without changing
their keys.  An entry is appended, so the order of the list is the order of
insertion; `sorted_add_iff` says when the keys stay in increasing order.
-/

variable {α κ : Type}

/-- A list no two entries of which have the same key. -/
structure UniqueList (key : α → κ) where
  /-- The entries, in order of insertion. -/
  entries : List α
  /-- No two entries have the same key. -/
  unique : entries.Pairwise (fun x y => key x ≠ key y)

namespace UniqueList

variable {key : α → κ}

@[ext]
theorem ext
    {l l' : UniqueList key} (h : l.entries = l'.entries) :
  l = l'
  := by
  obtain ⟨es, u⟩ := l
  obtain ⟨es', u'⟩ := l'
  cases h
  rfl

/-- The list without entries. -/
def nil : UniqueList key where
  entries := []
  unique := List.Pairwise.nil

@[simp]
theorem nil_entries :
  (nil : UniqueList key).entries = []
  := rfl

/-- The keys of `l` increase strictly along the list. -/
def Sorted [LinearOrder κ] (l : UniqueList key) : Prop :=
  l.entries.Pairwise (fun x y => key x < key y)

theorem sorted_nil
    [LinearOrder κ] :
  (nil : UniqueList key).Sorted
  := List.Pairwise.nil

/-- The first entry of a sorted list has the least key. -/
theorem Sorted.head_le
    [LinearOrder κ] {l : UniqueList key} (h : l.Sorted) {x : α} {xs : List α}
    (hl : l.entries = x :: xs) {y : α} (hy : y ∈ l.entries) :
  key x ≤ key y
  := by
  rw [Sorted, hl, List.pairwise_cons] at h
  rw [hl, List.mem_cons] at hy
  obtain rfl | hy := hy
  · apply le_refl
  · apply le_of_lt (h.1 y hy)

variable [DecidableEq κ]

/-- The list in which `x` follows the entries of `l`, or `l` when an entry of `l` has
the key of `x`. -/
def add (l : UniqueList key) (x : α) : UniqueList key where
  entries := if l.entries.any (fun y => key y = key x) then l.entries else l.entries ++ [x]
  unique := by
    split
    · apply l.unique
    · rename_i h
      rw [List.pairwise_append]
      refine ⟨l.unique, List.pairwise_singleton _ _, ?_⟩
      intro y hy z hz
      rw [List.mem_singleton] at hz
      subst hz
      intro heq
      apply h
      rw [List.any_eq_true]
      use y, hy
      simpa using heq

/-- The entries of `l.delete k` are those of `l` whose key is not `k`, in the order
of `l`. -/
def delete (l : UniqueList key) (k : κ) : UniqueList key where
  entries := l.entries.eraseP (fun y => key y = k)
  unique := l.unique.sublist List.eraseP_sublist

/-- The first entry of `l` that satisfies `p`. -/
def lookup (l : UniqueList key) (p : α → Bool) : Option α :=
  l.entries.find? p

/-- The list of the images of the entries of `l` under a function that keeps their
keys. -/
def map (f : α → α) (hf : ∀ x, key (f x) = key x) (l : UniqueList key) :
    UniqueList key where
  entries := l.entries.map f
  unique := by
    rw [List.pairwise_map]
    simpa only [hf] using l.unique

/-- `add` leaves `l` as it is when its key is taken. -/
theorem add_of_mem
    {l : UniqueList key} {x y : α} (hy : y ∈ l.entries) (h : key y = key x) :
  l.add x = l
  := by
  apply ext
  have htaken : l.entries.any (fun y => key y = key x) = true := by
    rw [List.any_eq_true]
    use y, hy
    simpa using h
  simp only [add, htaken, if_true]

/-- `add` appends when no entry has the key of `x`. -/
theorem add_entries_of_fresh
    {l : UniqueList key} {x : α} (h : ∀ y ∈ l.entries, key y ≠ key x) :
  (l.add x).entries = l.entries ++ [x]
  := by
  have hfree : ¬ l.entries.any (fun y => key y = key x) = true := by
    rw [List.any_eq_true]
    rintro ⟨y, hy, heq⟩
    apply h y hy
    simpa using heq
  simp only [add, hfree, if_false, Bool.false_eq_true]

/-- An entry of `l.add x` is an entry of `l` or is `x`. -/
theorem mem_of_mem_add
    {l : UniqueList key} {x y : α} (h : y ∈ (l.add x).entries) :
  y ∈ l.entries ∨ y = x
  := by
  by_cases hx : ∃ z ∈ l.entries, key z = key x
  · obtain ⟨z, hz, heq⟩ := hx
    rw [add_of_mem hz heq] at h
    left
    apply h
  · push Not at hx
    rw [add_entries_of_fresh hx, List.mem_append, List.mem_singleton] at h
    apply h

/-- The entries of `l` are entries of `l.add x`. -/
theorem mem_add_of_mem
    {l : UniqueList key} (x : α) {y : α} (h : y ∈ l.entries) :
  y ∈ (l.add x).entries
  := by
  by_cases hx : ∃ z ∈ l.entries, key z = key x
  · obtain ⟨z, hz, heq⟩ := hx
    rw [add_of_mem hz heq]
    apply h
  · push Not at hx
    rw [add_entries_of_fresh hx, List.mem_append]
    left
    apply h

/-- `delete` removes the entries with key `k` and keeps the others in place. -/
theorem delete_entries
    (l : UniqueList key) (k : κ) :
  (l.delete k).entries = l.entries.filter (fun y => key y ≠ k)
  := by
  obtain ⟨es, u⟩ := l
  simp only [delete]
  induction es with
  | nil => rfl
  | cons x es ih =>
    rw [List.pairwise_cons] at u
    by_cases hx : key x = k
    · rw [List.eraseP_cons_of_pos (by simpa using hx)]
      rw [List.filter_cons_of_neg (by simpa using hx)]
      symm
      rw [List.filter_eq_self]
      intro y hy
      have := u.1 y hy
      rw [hx] at this
      simpa using this.symm
    · rw [List.eraseP_cons_of_neg (by simpa using hx)]
      rw [List.filter_cons_of_pos (by simpa using hx)]
      rw [ih u.2]

/-- An entry of `l.delete k` is an entry of `l` with another key than `k`. -/
theorem mem_delete_iff
    {l : UniqueList key} {k : κ} {y : α} :
  y ∈ (l.delete k).entries ↔ y ∈ l.entries ∧ key y ≠ k
  := by
  rw [delete_entries, List.mem_filter]
  simp

/-- An entry of `l.add x` is an entry of `l`, or is `x` when its key was free. -/
theorem mem_add_iff
    {l : UniqueList key} {x y : α} :
  y ∈ (l.add x).entries ↔ y ∈ l.entries ∨ y = x ∧ ∀ z ∈ l.entries, key z ≠ key x
  := by
  by_cases hx : ∃ z ∈ l.entries, key z = key x
  · obtain ⟨z, hz, heq⟩ := hx
    rw [add_of_mem hz heq]
    constructor
    · apply Or.inl
    · rintro (hy | ⟨-, hfree⟩)
      · apply hy
      · have := hfree z hz
        contradiction
  · push Not at hx
    rw [add_entries_of_fresh hx, List.mem_append, List.mem_singleton]
    constructor
    · rintro (hy | hy)
      · apply Or.inl hy
      · apply Or.inr ⟨hy, hx⟩
    · rintro (hy | ⟨hy, -⟩)
      · apply Or.inl hy
      · apply Or.inr hy

omit [DecidableEq κ] in
/-- Lists with the same entries differ in their order only. -/
theorem perm_of_mem_iff
    {l l' : UniqueList key} (h : ∀ x, x ∈ l.entries ↔ x ∈ l'.entries) :
  l.entries.Perm l'.entries
  := by
  have hnodup (l : UniqueList key) : l.entries.Nodup := by
    apply l.unique.imp
    intro x y hne heq
    rw [heq] at hne
    contradiction
  rw [List.perm_ext_iff_of_nodup (hnodup l) (hnodup l')]
  apply h

section Order

variable [LinearOrder κ]

/-- Deleting an entry keeps a sorted list sorted. -/
theorem Sorted.delete
    {l : UniqueList key} (h : l.Sorted) (k : κ) :
  (l.delete k).Sorted
  := h.sublist List.eraseP_sublist

/-- Appending to a sorted list keeps it sorted exactly when the key was taken or is
greater than every key of the list. -/
theorem sorted_add_iff
    {l : UniqueList key} (h : l.Sorted) (x : α) :
  (l.add x).Sorted ↔
    (∃ y ∈ l.entries, key y = key x) ∨ ∀ y ∈ l.entries, key y < key x
  := by
  by_cases hx : ∃ z ∈ l.entries, key z = key x
  · obtain ⟨z, hz, heq⟩ := hx
    rw [add_of_mem hz heq]
    constructor
    · intro _
      left
      use z, hz
    · intro _
      apply h
  · have hfresh : ∀ y ∈ l.entries, key y ≠ key x := by
      intro y hy heq
      apply hx
      use y, hy
    rw [Sorted, add_entries_of_fresh hfresh, List.pairwise_append]
    constructor
    · rintro ⟨-, -, hlt⟩
      right
      intro y hy
      apply hlt y hy x (List.mem_singleton_self x)
    · rintro (htaken | hlt)
      · contradiction
      · refine ⟨h, List.pairwise_singleton _ _, ?_⟩
        intro y hy z hz
        rw [List.mem_singleton] at hz
        subst hz
        apply hlt y hy

end Order

end UniqueList
