import SimulAvr.Lib.UniqueList

/-!
# Patched stores

A store is patched at the keys of a list: an entry of the list saves the value of the store
at its key, where the store holds that value or a mark.  The store and the list stand for an
image (`Patched`): the saved values where there are entries, the store elsewhere.  Marking a
key, taking the mark back, deleting an entry, and writing to a key without an entry keep the
image in step with the store.
-/

variable {α κ ω : Type} {key : α → κ}

/-- The store, with the values that the entries of the list save, stands for the image. -/
structure Patched (val : α → ω) (mark : ω) (image store : κ → ω) (l : UniqueList key) :
    Prop where
  /-- The entries save the values of the image. -/
  saved : ∀ x ∈ l.entries, val x = image (key x)
  /-- The key of an entry holds the mark or the saved value. -/
  listed : ∀ x ∈ l.entries, store (key x) = mark ∨ store (key x) = val x
  /-- A key without an entry holds its value. -/
  free : ∀ k, (∀ x ∈ l.entries, key x ≠ k) → store k = image k

namespace Patched

variable {val : α → ω} {mark : ω} {image store : κ → ω} {l : UniqueList key} {x : α}

/-- A store without entries is the image. -/
theorem eq_image
    (h : Patched val mark image store l) (hl : l.entries = []) :
  store = image
  := by
  funext k
  apply h.free
  rw [hl]
  intro x hx
  contradiction

/-- Without entries, a store is its own image. -/
theorem refl
    (val : α → ω) (mark : ω) (store : κ → ω) (hl : l.entries = []) :
  Patched val mark store store l
  := by
  constructor
  · rw [hl]
    nofun
  · rw [hl]
    nofun
  · intro k _
    rfl

/-- Two entries with the same key save the same value. -/
theorem val_eq
    (h : Patched val mark image store l) (hx : x ∈ l.entries) {y : α} (hy : y ∈ l.entries)
    (hkey : key y = key x) :
  val y = val x
  := by
  rw [h.saved y hy, h.saved x hx, hkey]

variable [DecidableEq κ]

/-- The image is the saved value of the entry with a key, or the value of the store. -/
theorem image_eq
    (h : Patched val mark image store l) (k : κ) :
  image k = ((l.lookup fun x => key x = k).map val).getD (store k)
  := by
  cases hfind : l.lookup fun x => key x = k with
  | none =>
    have hnone := List.find?_eq_none.mp hfind
    symm
    apply h.free
    intro x hx
    simpa using hnone x hx
  | some x =>
    have hx : x ∈ l.entries := List.mem_of_find?_eq_some hfind
    have hkey : key x = k := by simpa using List.find?_some hfind
    rw [← hkey]
    symm
    apply h.saved x hx

/-- Adding an entry that saves the value at its key, and marking the key. -/
theorem add
    (h : Patched val mark image store l) (hx : val x = store (key x)) :
  Patched val mark image (Function.update store (key x) mark) (l.add x)
  := by
  by_cases hmem : ∃ y ∈ l.entries, key y = key x
  · obtain ⟨y, hy, hkey⟩ := hmem
    rw [UniqueList.add_of_mem hy hkey]
    constructor
    · apply h.saved
    · intro z hz
      by_cases hzx : key z = key x
      · left
        rw [hzx, Function.update_self]
      · rw [Function.update_of_ne hzx]
        apply h.listed z hz
    · intro k hk
      rw [Function.update_of_ne]
      · apply h.free k hk
      · rw [← hkey]
        apply (hk y hy).symm
  · push Not at hmem
    constructor
    · intro z hz
      obtain hz | rfl := UniqueList.mem_of_mem_add hz
      · apply h.saved z hz
      · rw [hx]
        apply h.free _ hmem
    · intro z hz
      by_cases hzx : key z = key x
      · left
        rw [hzx, Function.update_self]
      · rw [Function.update_of_ne hzx]
        obtain hz | rfl := UniqueList.mem_of_mem_add hz
        · apply h.listed z hz
        · contradiction
    · intro k hk
      rw [Function.update_of_ne]
      · apply h.free
        intro z hz
        apply hk z (UniqueList.mem_add_of_mem x hz)
      · rw [UniqueList.add_entries_of_fresh hmem] at hk
        intro heq
        apply hk x (by simp) heq.symm

/-- Marking the key of an entry. -/
theorem arm
    (h : Patched val mark image store l) (hx : x ∈ l.entries) :
  Patched val mark image (Function.update store (key x) mark) l
  := by
  constructor
  · apply h.saved
  · intro y hy
    by_cases hyx : key y = key x
    · left
      rw [hyx, Function.update_self]
    · rw [Function.update_of_ne hyx]
      apply h.listed y hy
  · intro k hk
    rw [Function.update_of_ne (hk x hx).symm]
    apply h.free k hk

/-- Taking back the mark at the key of an entry. -/
theorem disarm
    (h : Patched val mark image store l) (hx : x ∈ l.entries) :
  Patched val mark image (Function.update store (key x) (val x)) l
  := by
  constructor
  · apply h.saved
  · intro y hy
    by_cases hyx : key y = key x
    · right
      rw [hyx, Function.update_self, h.val_eq hx hy hyx]
    · rw [Function.update_of_ne hyx]
      apply h.listed y hy
  · intro k hk
    rw [Function.update_of_ne (hk x hx).symm]
    apply h.free k hk

/-- Taking back the mark at the key of an entry, and deleting the entry. -/
theorem delete
    (h : Patched val mark image store l) (hx : x ∈ l.entries) :
  Patched val mark image (Function.update store (key x) (val x)) (l.delete (key x))
  := by
  constructor
  · intro y hy
    apply h.saved y (UniqueList.mem_delete_iff.mp hy).1
  · intro y hy
    obtain ⟨hy, hyx⟩ := UniqueList.mem_delete_iff.mp hy
    rw [Function.update_of_ne hyx]
    apply h.listed y hy
  · intro k hk
    by_cases hkx : k = key x
    · rw [hkx, Function.update_self]
      apply h.saved x hx
    · rw [Function.update_of_ne hkx]
      apply h.free
      intro y hy heq
      apply hk y _ heq
      rw [UniqueList.mem_delete_iff, heq]
      use hy

/-- Writing to a key without an entry. -/
theorem write
    (h : Patched val mark image store l) {k : κ} (hk : ∀ x ∈ l.entries, key x ≠ k) (v : ω) :
  Patched val mark (Function.update image k v) (Function.update store k v) l
  := by
  constructor
  · intro x hx
    rw [Function.update_of_ne (hk x hx)]
    apply h.saved x hx
  · intro x hx
    rw [Function.update_of_ne (hk x hx)]
    apply h.listed x hx
  · intro k' hk'
    by_cases heq : k' = k
    · rw [heq, Function.update_self, Function.update_self]
    · rw [Function.update_of_ne heq, Function.update_of_ne heq]
      apply h.free k' hk'

end Patched
