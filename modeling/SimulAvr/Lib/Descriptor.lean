import Mathlib.Tactic.Common

/-!
# Reads of a descriptor

What the reads of a file descriptor find, one after the other: a byte, a moment at which no
data has arrived, the end of the file, or a failure.  In blocking mode a read waits for data,
in non-blocking mode it says that there is none.  `Brings feed bytes rest` says that a
feed brings the given bytes at some pace and goes on with `rest`; a read in blocking mode
sees the bytes and not the pace (`read_of_brings`).
-/

namespace Descriptor

/-- What a read finds. -/
inductive Arrival (β : Type) where
  | byte (b : β)
  /-- No data has arrived. -/
  | noData
  | endOfFile
  | failed
  deriving DecidableEq

variable {β : Type}

/-- Read one byte, in blocking mode or not, and leave what later reads find.  The value
`none` stands for a read that waits. -/
def read (blocking : Bool) : List (Arrival β) → Option (Arrival β × List (Arrival β))
  | [] => if blocking then none else some (.noData, [])
  | .noData :: feed => if blocking then read blocking feed else some (.noData, feed)
  | arrival :: feed => some (arrival, feed)

/-- The feed brings the bytes, and `rest` after them. -/
inductive Brings : List (Arrival β) → List β → List (Arrival β) → Prop
  | nil (rest : List (Arrival β)) : Brings rest [] rest
  | byte {feed rest : List (Arrival β)} {b : β} {bytes : List β} (h : Brings feed bytes rest) :
      Brings (.byte b :: feed) (b :: bytes) rest
  | wait {feed rest : List (Arrival β)} {b : β} {bytes : List β}
      (h : Brings feed (b :: bytes) rest) : Brings (.noData :: feed) (b :: bytes) rest

/-- Without bytes the feed is what comes after them. -/
theorem Brings.eq_of_nil
    {feed rest : List (Arrival β)} (h : Brings feed [] rest) :
  feed = rest
  := by
  cases h
  rfl

/-- A feed that never lets a reader wait. -/
theorem brings_map
    (bytes : List β) (rest : List (Arrival β)) :
  Brings (bytes.map .byte ++ rest) bytes rest
  := by
  induction bytes with
  | nil => apply Brings.nil
  | cons b bytes ih => apply Brings.byte ih

/-- A feed that lets a reader wait before each byte. -/
theorem brings_paused
    (bytes : List β) :
  Brings (bytes.flatMap fun b => [.noData, .byte b]) bytes []
  := by
  induction bytes with
  | nil => apply Brings.nil
  | cons b bytes ih => apply Brings.wait (Brings.byte ih)

/-- A read in blocking mode gets the next byte. -/
theorem read_of_brings
    {feed rest : List (Arrival β)} {b : β} {bytes : List β} (h : Brings feed (b :: bytes) rest) :
  ∃ feed', read true feed = some (.byte b, feed') ∧ Brings feed' bytes rest
  := by
  generalize hbs : b :: bytes = bs at h
  induction h with
  | nil rest => contradiction
  | byte h _ =>
    cases hbs
    exact ⟨_, rfl, h⟩
  | wait _ ih =>
    obtain ⟨feed', hread, hrest⟩ := ih hbs
    use feed'
    rw [read, if_pos rfl]
    exact ⟨hread, hrest⟩

/-- A feed has an entry for each byte that it brings. -/
theorem Brings.length_le
    {feed rest : List (Arrival β)} {bytes : List β} (h : Brings feed bytes rest) :
  bytes.length + rest.length ≤ feed.length
  := by
  induction h with
  | nil rest => simp
  | byte h ih =>
    rw [List.length_cons, List.length_cons]
    omega
  | wait h ih =>
    rw [List.length_cons, List.length_cons]
    rw [List.length_cons] at ih
    omega

/-- A feed that brings one list of bytes after another. -/
theorem Brings.split
    {feed rest : List (Arrival β)} {xs ys : List β} (h : Brings feed (xs ++ ys) rest) :
  ∃ mid, Brings feed xs mid ∧ Brings mid ys rest
  := by
  generalize hbs : xs ++ ys = bs at h
  induction h generalizing xs with
  | nil rest =>
    obtain ⟨rfl, rfl⟩ := List.append_eq_nil_iff.mp hbs
    exact ⟨rest, Brings.nil rest, Brings.nil rest⟩
  | byte h ih =>
    cases xs with
    | nil =>
      rw [List.nil_append] at hbs
      subst hbs
      exact ⟨_, Brings.nil _, Brings.byte h⟩
    | cons x xs =>
      obtain ⟨rfl, htail⟩ := List.cons.inj hbs
      obtain ⟨mid, hx, hy⟩ := ih htail
      exact ⟨mid, Brings.byte hx, hy⟩
  | wait h ih =>
    cases xs with
    | nil =>
      rw [List.nil_append] at hbs
      subst hbs
      exact ⟨_, Brings.nil _, Brings.wait h⟩
    | cons x xs =>
      obtain ⟨mid, hx, hy⟩ := ih hbs
      obtain ⟨rfl, -⟩ := List.cons.inj hbs
      exact ⟨mid, Brings.wait hx, hy⟩

end Descriptor
