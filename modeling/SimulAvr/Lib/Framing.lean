import SimulAvr.Lib.Program

/-!
# Frames

The frames `$payload#cc` of the remote protocol of gdb: a payload between two marks, and its
checksum as two hexadecimal digits.  A frame is read byte by byte by a program that reads
bytes, with a limit on the length of the payload.  A program that is given the bytes of a
frame reads its payload and its checksum (`run_readFrame`).
-/

namespace Framing

open Program

/-- A byte. -/
abbrev Byte : Type := BitVec 8

/-- The mark `$` before a payload. -/
abbrev startMark : Byte := 0x24

/-- The mark `#` after a payload. -/
abbrev endMark : Byte := 0x23

/-! ### Writing frames -/

/-- The sum of the bytes of a payload. -/
def checksum (payload : List Byte) : Byte :=
  .ofNat 8 (payload.map BitVec.toNat).sum

/-- The hexadecimal digit of a nibble. -/
def digit (nib : Byte) : Byte :=
  if nib < 10 then 0x30 + nib else 0x57 + nib

/-- What follows the first mark of a frame. -/
def body (payload : List Byte) : List Byte :=
  payload ++ [endMark, digit (checksum payload >>> 4), digit (checksum payload &&& 0xf#8)]

/-- The frame of a payload. -/
def frame (payload : List Byte) : List Byte :=
  startMark :: body payload

/-! ### Reading bytes -/

section

variable {σ ε β : Type}

/-- The program `read` reads the bytes, one after the other. -/
inductive Reads (read : Program σ ε β) : σ → List β → σ → Prop
  | nil (s : σ) : Reads read s [] s
  | cons {s s' t : σ} {b : β} {bytes : List β} (hread : read.run s = .ok (b, s'))
      (h : Reads read s' bytes t) : Reads read s (b :: bytes) t

/-- What is read in two parts. -/
theorem Reads.split
    {read : Program σ ε β} {s t : σ} {xs ys : List β} (h : Reads read s (xs ++ ys) t) :
  ∃ mid, Reads read s xs mid ∧ Reads read mid ys t
  := by
  induction xs generalizing s with
  | nil => exact ⟨s, Reads.nil s, h⟩
  | cons x xs ih =>
    cases h with
    | cons hread h =>
      obtain ⟨mid, hx, hy⟩ := ih h
      exact ⟨mid, Reads.cons hread hx, hy⟩

variable [DecidableEq β]

/-- Read up to the byte `stop`, at most `limit` bytes and one more. -/
def scan (read : Program σ ε β) (stop : β) : Nat → Program σ ε (List β)
  | 0 => do
    let _ ← read
    return []
  | limit + 1 => do
    let c ← read
    if c = stop then
      return []
    let payload ← scan read stop limit
    return c :: payload

/-- A scan keeps what the reads keep. -/
theorem keeps_scan
    {read : Program σ ε β} {I : σ → Prop} {E : ε → Prop} (hread : Keeps I E read) (stop : β)
    (limit : Nat) :
  Keeps I E (scan read stop limit)
  := by
  induction limit with
  | zero =>
    apply Triple.bind hread
    intro c
    exact Triple.pure fun _ h => h
  | succ limit ih =>
    apply Triple.bind hread
    intro c
    apply Triple.ite
    · intro _
      exact Triple.pure fun _ h => h
    · intro _
      apply Triple.bind ih
      intro payload
      exact Triple.pure fun _ h => h

/-- A payload within the limit is read as a whole. -/
theorem run_scan
    {read : Program σ ε β} {stop : β} {payload : List β} {limit : Nat} {s t : σ}
    (hstop : stop ∉ payload) (hlimit : payload.length ≤ limit)
    (hreads : Reads read s (payload ++ [stop]) t) :
  (scan read stop limit).run s = .ok (payload, t)
  := by
  induction payload generalizing limit s with
  | nil =>
    cases hreads with
    | cons hread hreads =>
      cases hreads
      cases limit with
      | zero =>
        rw [scan, run_bind_of_ok hread]
        rfl
      | succ limit =>
        rw [scan, run_bind_of_ok hread, if_pos rfl]
        rfl
  | cons b payload ih =>
    obtain ⟨hne, hstop⟩ := not_or.mp (List.mem_cons.not.mp hstop)
    cases hreads with
    | cons hread hreads =>
      cases limit with
      | zero => simp at hlimit
      | succ limit =>
        have hlimit' : payload.length ≤ limit := by simpa using hlimit
        rw [scan, run_bind_of_ok hread, if_neg (Ne.symm hne)]
        rw [run_bind_of_ok (ih hstop hlimit' hreads)]
        rfl

end

/-! ### Reading frames -/

section

variable {σ ε : Type}

/-- Read what follows the first mark of a frame: the payload and the checksum. -/
def readFrame (read : Program σ ε Byte) (nibble : Byte → Program σ ε Byte) (limit : Nat) :
    Program σ ε (List Byte × Byte) := do
  let payload ← scan read endMark limit
  let high ← nibble (← read)
  let low ← nibble (← read)
  return (payload, high <<< 4 ||| low)

/-- The read of a frame keeps what the reads and the conversions keep. -/
theorem keeps_readFrame
    {read : Program σ ε Byte} {nibble : Byte → Program σ ε Byte} {I : σ → Prop} {E : ε → Prop}
    (hread : Keeps I E read) (hnibble : ∀ c, Keeps I E (nibble c)) (limit : Nat) :
  Keeps I E (readFrame read nibble limit)
  := by
  apply Triple.bind (keeps_scan hread endMark limit)
  intro payload
  apply Triple.bind hread
  intro high
  apply Triple.bind (hnibble high)
  intro high
  apply Triple.bind hread
  intro low
  apply Triple.bind (hnibble low)
  intro low
  exact Triple.pure fun _ h => h

/-- The program `nibble` converts the hexadecimal digits of frames. -/
def Converts (nibble : Byte → Program σ ε Byte) : Prop :=
  ∀ nib < 16, ∀ s, (nibble (digit nib)).run s = .ok (nib, s)

/-- A byte is made of its two nibbles. -/
theorem nibbles
    (b : Byte) :
  b >>> 4 < 16 ∧ b &&& 0xf#8 < 16 ∧ (b >>> 4) <<< 4 ||| b &&& 0xf#8 = b
  := by
  revert b
  decide +kernel

/-- The body of a frame is read as its payload and the checksum of its payload. -/
theorem run_readFrame
    {read : Program σ ε Byte} {nibble : Byte → Program σ ε Byte} (hnibble : Converts nibble)
    {payload : List Byte} {limit : Nat} {s t : σ} (hend : endMark ∉ payload)
    (hlimit : payload.length ≤ limit) (hreads : Reads read s (body payload) t) :
  (readFrame read nibble limit).run s = .ok ((payload, checksum payload), t)
  := by
  have hbody : body payload = (payload ++ [endMark]) ++
      [digit (checksum payload >>> 4), digit (checksum payload &&& 0xf#8)] := by
    rw [body, List.append_assoc]
    rfl
  rw [hbody] at hreads
  obtain ⟨mid, hpayload, hdigits⟩ := hreads.split
  obtain ⟨hhigh, hlow, hbyte⟩ := nibbles (checksum payload)
  cases hdigits with
  | cons hread₁ hdigits =>
    cases hdigits with
    | cons hread₂ hdigits =>
      cases hdigits
      rw [readFrame, run_bind_of_ok (run_scan hend hlimit hpayload), run_bind_of_ok hread₁]
      rw [run_bind_of_ok (hnibble _ hhigh _), run_bind_of_ok hread₂]
      rw [run_bind_of_ok (hnibble _ hlow _), hbyte]
      rfl

end

end Framing
