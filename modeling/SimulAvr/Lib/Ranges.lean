import Mathlib.Logic.Function.Basic
import Mathlib.Tactic.Common

/-!
# Ranges of a store

A store gives a value at every integer.  The values `vals` are written at `addr, addr + 1, …`
by `writeRange`, and `readRange` reads values in that order; reading what has been written
gives it back (`readRange_writeRange`), and a write changes nothing outside of its range
(`writeRange_of_not_mem`).
-/

variable {α : Type}

/-- The `n` values at `addr, addr + 1, …`. -/
def readRange (store : Int → α) : (addr : Int) → (n : Nat) → List α
  | _, 0 => []
  | addr, n + 1 => store addr :: readRange store (addr + 1) n

/-- The store with the values of a list at `addr, addr + 1, …`. -/
def writeRange : (store : Int → α) → (addr : Int) → List α → Int → α
  | store, _, [] => store
  | store, addr, val :: vals => writeRange (Function.update store addr val) (addr + 1) vals

section

variable {store store' : Int → α} {addr a : Int} {n : Nat} {vals : List α}

/-- A write changes nothing outside of its range. -/
theorem writeRange_of_not_mem
    (h : a < addr ∨ addr + vals.length ≤ a) :
  writeRange store addr vals a = store a
  := by
  induction vals generalizing store addr with
  | nil => rfl
  | cons val vals ih =>
    rw [List.length_cons] at h
    rw [writeRange, ih (by omega), Function.update_of_ne (by omega)]

/-- A value that is written -/
theorem writeRange_add
    (store : Int → α) (addr : Int) {k : Nat} (h : k < vals.length) :
  writeRange store addr vals (addr + k) = vals[k]
  := by
  induction vals generalizing store addr k with
  | nil => contradiction
  | cons val vals ih =>
    cases k with
    | zero =>
      rw [writeRange, writeRange_of_not_mem (by omega), Int.natCast_zero, Int.add_zero,
        Function.update_self]
      rfl
    | succ k =>
      have hnext : addr + (k + 1 : Nat) = addr + 1 + k := by omega
      rw [writeRange, hnext, ih _ _ (Nat.lt_of_succ_lt_succ h)]
      rfl

/-- Reading what has been written gives it back. -/
theorem readRange_writeRange
    (store : Int → α) (addr : Int) (vals : List α) :
  readRange (writeRange store addr vals) addr vals.length = vals
  := by
  induction vals generalizing store addr with
  | nil => rfl
  | cons val vals ih =>
    rw [List.length_cons, readRange, writeRange, ih, writeRange_of_not_mem (by omega),
      Function.update_self]

/-- A range is read in two parts. -/
theorem readRange_add
    (store : Int → α) (addr : Int) (m n : Nat) :
  readRange store addr (m + n) = readRange store addr m ++ readRange store (addr + m) n
  := by
  induction m generalizing addr with
  | zero => simp [readRange]
  | succ m ih =>
    rw [Nat.succ_add_eq_add_succ, Nat.add_succ, readRange, ih, readRange, List.cons_append]
    congr 3
    omega

/-- A range is written in two parts. -/
theorem writeRange_append
    (store : Int → α) (addr : Int) (vals vals' : List α) :
  writeRange store addr (vals ++ vals') =
    writeRange (writeRange store addr vals) (addr + vals.length) vals'
  := by
  induction vals generalizing store addr with
  | nil => simp [writeRange]
  | cons val vals ih =>
    rw [List.cons_append, writeRange, ih, writeRange, List.length_cons]
    congr 1
    omega

theorem length_readRange
    (store : Int → α) (addr : Int) (n : Nat) :
  (readRange store addr n).length = n
  := by
  induction n generalizing addr with
  | zero => rfl
  | succ n ih => rw [readRange, List.length_cons, ih]

end
