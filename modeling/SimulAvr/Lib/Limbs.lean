import Mathlib.Data.List.Induction
import Mathlib.Data.Nat.Digits.Defs
import Mathlib.Tactic.Linarith
import Mathlib.Tactic.Ring
import SimulAvr.Lib.Carry

/-!
# Little-endian numbers

A list of words of `w` bits denotes a number, the least significant word first, and a
signed number in two's complement.  `Exact σ a b r c` says that the words `r` and the
carry `c` are the result so far of adding (`σ = 1`) or subtracting (`σ = -1`) the words
`b` to or from `a` one word after the other; from it, the carry, the overflow and the
comparison of the whole numbers are read off the last word.
-/

namespace Limbs

open Carry (Fits)

variable {w : Nat}

/-! ### Values -/

/-- The unsigned number of a list of words. -/
def value (l : List (BitVec w)) : Nat :=
  Nat.ofDigits (2 ^ w) (l.map BitVec.toNat)

/-- The signed number of a list of words. -/
def signed (l : List (BitVec w)) : Int :=
  if 2 * value l < 2 ^ (w * l.length) then value l else value l - 2 ^ (w * l.length)

@[simp]
theorem value_nil :
  value ([] : List (BitVec w)) = 0
  := rfl

/-- The value of a list with one more significant word. -/
theorem value_concat
    (l : List (BitVec w)) (x : BitVec w) :
  value (l ++ [x]) = value l + 2 ^ (w * l.length) * x.toNat
  := by
  rw [value, List.map_append, Nat.ofDigits_append, List.length_map, ← pow_mul]
  rfl

theorem value_lt
    (l : List (BitVec w)) :
  value l < 2 ^ (w * l.length)
  := by
  induction l using List.reverseRecOn with
  | nil => simp
  | append_singleton l x ih =>
    rw [value_concat, List.length_append, List.length_singleton, Nat.mul_add, Nat.mul_one,
      pow_add]
    have hx : x.toNat + 1 ≤ 2 ^ w := x.isLt
    calc value l + 2 ^ (w * l.length) * x.toNat
      _ < 2 ^ (w * l.length) + 2 ^ (w * l.length) * x.toNat := by omega
      _ = 2 ^ (w * l.length) * (x.toNat + 1) := by ring
      _ ≤ 2 ^ (w * l.length) * 2 ^ w := Nat.mul_le_mul_left _ hx

/-- The sign of a list of words is the sign of its most significant word. -/
theorem signed_concat
    (hw : 0 < w) (l : List (BitVec w)) (x : BitVec w) :
  signed (l ++ [x]) = value l + 2 ^ (w * l.length) * x.toInt
  := by
  have hl := value_lt l
  have hpow : 2 ^ w = 2 * 2 ^ (w - 1) := Carry.two_pow_eq hw
  have hiff : 2 * (value l + 2 ^ (w * l.length) * x.toNat) < 2 ^ (w * l.length) * 2 ^ w
      ↔ 2 * x.toNat < 2 ^ w := by
    generalize 2 ^ (w * l.length) = M at *
    generalize 2 ^ (w - 1) = h at *
    rw [hpow]
    constructor
    · intro hlt
      by_contra hge
      have : M * h ≤ M * x.toNat := Nat.mul_le_mul_left _ (by omega)
      have : M * (2 * h) = 2 * (M * h) := by ring
      omega
    · intro hlt
      have : M * (x.toNat + 1) ≤ M * h := Nat.mul_le_mul_left _ (by omega)
      have : M * (2 * h) = 2 * (M * h) := by ring
      have : M * (x.toNat + 1) = M * x.toNat + M := by ring
      omega
  rw [signed, value_concat, List.length_append, List.length_singleton, Nat.mul_add w,
    Nat.mul_one w, pow_add, BitVec.toInt_eq_toNat_cond]
  simp only [hiff]
  split
  · push_cast
    ring
  · push_cast
    ring

/-- A number with value `x` of its lower words and most significant word `y` fits if and
only if the most significant word does. -/
theorem fits_concat
    (hw : 0 < w) {n : Nat} {x : Int} (hx : 0 ≤ x ∧ x < 2 ^ (w * n)) (y : Int) :
  Fits (w * (n + 1)) (x + 2 ^ (w * n) * y) ↔ Fits w y
  := by
  have hpow : (2 : Int) ^ (w * (n + 1) - 1) = 2 ^ (w * n) * 2 ^ (w - 1) := by
    rw [← pow_add]
    congr 1
    rw [Nat.mul_add, Nat.mul_one]
    omega
  simp only [Fits, hpow]
  generalize (2 : Int) ^ (w * n) = M at *
  generalize (2 : Int) ^ (w - 1) = h
  constructor
  · rintro ⟨hlo, hhi⟩
    constructor <;> by_contra hcon
    · have : M * (y + 1) ≤ M * (-h) := by
        apply mul_le_mul_of_nonneg_left <;> omega
      linarith
    · have : M * h ≤ M * y := by
        apply mul_le_mul_of_nonneg_left <;> omega
      linarith
  · rintro ⟨hlo, hhi⟩
    constructor
    · have : M * (-h) ≤ M * y := by
        apply mul_le_mul_of_nonneg_left <;> omega
      linarith
    · have : M * (y + 1) ≤ M * h := by
        apply mul_le_mul_of_nonneg_left <;> omega
      linarith

/-- A number with value `x` of its lower words is negative if and only if its most
significant word is. -/
theorem neg_concat
    {M x : Int} (hx : 0 ≤ x ∧ x < M) (y : Int) :
  x + M * y < 0 ↔ y < 0
  := by
  constructor
  · intro h
    by_contra hcon
    have : 0 ≤ M * y := by
      apply mul_nonneg <;> omega
    omega
  · intro h
    have : M * (y + 1) ≤ 0 := by
      apply mul_nonpos_of_nonneg_of_nonpos <;> omega
    linarith

/-! ### Addition and subtraction -/

/-- The words `r` with carry `c` are the exact result of adding `b` to `a`, or of
subtracting it, by the sign `σ`. -/
structure Exact (σ : Int) (a b r : List (BitVec w)) (c : Bool) : Prop where
  length_left : a.length = r.length
  length_right : b.length = r.length
  value_eq : (value a : Int) + σ * value b = value r + σ * c.toNat * 2 ^ (w * r.length)

namespace Exact

variable {σ : Int} {a b r : List (BitVec w)} {c : Bool}

theorem nil :
  Exact σ ([] : List (BitVec w)) [] [] false
  := by
  constructor <;> simp

/-- One more word, computed with the carry in. -/
theorem concat
    (h : Exact σ a b r c) {x y z : BitVec w} {c' : Bool}
    (hdigit : (x.toNat : Int) + σ * (y.toNat + c.toNat) = z.toNat + σ * c'.toNat * 2 ^ w) :
  Exact σ (a ++ [x]) (b ++ [y]) (r ++ [z]) c'
  := by
  obtain ⟨ha, hb, hval⟩ := h
  constructor
  · simp [ha]
  · simp [hb]
  · rw [value_concat, value_concat, value_concat, ha, hb, List.length_append,
      List.length_singleton, Nat.mul_add, Nat.mul_one, pow_add]
    push_cast
    calc (value a : Int) + 2 ^ (w * r.length) * x.toNat
          + σ * (value b + 2 ^ (w * r.length) * y.toNat)
      _ = (value a + σ * value b) + 2 ^ (w * r.length) * (x.toNat + σ * y.toNat) := by ring
      _ = value r + 2 ^ (w * r.length) * (x.toNat + σ * (y.toNat + c.toNat)) := by
        rw [hval]
        ring
      _ = value r + 2 ^ (w * r.length) * z.toNat
          + σ * c'.toNat * (2 ^ (w * r.length) * 2 ^ w) := by
        rw [hdigit]
        ring

/-- The result is the residue of the sum or the difference. -/
theorem value_mod
    (h : Exact σ a b r c) :
  (value r : Int) = (value a + σ * value b) % 2 ^ (w * r.length)
  := by
  have hlt := value_lt r
  rw [h.value_eq, Int.add_mul_emod_self_right, Int.emod_eq_of_lt (by omega)]
  exact_mod_cast hlt

/-- The signed number of the sum or the difference. -/
theorem signed_concat
    (hw : 0 < w) (h : Exact σ a b r c) (x y : BitVec w) :
  signed (a ++ [x]) + σ * signed (b ++ [y])
    = value r + 2 ^ (w * r.length) * (x.toInt + σ * (y.toInt + c.toNat))
  := by
  rw [Limbs.signed_concat hw, Limbs.signed_concat hw, h.length_left, h.length_right]
  calc (value a : Int) + 2 ^ (w * r.length) * x.toInt
        + σ * (value b + 2 ^ (w * r.length) * y.toInt)
    _ = (value a + σ * value b) + 2 ^ (w * r.length) * (x.toInt + σ * y.toInt) := by ring
    _ = value r + 2 ^ (w * r.length) * (x.toInt + σ * (y.toInt + c.toNat)) := by
      rw [h.value_eq]
      ring

/-- The signed result of the whole numbers fits if and only if that of the most
significant words does. -/
theorem fits_concat
    (hw : 0 < w) (h : Exact σ a b r c) (x y : BitVec w) :
  Fits (w * (r.length + 1)) (signed (a ++ [x]) + σ * signed (b ++ [y]))
    ↔ Fits w (x.toInt + σ * (y.toInt + c.toNat))
  := by
  rw [h.signed_concat hw]
  apply Limbs.fits_concat hw
  have hlt := value_lt r
  constructor
  · omega
  · exact_mod_cast hlt

/-- The carry of an addition. -/
theorem carry_add
    (h : Exact 1 a b r c) :
  c = decide (2 ^ (w * r.length) ≤ value a + value b)
  := by
  have hlt := value_lt r
  have hval := h.value_eq
  have hnat : value a + value b = value r + c.toNat * 2 ^ (w * r.length) := by
    have : ((value a + value b : Nat) : Int) = ((value r + c.toNat * 2 ^ (w * r.length) : Nat) : Int) := by
      push_cast
      linarith
    exact_mod_cast this
  rw [hnat]
  cases c
  · symm
    apply decide_eq_false
    simp
    omega
  · symm
    apply decide_eq_true
    simp

/-- The borrow of a subtraction. -/
theorem borrow_sub
    (h : Exact (-1) a b r c) :
  c = decide (value a < value b)
  := by
  have ha := value_lt a
  have hlt := value_lt r
  rw [h.length_left] at ha
  have hval := h.value_eq
  cases c
  · symm
    apply decide_eq_false
    simp at hval
    omega
  · symm
    apply decide_eq_true
    simp at hval
    have : (value a : Int) < 2 ^ (w * r.length) := by exact_mod_cast ha
    have : (value r : Int) < 2 ^ (w * r.length) := by exact_mod_cast hlt
    omega

/-- The result of a subtraction is zero if and only if the numbers are equal. -/
theorem value_eq_zero_iff
    (h : Exact (-1) a b r c) :
  value r = 0 ↔ value a = value b
  := by
  have hb := value_lt b
  have ha := value_lt a
  rw [h.length_left] at ha
  rw [h.length_right] at hb
  have hval := h.value_eq
  have ha' : (value a : Int) < 2 ^ (w * r.length) := by exact_mod_cast ha
  have hb' : (value b : Int) < 2 ^ (w * r.length) := by exact_mod_cast hb
  have hr' : (value r : Int) < 2 ^ (w * r.length) := by exact_mod_cast value_lt r
  cases c <;> simp only [Bool.toNat_false, Bool.toNat_true] at hval <;> omega

/-- The signed comparison of the whole numbers is the sign of the difference of their
most significant words. -/
theorem signed_lt_iff
    (hw : 0 < w) (h : Exact (-1) a b r c) (x y : BitVec w) :
  signed (a ++ [x]) < signed (b ++ [y]) ↔ x.toInt - y.toInt - c.toNat < 0
  := by
  have hlt := value_lt r
  have hsigned := h.signed_concat hw x y
  have hneg := neg_concat (M := 2 ^ (w * r.length)) (x := value r)
    ⟨by omega, by exact_mod_cast hlt⟩ (x.toInt + -1 * (y.toInt + c.toNat))
  rw [← hsigned] at hneg
  constructor
  · intro hcmp
    have := hneg.mp (by linarith)
    linarith
  · intro hcmp
    have := hneg.mpr (by linarith)
    linarith

end Exact

/-! ### The digits -/

section

variable {z : BitVec w} {v : Int} {c : Bool}

/-- A sum of digits, by its residue and its carry. -/
theorem digit_add
    (hz : z = .ofInt w v) (hc : c = decide (2 ^ w ≤ v)) (hv : 0 ≤ v ∧ v < 2 * 2 ^ w) :
  v = z.toNat + c.toNat * 2 ^ w
  := by
  rw [Carry.toNat_eq_emod hz, hc]
  generalize (2 : Int) ^ w = M at *
  by_cases h : M ≤ v
  · have hmod : v % M = v - M := by
      rw [← Int.sub_emod_right, Int.emod_eq_of_lt (by omega) (by omega)]
    simp [h, hmod]
  · have hmod : v % M = v := Int.emod_eq_of_lt hv.1 (by omega)
    simp [h, hmod]

/-- A difference of digits, by its residue and its borrow. -/
theorem digit_sub
    (hz : z = .ofInt w v) (hc : c = decide (v < 0)) (hv : -2 ^ w ≤ v ∧ v < 2 ^ w) :
  v = z.toNat - c.toNat * 2 ^ w
  := by
  rw [Carry.toNat_eq_emod hz, hc]
  generalize (2 : Int) ^ w = M at *
  by_cases h : v < 0
  · have hmod : v % M = v + M := by
      rw [← Int.add_emod_right, Int.emod_eq_of_lt (by omega) (by omega)]
    simp [h, hmod]
  · have hmod : v % M = v := Int.emod_eq_of_lt (by omega) hv.2
    simp [h, hmod]

end

end Limbs
