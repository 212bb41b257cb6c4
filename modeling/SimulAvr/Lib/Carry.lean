import Mathlib.Tactic.Common
import Mathlib.Tactic.Positivity

/-!
# Carries and overflows by bits

A machine that computes the carry or the signed overflow of an addition or a subtraction
from single bits of the operands and of the truncated result computes what the integer
sum or difference says: `carryBit_add`, `carryBit_sub`, `overflowBit_add` and
`overflowBit_sub`, for operands of any width with a carry or a borrow in.
-/

namespace Carry

variable {w : Nat}

/-- A carry or borrow in, as a summand. -/
def carryIn (w : Nat) (c : Bool) : BitVec w :=
  (BitVec.ofBool c).setWidth w

/-- The carry out of a bit at which the summands are `x`, `y` and the sum is `r`. -/
def carryBit (x y r : Bool) : Bool :=
  (x && y) || (y && !r) || (!r && x)

/-- The overflow of an addition with sign bits `x`, `y` of the summands and `r` of the
sum. -/
def overflowBit (x y r : Bool) : Bool :=
  (x && y && !r) || (!x && !y && r)

/-- The residue that a word denotes. -/
theorem toNat_eq_emod
    {x : BitVec w} {v : Int} (h : x = .ofInt w v) :
  (x.toNat : Int) = v % 2 ^ w
  := by
  have hpos : (0 : Int) < 2 ^ w := by positivity
  have hnonneg := Int.emod_nonneg v (by omega : (2 : Int) ^ w ≠ 0)
  rw [h, BitVec.toNat_ofInt, Int.toNat_of_nonneg]
  · push_cast
    rfl
  · push_cast
    apply hnonneg

theorem toNat_carryIn
    (hw : 0 < w) (c : Bool) :
  (carryIn w c).toNat = c.toNat
  := by
  rw [carryIn, BitVec.toNat_setWidth, BitVec.toNat_ofBool, Nat.mod_eq_of_lt]
  have := Nat.pow_le_pow_right (Nat.zero_lt_two) hw
  have := Bool.toNat_lt c
  omega

/-- The carry out of the low `i + 1` bits of a sum with carry in. -/
theorem carryBit_add
    (x y : BitVec w) (c : Bool) {i : Nat} (hi : i < w) :
  carryBit (x.getLsbD i) (y.getLsbD i) ((x + y + carryIn w c).getLsbD i)
    = decide (2 ^ (i + 1) ≤ x.toNat % 2 ^ (i + 1) + y.toNat % 2 ^ (i + 1) + c.toNat)
  := by
  change _ = BitVec.carry (i + 1) x y c
  rw [BitVec.carry_succ, carryIn, BitVec.getLsbD_add_add_bool hi]
  generalize BitVec.carry i x y c = k
  cases x.getLsbD i <;> cases y.getLsbD i <;> cases k <;> rfl

/-- A difference with borrow in, added to the subtrahend and the borrow, is the
minuend. -/
theorem sub_sub_add
    (x y : BitVec w) (c : Bool) :
  x - y - carryIn w c + y + carryIn w c = x
  := by
  rw [BitVec.add_assoc, BitVec.add_comm y, ← BitVec.add_assoc, BitVec.sub_add_cancel,
    BitVec.sub_add_cancel]

/-- The borrow out of the low `i + 1` bits of a difference with borrow in. -/
theorem carryBit_sub
    (x y : BitVec w) (c : Bool) {i : Nat} (hi : i < w) :
  carryBit ((x - y - carryIn w c).getLsbD i) (y.getLsbD i) (x.getLsbD i)
    = decide (x.toNat % 2 ^ (i + 1) < y.toNat % 2 ^ (i + 1) + c.toNat)
  := by
  have hcarry := carryBit_add (x - y - carryIn w c) y c hi
  have hx := congrArg BitVec.toNat (sub_sub_add x y c)
  rw [sub_sub_add] at hcarry
  rw [hcarry]
  rw [BitVec.toNat_add, BitVec.toNat_add, toNat_carryIn (by omega)] at hx
  generalize (x - y - carryIn w c).toNat = d at hx ⊢
  have hdvd : 2 ^ (i + 1) ∣ 2 ^ w := Nat.pow_dvd_pow 2 hi
  have hmod : x.toNat % 2 ^ (i + 1)
      = (d % 2 ^ (i + 1) + y.toNat % 2 ^ (i + 1) + c.toNat) % 2 ^ (i + 1) := by
    rw [← hx, Nat.mod_mod_of_dvd _ hdvd]
    simp [Nat.add_mod, Nat.mod_mod_of_dvd _ hdvd]
  have hpos : 0 < 2 ^ (i + 1) := Nat.two_pow_pos _
  have hd := Nat.mod_lt d hpos
  have hy := Nat.mod_lt y.toNat hpos
  have hc := Bool.toNat_lt c
  generalize 2 ^ (i + 1) = p at *
  generalize d % p = d' at *
  generalize y.toNat % p = y' at *
  congr 1
  rw [hmod, eq_iff_iff]
  by_cases hlt : d' + y' + c.toNat < p
  · rw [Nat.mod_eq_of_lt hlt]
    omega
  · rw [Nat.mod_eq_sub_mod (by omega), Nat.mod_eq_of_lt (by omega)]
    omega

/-! ### Overflow -/

/-- The values of a signed integer of `w` bits. -/
def Fits (w : Nat) (v : Int) : Prop :=
  -2 ^ (w - 1) ≤ v ∧ v < 2 ^ (w - 1)

instance (w : Nat) (v : Int) : Decidable (Fits w v) :=
  inferInstanceAs (Decidable (_ ∧ _))

theorem two_pow_eq
    (hw : 0 < w) :
  2 ^ w = 2 * 2 ^ (w - 1)
  := by
  rw [← Nat.pow_succ']
  congr 1
  omega

/-- The value of a sum with carry in. -/
theorem toNat_add_carryIn
    (hw : 0 < w) (x y : BitVec w) (c : Bool) :
  (x + y + carryIn w c).toNat = if x.toNat + y.toNat + c.toNat < 2 ^ w
    then x.toNat + y.toNat + c.toNat else x.toNat + y.toNat + c.toNat - 2 ^ w
  := by
  have hx := x.isLt
  have hy := y.isLt
  have hc := Bool.toNat_lt c
  have hpos := Nat.two_pow_pos w
  rw [BitVec.toNat_add, BitVec.toNat_add, toNat_carryIn hw, Nat.mod_add_mod]
  split
  · apply Nat.mod_eq_of_lt
    assumption
  · rw [Nat.mod_eq_sub_mod (by omega), Nat.mod_eq_of_lt (by omega)]

/-- A sum with carry in overflows exactly when the signed sum does not fit. -/
theorem overflowBit_add
    (hw : 0 < w) (x y : BitVec w) (c : Bool) :
  overflowBit x.msb y.msb (x + y + carryIn w c).msb
    = decide (¬ Fits w (x.toInt + y.toInt + c.toNat))
  := by
  have hx := x.isLt
  have hy := y.isLt
  have hc := Bool.toNat_lt c
  have hcast : (2 : Int) ^ (w - 1) = (2 ^ (w - 1) : Nat) := by simp
  rw [Bool.eq_iff_iff, decide_eq_true_iff]
  simp only [Fits, overflowBit]
  rw [hcast, BitVec.toInt_eq_toNat_cond, BitVec.toInt_eq_toNat_cond]
  rw [BitVec.msb_eq_decide, BitVec.msb_eq_decide, BitVec.msb_eq_decide]
  rw [toNat_add_carryIn hw, two_pow_eq hw]
  rw [two_pow_eq hw] at hx hy
  generalize 2 ^ (w - 1) = p at *
  simp only [Bool.or_eq_true, Bool.and_eq_true, Bool.not_eq_true', decide_eq_true_iff,
    decide_eq_false_iff_not]
  push_cast
  split <;> split <;> split <;> omega

/-- A difference with borrow in overflows exactly when the signed difference does not
fit. -/
theorem overflowBit_sub
    (hw : 0 < w) (x y : BitVec w) (c : Bool) :
  overflowBit (x - y - carryIn w c).msb y.msb x.msb
    = decide (¬ Fits w (x.toInt - y.toInt - c.toNat))
  := by
  have hadd := overflowBit_add hw (x - y - carryIn w c) y c
  have hsum := toNat_add_carryIn hw (x - y - carryIn w c) y c
  rw [sub_sub_add] at hadd hsum
  rw [hadd]
  congr 1
  generalize x - y - carryIn w c = d at *
  have hd := d.isLt
  have hy := y.isLt
  have hc := Bool.toNat_lt c
  have hcast : (2 : Int) ^ (w - 1) = (2 ^ (w - 1) : Nat) := by simp
  simp only [Fits]
  rw [hcast, BitVec.toInt_eq_toNat_cond, BitVec.toInt_eq_toNat_cond,
    BitVec.toInt_eq_toNat_cond, hsum]
  rw [two_pow_eq hw] at hd hy ⊢
  generalize 2 ^ (w - 1) = p at *
  rw [eq_iff_iff]
  push_cast
  split <;> split <;> split <;> split <;> omega

/-- The sign bit of a residue and the overflow tell the sign of the integer. -/
theorem sign_xor_overflow
    (hw : 0 < w) {v : Int} (hv : -2 ^ w ≤ v ∧ v < 2 ^ w) :
  (decide (2 ^ (w - 1) ≤ v % 2 ^ w) ^^ decide (¬ Fits w v)) = decide (v < 0)
  := by
  have hpow : (2 : Int) ^ w = 2 * 2 ^ (w - 1) := by exact_mod_cast two_pow_eq hw
  have hpos : (0 : Int) < 2 ^ (w - 1) := by positivity
  have hfits : Fits w v ↔ -2 ^ (w - 1) ≤ v ∧ v < 2 ^ (w - 1) := Iff.rfl
  by_cases hneg : v < 0
  · have hmod : v % 2 ^ w = v + 2 ^ w := by
      rw [← Int.add_emod_right, Int.emod_eq_of_lt (by omega) (by omega)]
    rw [hmod, decide_eq_true hneg]
    by_cases hle : 2 ^ (w - 1) ≤ v + 2 ^ w
    · have hfit : ¬ ¬ Fits w v := by
        rw [hfits]
        omega
      rw [decide_eq_true hle, decide_eq_false hfit]
      rfl
    · have hfit : ¬ Fits w v := by
        rw [hfits]
        omega
      rw [decide_eq_false hle, decide_eq_true hfit]
      rfl
  · have hmod : v % 2 ^ w = v := Int.emod_eq_of_lt (by omega) hv.2
    rw [hmod, decide_eq_false hneg]
    by_cases hle : 2 ^ (w - 1) ≤ v
    · have hfit : ¬ Fits w v := by
        rw [hfits]
        omega
      rw [decide_eq_true hle, decide_eq_true hfit]
      rfl
    · have hfit : ¬ ¬ Fits w v := by
        rw [hfits]
        omega
      rw [decide_eq_false hle, decide_eq_false hfit]
      rfl

end Carry
