import Mathlib.Data.BitVec

/-!
# Masks

The test `x & (1 << i)` of the sources, what the operations on words do to the bit, and the
clearing of the bits of a mask.
-/

namespace BitMask

variable {w : Nat} (x : BitVec w) (i : Nat)

/-- A test of the bit by its mask -/
theorem and_twoPow_ne_zero :
  x &&& BitVec.twoPow w i ≠ 0 ↔ x.getLsbD i = true
  := by
  rw [BitVec.and_twoPow]
  cases h : x.getLsbD i with
  | false => simp
  | true =>
    have hi : i < w := BitVec.lt_of_getLsbD h
    have hbit : (BitVec.twoPow w i).getLsbD i = true := by
      rw [BitVec.getLsbD_twoPow]
      simp [hi]
    simp only [if_true, iff_true]
    intro hzero
    rw [hzero] at hbit
    simp at hbit

/-- The bits below a power of two are those of the remainder. -/
theorem ofNat_and_two_pow_sub_one_eq_zero_iff
    {k : Nat} (hk : k ≤ w) (n : Nat) :
  BitVec.ofNat w n &&& BitVec.ofNat w (2 ^ k - 1) = 0 ↔ 2 ^ k ∣ n
  := by
  have hpow : 2 ^ k ∣ 2 ^ w := Nat.pow_dvd_pow 2 hk
  have hlt : 2 ^ k - 1 < 2 ^ w := by
    have hle := Nat.le_of_dvd (Nat.two_pow_pos w) hpow
    have hpos := Nat.two_pow_pos k
    omega
  rw [← BitVec.toNat_inj, BitVec.toNat_and, BitVec.toNat_ofNat, BitVec.toNat_ofNat,
    Nat.mod_eq_of_lt hlt, Nat.and_two_pow_sub_one_eq_mod, Nat.mod_mod_of_dvd n hpow,
    Nat.dvd_iff_mod_eq_zero]
  rfl

/-- Clearing the bits of a mask changes nothing exactly when none of them is set. -/
theorem and_not_eq_self_iff
    (x mask : BitVec w) :
  x &&& ~~~mask = x ↔ x &&& mask = 0
  := by
  constructor
  · intro h
    rw [← h, BitVec.and_assoc]
    simp
  · intro h
    ext i hi
    have hbit := congrArg (BitVec.getLsbD · i) h
    simp only [BitVec.getLsbD_eq_getElem hi] at hbit
    simp at hbit ⊢
    exact hbit

/-- The bits that are left have those of a mask apart. -/
theorem not_and_eq_self
    {mask other : BitVec w} (h : mask &&& other = 0) :
  ~~~mask &&& other = other
  := by
  rw [BitVec.and_comm, and_not_eq_self_iff, BitVec.and_comm]
  exact h

end BitMask
