import Mathlib.Algebra.BigOperators.Group.Finset.Basic
import Mathlib.Algebra.BigOperators.Group.List.Basic
import Mathlib.Data.Int.Bitwise
import Mathlib.Data.Nat.Bitwise

/-!
# The bits of integers

An integer has infinitely many bits, of which the low ones are those of a bit vector: a bit of an
integer is the bit of its residue (`testBit_eq_getLsbD`), and to mask the low bits of an integer is
to take its residue (`land_mask`).  A bit vector is the sum of its bits with their weights, of which
those that are zero may be left out (`sum_bits`).
-/

namespace IntBits

variable {w : Nat}

theorem testBit_eq_getLsbD
    (v : Int) {i : Nat} (hi : i < w) :
  v.testBit i = (BitVec.ofInt w v).getLsbD i
  := by
  cases v with
  | ofNat n =>
    change n.testBit i = (BitVec.ofInt w (n : Int)).getLsbD i
    rw [BitVec.ofInt_natCast, BitVec.getLsbD_ofNat, decide_eq_true hi, Bool.true_and]
  | negSucc n =>
    rw [BitVec.ofInt_negSucc_eq_not_ofNat, BitVec.getLsbD_not, BitVec.getLsbD_ofNat, decide_eq_true hi,
      Bool.true_and, Bool.true_and]
    rfl

theorem land_mask
    (v : Int) :
  v.land (2 ^ w - 1 : Nat) = (BitVec.ofInt w v).toNat
  := by
  cases v with
  | ofNat n =>
    change ((n &&& (2 ^ w - 1) : Nat) : Int) = (BitVec.ofInt w (n : Int)).toNat
    rw [BitVec.ofInt_natCast, Nat.and_two_pow_sub_one_eq_mod, BitVec.toNat_ofNat]
  | negSucc n =>
    change ((Nat.ldiff (2 ^ w - 1) n : Nat) : Int) = _
    rw [BitVec.ofInt_negSucc_eq_not_ofNat]
    congr 1
    apply Nat.eq_of_testBit_eq
    intro i
    rw [Nat.testBit_ldiff, Nat.testBit_two_pow_sub_one, BitVec.testBit_toNat, BitVec.getLsbD_not,
      BitVec.getLsbD_ofNat]
    cases decide (i < w) <;> rfl

/-! ### Single bits -/

theorem shiftRight_land_one
    (v : Int) (n : Nat) :
  (v >>> n).land 1 = (v.testBit n).toInt
  := by
  cases v with
  | ofNat m =>
    change ((m >>> n &&& 1 : Nat) : Int) = (m.testBit n).toInt
    rw [Nat.and_one_is_mod, Nat.shiftRight_eq_div_pow, Nat.testBit_eq_decide_div_mod_eq]
    rcases Nat.mod_two_eq_zero_or_one (m / 2 ^ n) with hbit | hbit <;> rw [hbit] <;> rfl
  | negSucc m =>
    change ((Nat.ldiff 1 (m >>> n) : Nat) : Int) = (!m.testBit n).toInt
    have hbit : Nat.ldiff 1 (m >>> n) = (!m.testBit n).toNat := by
      apply Nat.eq_of_testBit_eq
      intro i
      rw [Nat.testBit_ldiff, Nat.testBit_shiftRight]
      cases i with
      | zero =>
        rw [Nat.add_zero]
        cases m.testBit n <;> rfl
      | succ i => cases m.testBit n <;> simp [Nat.testBit_succ]
    rw [hbit]
    cases m.testBit n <;> rfl

theorem land_pow
    (v : Int) (n : Nat) :
  v.land (2 ^ n : Nat) = ((v.testBit n).toNat * 2 ^ n : Nat)
  := by
  cases v with
  | ofNat m =>
    change ((m &&& 2 ^ n : Nat) : Int) = _
    rw [Nat.and_two_pow]
    rfl
  | negSucc m =>
    change ((Nat.ldiff (2 ^ n) m : Nat) : Int) = ((!m.testBit n).toNat * 2 ^ n : Nat)
    congr 1
    apply Nat.eq_of_testBit_eq
    intro i
    rw [Nat.testBit_ldiff, Nat.testBit_two_pow]
    by_cases hi : n = i
    · subst hi
      cases m.testBit n <;> simp
    · cases m.testBit n <;> simp [hi]

theorem land_pow_ne_zero
    (v : Int) (n : Nat) :
  decide (v.land (2 ^ n : Nat) ≠ 0) = v.testBit n
  := by
  rw [land_pow]
  cases v.testBit n <;> simp

theorem land_pow_shiftRight
    (v : Int) (n : Nat) :
  v.land (2 ^ n : Nat) >>> n = (v.testBit n).toInt
  := by
  rw [land_pow, Int.shiftRight_eq_div_pow]
  cases v.testBit n <;> simp

theorem xor_toInt
    (a b : Bool) :
  Int.xor a.toInt b.toInt = (a ^^ b).toInt
  := by
  cases a <;> cases b <;> rfl

/-! ### Sums of bits -/

theorem toNat_eq_sum
    (x : BitVec w) :
  (x.toNat : Int) = ∑ i ∈ Finset.range w, (x.getLsbD i).toInt <<< i
  := by
  have hsum : ∀ n, ((x.toNat % 2 ^ n : Nat) : Int) = ∑ i ∈ Finset.range n, (x.getLsbD i).toInt <<< i := by
    intro n
    induction n with
    | zero =>
      rw [Finset.range_zero, Finset.sum_empty, Nat.pow_zero, Nat.mod_one]
      rfl
    | succ n ih =>
      rw [Finset.sum_range_succ, ← ih, Nat.mod_pow_succ, Nat.cast_add, ← BitVec.testBit_toNat,
        Nat.testBit_eq_decide_div_mod_eq, Int.shiftLeft_eq]
      rcases Nat.mod_two_eq_zero_or_one (x.toNat / 2 ^ n) with hbit | hbit <;> simp [hbit]
  rw [← hsum, Nat.mod_eq_of_lt x.isLt]

theorem sum_bits
    {x : BitVec w} {bits : List (Int × Nat)} (hbits : ∀ b ∈ bits, b.1 = (x.getLsbD b.2).toInt)
    (hwidth : ∀ b ∈ bits, b.2 < w) (hnodup : (bits.map Prod.snd).Nodup)
    (hothers : ∀ i < w, i ∉ bits.map Prod.snd → x.getLsbD i = false) :
  (bits.map fun b => b.1 <<< b.2).sum = x.toNat
  := by
  have hmap : (bits.map fun b => b.1 <<< b.2)
      = (bits.map Prod.snd).map fun i => (x.getLsbD i).toInt <<< i := by
    rw [List.map_map]
    apply List.map_congr_left
    intro b hb
    rw [hbits b hb]
    rfl
  rw [hmap, ← List.sum_toFinset _ hnodup, toNat_eq_sum]
  apply Finset.sum_subset
  · intro i hi
    obtain ⟨b, hb, rfl⟩ := List.mem_map.mp (List.mem_toFinset.mp hi)
    rw [Finset.mem_range]
    apply hwidth b hb
  · intro i hi hnot
    rw [List.mem_toFinset] at hnot
    rw [hothers i (Finset.mem_range.mp hi) hnot]
    exact Int.zero_shiftLeft i

end IntBits
