import SimulAvr.Alu.Flags
import SimulAvr.Lib.IntBits

/-!
# The expected values of SREG

The test cases compute the value that they expect in SREG with the integers of Python: a flag is a
bit of a combination of the operands and the result, and SREG is the sum of the flags.  The
integers are those of the operands and of the exact result, of which the bits of a byte are the
bits that the simulator computes with.
-/

namespace SimulAvr

open IntBits

/-! ### Sums of flags -/

/-- `expect_sreg`, after `expect_sreg += val << bit` for some values and bits -/
def sumSreg (flags : List (Int × Nat)) : Int :=
  (flags.map fun f => f.1 <<< f.2).sum

/-- `(v >> n) & 1` -/
def bitAt (v : Int) (n : Nat) : Int :=
  (v >>> n).land 1

/-- `(expect & 0x80) != 0` -/
def signBit (expect : Int) : Int :=
  (decide (expect.land 0x80 ≠ 0)).toInt

/-- `expect == 0` -/
def isZero (expect : Int) : Int :=
  (decide (expect = 0)).toInt

/-- The value of Z that a test case of a subtraction with carry expects -/
def expectZ (expect : Int) (Z : Bool) : Int :=
  if expect = 0 then Z.toInt else 0

/-- The expected flags of ADC and ADD, `res` of which is not cut to a byte -/
def addSreg (Vd Vr res : Int) : Int :=
  let expect := res.land 0xff
  let H := bitAt (((Vd.land Vr).lor (Vr.land res.lnot)).lor (res.lnot.land Vd)) 3
  let V := bitAt (((Vd.land Vr).land res.lnot).lor ((Vd.lnot.land Vr.lnot).land res)) 7
  let N := signBit expect
  sumSreg [(H, SREG.H), (V, SREG.V), (N, SREG.N), (N.xor V, SREG.S), (isZero expect, SREG.Z),
    ((decide (res > 0xff)).toInt, SREG.C)]

/-- The expected flags of the subtractions and comparisons, where `Z` is the value of that flag -/
def subSreg (Vd Vr res expect Z : Int) : Int :=
  let carry := ((Vd.lnot.land Vr).lor (Vr.land res)).lor (res.land Vd.lnot)
  let H := bitAt carry 3
  let C := bitAt carry 7
  let V := bitAt (((Vd.land Vr.lnot).land res.lnot).lor ((Vd.lnot.land Vr).land res)) 7
  let N := signBit expect
  sumSreg [(H, SREG.H), (V, SREG.V), (N, SREG.N), (N.xor V, SREG.S), (C, SREG.C), (Z, SREG.Z)]

/-- The expected flags of the logical operations -/
def logicSreg (expect : Int) : Int :=
  let V : Int := 0
  let N := signBit expect
  sumSreg [(N, SREG.N), (N.xor V, SREG.S), (isZero expect, SREG.Z)]

/-- The expected flags of ASR and ROR -/
def shiftSreg (expect C : Int) : Int :=
  let N := signBit expect
  let V := N.xor C
  sumSreg [(N.xor V, SREG.S), (V, SREG.V), (N, SREG.N), (isZero expect, SREG.Z), (C, SREG.C)]

/-- The expected flags of DEC and INC -/
def incrSreg (expect V : Int) : Int :=
  let N := signBit expect
  sumSreg [(V, SREG.V), (N, SREG.N), (N.xor V, SREG.S), (isZero expect, SREG.Z)]

/-- The expected flags of the multiplications -/
def mulSreg (expect : Int) : Int :=
  let C := (expect.land 0x8000) >>> 15
  sumSreg [(isZero expect, SREG.Z), (C, SREG.C)]

/-! ### Bits -/

theorem bitAt_eq
    (v : Int) (n : Nat) :
  bitAt v n = (v.testBit n).toInt
  := shiftRight_land_one v n

theorem testBit_toNat
    (b : Byte) (n : Nat) :
  (b.toNat : Int).testBit n = b.getLsbD n
  := rfl

theorem land_byte
    (v : Int) :
  v.land 0xff = (BitVec.ofInt 8 v).toNat
  := land_mask (w := 8) v

theorem signBit_toNat
    (b : Byte) :
  signBit b.toNat = (b.getLsbD 7).toInt
  := by
  have hbit := land_pow_ne_zero b.toNat 7
  rw [signBit]
  exact congrArg Bool.toInt hbit

theorem toNat_eq_zero
    {w : Nat} (b : BitVec w) :
  (b.toNat : Int) = 0 ↔ b = 0
  := by
  rw [Nat.cast_eq_zero, ← BitVec.toNat_inj]
  rfl

theorem isZero_toNat
    {w : Nat} (b : BitVec w) :
  isZero b.toNat = (decide (b = 0)).toInt
  := by
  rw [isZero, decide_eq_decide.mpr (toNat_eq_zero b)]

theorem expectZ_toNat
    (b : Byte) (Z : Bool) :
  expectZ b.toNat Z = (decide (b = 0) && Z).toInt
  := by
  rw [expectZ, if_congr (toNat_eq_zero b) rfl rfl]
  by_cases hb : b = 0
  · rw [if_pos hb, decide_eq_true hb, Bool.true_and]
  · rw [if_neg hb, decide_eq_false hb, Bool.false_and]
    rfl

/-! ### The flags of the simulator -/

section

variable {s : Byte} {flags : List (Int × Nat)}

/-- The sum of bits of SREG, of which the others are clear -/
theorem sumSreg_eq
    (bits others : List Nat) (hmap : flags.map Prod.snd = bits)
    (hperm : (bits ++ others).Perm (List.range 8))
    (hbits : ∀ f ∈ flags, f.1 = (s.getLsbD f.2).toInt) (hothers : ∀ i ∈ others, s.getLsbD i = false) :
  sumSreg flags = s.toNat
  := by
  subst hmap
  have hnodup := (hperm.nodup_iff.mpr List.nodup_range).of_append_left
  apply sum_bits hbits _ hnodup
  · intro i hi hnot
    have hmem := hperm.mem_iff.mpr (List.mem_range.mpr hi)
    exact hothers i ((List.mem_append.mp hmem).resolve_left hnot)
  · intro f hf
    exact List.mem_range.mp (hperm.mem_iff.mp (List.mem_append_left _ (List.mem_map_of_mem hf)))

end

/-- A byte of which only the carry or the zero bit may be set -/
theorem getLsbD_low
    {s : Byte} (hs : s.toNat < 4) {i : Nat} (hi : 2 ≤ i) :
  s.getLsbD i = false
  := by
  have hpow : 2 ^ 2 ≤ 2 ^ i := Nat.pow_le_pow_right (by decide) hi
  exact Nat.testBit_lt_two_pow (by omega)

/-- The bits that no arithmetic operation changes -/
theorem getLsbD_addFlags_upper
    {s : Byte} (hs : s.toNat < 4) (res rd rr : Byte) :
  ∀ i ∈ [SREG.T, SREG.I], (addFlags res rd rr s).getLsbD i = false
  := by
  simp only [List.forall_mem_cons, addFlags]
  repeat rw [getLsbD_setBitInByte _ (by decide)]
  exact ⟨getLsbD_low hs (by decide), getLsbD_low hs (by decide), List.forall_mem_nil _⟩

/-- The expected flags of an addition are those of the simulator. -/
theorem addSreg_eq
    (Vd Vr : Byte) (c : Bool) {s : Byte} (hs : s.toNat < 4) :
  addSreg Vd.toNat Vr.toNat (Vd.toNat + Vr.toNat + c.toNat)
    = (addFlags (Vd + Vr + Carry.carryIn 8 c) Vd Vr s).toNat
  := by
  have hres := ofInt_add Vd Vr c
  have hcarry := getAddCarry_seven Vd Vr c
  generalize (Vd.toNat : Int) + Vr.toNat + c.toNat = v at hres hcarry
  generalize Vd + Vr + Carry.carryIn 8 c = res at hres hcarry
  have hbit : ∀ i < 8, v.testBit i = res.getLsbD i := by
    intro i hi
    rw [testBit_eq_getLsbD v hi, hres]
  rw [addSreg, land_byte, ← hres]
  apply sumSreg_eq [SREG.H, SREG.V, SREG.N, SREG.S, SREG.Z, SREG.C] [SREG.T, SREG.I] rfl (by decide)
  · simp only [List.forall_mem_cons, bitAt_eq, signBit_toNat, isZero_toNat, Int.testBit_lor,
      Int.testBit_land, Int.testBit_lnot, testBit_toNat, hbit 3 (by decide), hbit 7 (by decide),
      xor_toInt, addFlags]
    repeat rw [getLsbD_setBitInByte _ (by decide)]
    refine ⟨rfl, rfl, rfl, rfl, rfl, ?_, List.forall_mem_nil _⟩
    rw [hcarry]
    rfl
  · exact getLsbD_addFlags_upper hs res Vd Vr

/-- The expected flags of a subtraction, of whose result `v` is an integer with the same bits -/
theorem subSreg_eq
    (Vd Vr : Byte) {res : Byte} {v : Int} (hv : BitVec.ofInt 8 v = res) (Z : Bool) {s : Byte}
    (hs : s.toNat < 4) :
  subSreg Vd.toNat Vr.toNat v res.toNat Z.toInt
    = (setBitInByte (subFlags res Vd Vr s) SREG.Z Z).toNat
  := by
  have hbit : ∀ i < 8, v.testBit i = res.getLsbD i := by
    intro i hi
    rw [testBit_eq_getLsbD v hi, hv]
  apply sumSreg_eq [SREG.H, SREG.V, SREG.N, SREG.S, SREG.C, SREG.Z] [SREG.T, SREG.I] rfl (by decide)
  · simp only [List.forall_mem_cons, bitAt_eq, signBit_toNat, Int.testBit_lor, Int.testBit_land,
      Int.testBit_lnot, testBit_toNat, hbit 3 (by decide), hbit 7 (by decide), xor_toInt, subFlags]
    repeat rw [getLsbD_setBitInByte _ (by decide)]
    exact ⟨rfl, rfl, rfl, rfl, rfl, rfl, List.forall_mem_nil _⟩
  · simp only [List.forall_mem_cons, subFlags]
    repeat rw [getLsbD_setBitInByte _ (by decide)]
    exact ⟨getLsbD_low hs (by decide), getLsbD_low hs (by decide), List.forall_mem_nil _⟩

/-- The expected flags of the logical operations, before which V is set -/
theorem logicSreg_eq :
  ∀ expect : Byte, logicSreg expect.toNat = (logicFlags expect 0x08).toNat
  := by
  decide +kernel

/-- The expected flags of the multiplications -/
theorem mulSreg_eq
    (expect : Word) :
  mulSreg expect.toNat
    = (setBitInByte (setBitInByte 0 SREG.Z (expect = 0)) SREG.C (expect.getLsbD 15)).toNat
  := by
  have hbit : (expect.toNat : Int).land 0x8000 >>> 15 = (expect.getLsbD 15).toInt :=
    land_pow_shiftRight expect.toNat 15
  rw [mulSreg, hbit, isZero_toNat]
  generalize decide (expect = 0) = Z
  generalize expect.getLsbD 15 = C
  revert Z C
  decide

end SimulAvr
