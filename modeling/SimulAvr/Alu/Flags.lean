import Mathlib.Tactic.IntervalCases
import Mathlib.Tactic.Positivity
import Mathlib.Tactic.NormNum
import SimulAvr.Alu.Reference
import SimulAvr.Decoder.Alu

/-!
# The flags of the simulator and of the reference

The status registers that the handlers compute bit by bit are those that the reference
states by arithmetic facts.
-/

namespace SimulAvr

open Carry (Fits toNat_eq_emod)

namespace Flags

/-- The bits of a status register to which flags are written. -/
theorem getLsbD_apply
    (flags : Flags) (sreg : Byte) {i : Nat} (hi : i < 8) :
  (flags.apply sreg).getLsbD i = flags.bit sreg i
  := by
  rw [apply, BitVec.getLsbD_ofBoolListLE]
  interval_cases i <;> rfl

/-- A status register whose bits are those of the flags. -/
theorem eq_apply
    {flags : Flags} {sreg x : Byte} (h : ∀ i < 8, x.getLsbD i = flags.bit sreg i) :
  x = flags.apply sreg
  := by
  apply byte_ext
  intro i hi
  rw [getLsbD_apply _ _ hi, h i hi]

/-- Without flags, nothing changes. -/
theorem apply_nil
    (sreg : Byte) :
  apply [] sreg = sreg
  := by
  symm
  apply eq_apply
  intro i _
  rfl

/-- One flag is a bit of the status register. -/
theorem apply_singleton
    (sreg : Byte) {b : Nat} (hb : b < 8) (v : Bool) :
  setBitInByte sreg b v = apply [(b, v)] sreg
  := by
  apply eq_apply
  intro i _
  rw [getLsbD_setBitInByte _ hb]
  split
  · next heq => simp [bit, heq]
  · next hne =>
    have hb : (i == b) = false := by simpa using hne
    simp [bit, hb, List.lookup_cons]

/-- Writing a flag again changes nothing. -/
theorem apply_cons_of_lookup
    {flags : Flags} {b : Nat} {v : Bool} (h : flags.lookup b = some v) (sreg : Byte) :
  apply ((b, v) :: flags) sreg = apply flags sreg
  := by
  symm
  apply eq_apply
  intro i hi
  rw [getLsbD_apply _ _ hi]
  by_cases hib : i = b
  · simp [bit, hib, h]
  · have hb : (i == b) = false := by simpa using hib
    simp [bit, hb, List.lookup_cons]

end Flags

/-! ### The result -/

section

variable {w : Nat} {res : BitVec w} {value : Int}

/-- A result is zero if and only if its residue is. -/
theorem decide_eq_zero
    (h : res = .ofInt w value) :
  decide (res = 0) = decide (value % 2 ^ w = 0)
  := by
  rw [decide_eq_decide, ← toNat_eq_emod h, ← BitVec.toNat_inj]
  simp

/-- The flags of a result, by the bits of the result. -/
theorem resultFlags_eq
    (h : res = .ofInt w value) (V : Bool) :
  Reference.resultFlags w value V =
    [(SREG.N, res.msb), (SREG.V, V), (SREG.S, res.msb ^^ V), (SREG.Z, decide (res = 0))]
  := by
  have hN : res.msb = decide (2 ^ (w - 1) ≤ value % 2 ^ w) := by
    rw [BitVec.msb_eq_decide, ← toNat_eq_emod h]
    norm_cast
  rw [hN, decide_eq_zero h]
  rfl

end

/-! ### Additions -/

section

variable (rd rr : Byte) (c : Bool)

/-- A byte as a summand, with or without carry in. -/
theorem ofInt_add :
  rd + rr + Carry.carryIn 8 c = .ofInt 8 (rd.toNat + rr.toNat + c.toNat)
  := by
  rw [BitVec.ofInt_add, BitVec.ofInt_add]
  simp only [BitVec.ofInt_natCast, BitVec.ofNat_toNat, BitVec.setWidth_eq]
  cases c <;> rfl

theorem add_carryIn_false :
  rd + rr + Carry.carryIn 8 false = rd + rr
  := by
  simp [Carry.carryIn]

theorem getAddCarry_seven :
  getAddCarry (rd + rr + Carry.carryIn 8 c) rd rr 7
    = decide ((2 : Int) ^ 8 ≤ rd.toNat + rr.toNat + c.toNat)
  := by
  have h := Carry.carryBit_add rd rr c (by omega : 7 < 8)
  rw [Nat.mod_eq_of_lt rd.isLt, Nat.mod_eq_of_lt rr.isLt] at h
  rw [show getAddCarry _ rd rr 7 = _ from h]
  congr 1
  norm_cast

theorem getAddCarry_three :
  getAddCarry (rd + rr + Carry.carryIn 8 c) rd rr 3
    = decide ((2 : Int) ^ 4 ≤ rd.toNat % 2 ^ 4 + rr.toNat % 2 ^ 4 + c.toNat)
  := by
  have h := Carry.carryBit_add rd rr c (by omega : 3 < 8)
  rw [show getAddCarry _ rd rr 3 = _ from h]
  congr 1
  norm_cast

theorem getAddOverflow_eq :
  getAddOverflow (rd + rr + Carry.carryIn 8 c) rd rr
    = decide (¬ Fits 8 (rd.toInt + rr.toInt + c.toNat))
  := by
  have h := Carry.overflowBit_add (by omega : 0 < 8) rd rr c
  rw [← h]
  rfl

/-- The flags of an addition with carry in are those of the reference. -/
theorem addFlags_eq
    (d : Fin 32) (sreg : Byte) :
  addFlags (rd + rr + Carry.carryIn 8 c) rd rr sreg
    = (Reference.add d rd.toNat rr.toNat rd.toInt rr.toInt c.toNat).flags.apply sreg
  := by
  simp only [Reference.add, Reference.intFlags]
  rw [resultFlags_eq (ofInt_add rd rr c)]
  rw [← getAddCarry_seven, ← getAddCarry_three, ← getAddOverflow_eq]
  apply Flags.eq_apply
  intro i hi
  simp only [addFlags]
  repeat rw [getLsbD_setBitInByte _ (by decide)]
  interval_cases i <;> rfl

end

/-! ### Subtractions -/

section

variable (rd rr : Byte) (c : Bool)

/-- A difference of bytes, with or without borrow in. -/
theorem ofInt_sub :
  rd - rr - Carry.carryIn 8 c = .ofInt 8 (rd.toNat - rr.toNat - c.toNat)
  := by
  rw [BitVec.sub_eq_add_neg, BitVec.sub_eq_add_neg, Int.sub_eq_add_neg, Int.sub_eq_add_neg,
    BitVec.ofInt_add, BitVec.ofInt_add, BitVec.ofInt_neg, BitVec.ofInt_neg]
  simp only [BitVec.ofInt_natCast, BitVec.ofNat_toNat, BitVec.setWidth_eq]
  cases c <;> rfl

theorem sub_carryIn_false :
  rd - rr - Carry.carryIn 8 false = rd - rr
  := by
  simp [Carry.carryIn]

theorem getSubCarry_seven :
  getSubCarry (rd - rr - Carry.carryIn 8 c) rd rr 7
    = decide ((rd.toNat : Int) - rr.toNat - c.toNat < 0)
  := by
  have h := Carry.carryBit_sub rd rr c (by omega : 7 < 8)
  rw [Nat.mod_eq_of_lt rd.isLt, Nat.mod_eq_of_lt rr.isLt] at h
  rw [decide_eq_decide.mpr (by omega : (rd.toNat : Int) - rr.toNat - c.toNat < 0
    ↔ rd.toNat < rr.toNat + c.toNat), ← h]
  simp only [getSubCarry, Carry.carryBit]
  generalize (rd - rr - Carry.carryIn 8 c).getLsbD 7 = x
  cases x <;> cases rd.getLsbD 7 <;> cases rr.getLsbD 7 <;> rfl

theorem getSubCarry_three :
  getSubCarry (rd - rr - Carry.carryIn 8 c) rd rr 3
    = decide ((rd.toNat : Int) % 2 ^ 4 - rr.toNat % 2 ^ 4 - c.toNat < 0)
  := by
  have h := Carry.carryBit_sub rd rr c (by omega : 3 < 8)
  rw [decide_eq_decide.mpr (by omega : (rd.toNat : Int) % 2 ^ 4 - rr.toNat % 2 ^ 4 - c.toNat < 0
    ↔ rd.toNat % 2 ^ 4 < rr.toNat % 2 ^ 4 + c.toNat), ← h]
  simp only [getSubCarry, Carry.carryBit]
  generalize (rd - rr - Carry.carryIn 8 c).getLsbD 3 = x
  cases x <;> cases rd.getLsbD 3 <;> cases rr.getLsbD 3 <;> rfl

theorem getSubOverflow_eq :
  getSubOverflow (rd - rr - Carry.carryIn 8 c) rd rr
    = decide (¬ Fits 8 (rd.toInt - rr.toInt - c.toNat))
  := by
  have h := Carry.overflowBit_sub (by omega : 0 < 8) rd rr c
  rw [← h]
  change _ = Carry.overflowBit (BitVec.getLsbD _ 7) (BitVec.getLsbD _ 7) (BitVec.getLsbD _ 7)
  simp only [getSubOverflow, Carry.overflowBit]
  generalize (rd - rr - Carry.carryIn 8 c).getLsbD 7 = x
  cases x <;> cases rd.getLsbD 7 <;> cases rr.getLsbD 7 <;> rfl

/-- The flags of a subtraction with borrow in are those of the reference, the bit Z
apart. -/
theorem subFlags_eq
    (sreg : Byte) (Z : Bool) :
  setBitInByte (subFlags (rd - rr - Carry.carryIn 8 c) rd rr sreg) SREG.Z Z
    = Flags.apply ((SREG.Z, Z)
        :: Reference.subFlags rd.toNat rr.toNat rd.toInt rr.toInt c.toNat) sreg
  := by
  simp only [Reference.subFlags, Reference.intFlags]
  rw [resultFlags_eq (ofInt_sub rd rr c)]
  rw [← getSubCarry_seven, ← getSubCarry_three, ← getSubOverflow_eq]
  apply Flags.eq_apply
  intro i hi
  simp only [subFlags]
  repeat rw [getLsbD_setBitInByte _ (by decide)]
  interval_cases i <;> rfl

end

section

variable (rd rr sreg : Byte)

/-- The status register of SUB and SUBI. -/
theorem subOp_flags :
  (subOp rd rr sreg).2
    = (Reference.subFlags rd.toNat rr.toNat rd.toInt rr.toInt 0).apply sreg
  := by
  have h := subFlags_eq rd rr false sreg (rd - rr = 0)
  rw [sub_carryIn_false] at h
  rw [subOp, h, Flags.apply_cons_of_lookup]
  · rfl
  · have hZ := congrArg (List.lookup SREG.Z) (resultFlags_eq (ofInt_sub rd rr false) false)
    rw [sub_carryIn_false] at hZ
    apply hZ

/-- The subtraction flags leave Z. -/
theorem getLsbD_subFlags_Z
    (res : Byte) :
  (subFlags res rd rr sreg).getLsbD SREG.Z = sreg.getLsbD SREG.Z
  := by
  simp only [subFlags]
  repeat rw [getLsbD_setBitInByte _ (by decide)]
  rfl

/-- The status register of SBC and SBCI. -/
theorem sbcOp_flags :
  (sbcOp rd rr sreg).2
    = (Reference.sbcFlags (sreg.getLsbD SREG.Z) rd.toNat rr.toNat rd.toInt rr.toInt
        (sreg.getLsbD SREG.C).toNat).apply sreg
  := by
  have h := subFlags_eq rd rr (sreg.getLsbD SREG.C) sreg
    (sreg.getLsbD SREG.Z && decide (rd - rr - carryIn sreg = 0))
  have hZ := decide_eq_zero (ofInt_sub rd rr (sreg.getLsbD SREG.C))
  rw [Reference.sbcFlags, ← hZ]
  rw [show Carry.carryIn 8 (sreg.getLsbD SREG.C) = carryIn sreg from rfl] at *
  rw [← h]
  simp only [sbcOp]
  by_cases hres : rd - rr - carryIn sreg = 0
  · rw [if_neg (not_not.mpr hres), decide_eq_true hres, Bool.and_true]
    rw [← getLsbD_subFlags_Z rd rr sreg, setBitInByte_self _ (by decide)]
  · rw [if_pos hres, decide_eq_false hres, Bool.and_false]

/-- The status register of CP and CPI is that of SUB. -/
theorem cpOp_eq :
  cpOp rd rr sreg = (subOp rd rr sreg).2
  := rfl

/-- The status register of CPC is that of SBC. -/
theorem cpcOp_eq :
  cpcOp rd rr sreg = (sbcOp rd rr sreg).2
  := by
  simp only [cpcOp, sbcOp]
  rw [show compareFlags = subFlags from rfl]
  by_cases hres : rd - rr - carryIn sreg = 0
  · rw [if_neg (not_not.mpr hres), decide_eq_true hres, Bool.true_and]
    rw [← getLsbD_subFlags_Z rd rr sreg, setBitInByte_self _ (by decide)]
  · rw [if_pos hres, decide_eq_false hres, Bool.false_and]

end

/-! ### Results without carry -/

section

variable {res : Byte} {value : Int}

theorem logicFlags_eq
    (h : res = .ofInt 8 value) (sreg : Byte) :
  logicFlags res sreg = (Reference.resultFlags 8 value false).apply sreg
  := by
  rw [resultFlags_eq h]
  apply Flags.eq_apply
  intro i hi
  simp only [logicFlags]
  repeat rw [getLsbD_setBitInByte _ (by decide)]
  interval_cases i <;> rfl

theorem shiftFlags_eq
    (h : res = .ofInt 8 value) (C : Bool) (sreg : Byte) :
  shiftFlags res C sreg = (Reference.shiftRightFlags value C).apply sreg
  := by
  have hN := congrArg (List.lookup SREG.N) (resultFlags_eq h false)
  rw [show (List.lookup SREG.N _ = _) = (some (decide _) = some _) from rfl] at hN
  rw [Reference.shiftRightFlags, Option.some.inj hN, resultFlags_eq h]
  apply Flags.eq_apply
  intro i hi
  simp only [shiftFlags]
  repeat rw [getLsbD_setBitInByte _ (by decide)]
  interval_cases i <;> rfl

theorem incrFlags_eq
    (h : res = .ofInt 8 value) (V : Bool) (sreg : Byte) :
  incrFlags res V sreg = (Reference.resultFlags 8 value V).apply sreg
  := by
  rw [resultFlags_eq h]
  apply Flags.eq_apply
  intro i hi
  simp only [incrFlags]
  repeat rw [getLsbD_setBitInByte _ (by decide)]
  interval_cases i <;> rfl

end

theorem wordFlags_eq
    {res : Word} {value : Int} (h : res = .ofInt 16 value) (V C : Bool) (sreg : Byte) :
  wordFlags res V C sreg
    = Flags.apply ((SREG.C, C) :: Reference.resultFlags 16 value V) sreg
  := by
  rw [resultFlags_eq h]
  apply Flags.eq_apply
  intro i hi
  simp only [wordFlags]
  repeat rw [getLsbD_setBitInByte _ (by decide)]
  interval_cases i <;> rfl

/-! ### Operations on one register -/

section

-- for the facts about every byte
set_option maxRecDepth 10000

variable (rd sreg : Byte)

theorem comOp_eq :
  comOp rd sreg = (.ofInt 8 (-1 - rd.toNat),
    Flags.apply ((SREG.C, decide (-1 - (rd.toNat : Int) < 0))
      :: Reference.intFlags 8 (-1 - rd.toNat) (-1 - rd.toInt)) sreg)
  := by
  have hres : 0xff - rd = .ofInt 8 (-1 - rd.toNat) := by
    revert rd
    decide
  have hC : decide (-1 - (rd.toNat : Int) < 0) = true := by
    apply decide_eq_true
    omega
  have hV : decide (¬ Fits 8 (-1 - rd.toInt)) = false := by
    revert rd
    decide
  rw [Reference.intFlags, hV, hC, resultFlags_eq hres, ← hres, comOp]
  congr 1
  apply Flags.eq_apply
  intro i hi
  repeat rw [getLsbD_setBitInByte _ (by decide)]
  interval_cases i <;> rfl

theorem negOp_eq :
  negOp rd sreg = (.ofInt 8 (0 - rd.toNat),
    (Reference.subFlags 0 rd.toNat 0 rd.toInt 0).apply sreg)
  := by
  have hres : (0x0 - rd) &&& 0xff = .ofInt 8 (0 - rd.toNat) := by
    revert rd
    decide
  have hH : decide ((0 : Int) % 2 ^ 4 - rd.toNat % 2 ^ 4 - 0 < 0)
      = (((0x0 - rd) &&& 0xff).getLsbD 3 || rd.getLsbD 3) := by
    revert rd
    decide
  have hC : decide ((0 : Int) - rd.toNat - 0 < 0)
      = decide ((0x0 - rd) &&& 0xff ≠ 0x0) := by
    revert rd
    decide
  have hV : decide (¬ Fits 8 (0 - rd.toInt - 0))
      = decide ((0x0 - rd) &&& 0xff = 0x80) := by
    revert rd
    decide
  rw [Reference.subFlags, Reference.intFlags, hH, hC, hV, Int.sub_zero,
    resultFlags_eq hres, ← hres, negOp]
  congr 1
  apply Flags.eq_apply
  intro i hi
  repeat rw [getLsbD_setBitInByte _ (by decide)]
  interval_cases i <;> rfl

theorem incOp_eq :
  incOp rd sreg = (.ofInt 8 (rd.toNat + 1),
    (Reference.intFlags 8 (rd.toNat + 1) (rd.toInt + 1)).apply sreg)
  := by
  have hres : rd + 1 = .ofInt 8 (rd.toNat + 1) := by
    revert rd
    decide
  have hV : decide (¬ Fits 8 (rd.toInt + 1)) = decide (rd = 0x7f) := by
    revert rd
    decide
  rw [Reference.intFlags, hV, ← incrFlags_eq hres, ← hres, incOp]

theorem decOp_eq :
  decOp rd sreg = (.ofInt 8 (rd.toNat - 1),
    (Reference.intFlags 8 (rd.toNat - 1) (rd.toInt - 1)).apply sreg)
  := by
  have hres : rd - 1 = .ofInt 8 (rd.toNat - 1) := by
    revert rd
    decide
  have hV : decide (¬ Fits 8 (rd.toInt - 1)) = decide (rd = 0x80) := by
    revert rd
    decide
  rw [Reference.intFlags, hV, ← incrFlags_eq hres, ← hres, decOp]

/-- The bit that a shift to the right shifts out. -/
theorem getLsbD_zero_eq :
  rd.getLsbD 0 = decide ((rd.toNat : Int) % 2 = 1)
  := by
  revert rd
  decide

theorem asrOp_eq :
  asrOp rd sreg = (.ofInt 8 (rd.toInt / 2),
    (Reference.shiftRightFlags (rd.toInt / 2) ((rd.toNat : Int) % 2 = 1)).apply sreg)
  := by
  have hres : (rd >>> 1) + (rd &&& 0x80) = .ofInt 8 (rd.toInt / 2) := by
    revert rd
    decide
  rw [← shiftFlags_eq hres, ← hres, ← getLsbD_zero_eq, asrOp]

theorem lsrOp_eq :
  lsrOp rd sreg = (.ofInt 8 (rd.toNat / 2),
    (Reference.shiftRightFlags (rd.toNat / 2) ((rd.toNat : Int) % 2 = 1)).apply sreg)
  := by
  have hres : (rd >>> 1) &&& 0x7f = .ofInt 8 (rd.toNat / 2) := by
    revert rd
    decide
  have hN : ((rd >>> 1) &&& 0x7f).getLsbD 7 = false := by
    revert rd
    decide
  rw [← shiftFlags_eq hres, ← hres, ← getLsbD_zero_eq, shiftFlags, hN, lsrOp]

theorem rorOp_eq :
  rorOp rd sreg = (.ofInt 8 (rd.toNat / 2 + (sreg.getLsbD SREG.C).toNat * 2 ^ 7),
    (Reference.shiftRightFlags (rd.toNat / 2 + (sreg.getLsbD SREG.C).toNat * 2 ^ 7)
      ((rd.toNat : Int) % 2 = 1)).apply sreg)
  := by
  have hrotate : ∀ (rd : Byte) (c : Bool),
      (rd >>> 1) ||| (((BitVec.ofBool c).setWidth 8 <<< 7) &&& 0x80)
        = .ofInt 8 (rd.toNat / 2 + c.toNat * 2 ^ 7) := by
    decide +kernel
  have hres := hrotate rd (sreg.getLsbD SREG.C)
  rw [← shiftFlags_eq hres, ← hres, ← getLsbD_zero_eq, rorOp, carryIn]

theorem swap_eq :
  ((rd <<< 4) &&& 0xf0) ||| ((rd >>> 4) &&& 0x0f)
    = .ofInt 8 (rd.toNat % 2 ^ 4 * 2 ^ 4 + rd.toNat / 2 ^ 4)
  := by
  revert rd
  decide

/-- The byte that BLD writes differs from the old one by the difference of the bits. -/
theorem bld_eq
    (T : Bool) {bit : Nat} (hbit : bit < 8) :
  (if T = false then rd &&& ~~~(1#8 <<< bit) else rd ||| (1#8 <<< bit))
    = .ofInt 8 (rd.toNat + (T.toNat - rd.toNat / 2 ^ bit % 2) * 2 ^ bit)
  := by
  interval_cases bit <;> revert rd T <;> decide +kernel

end

/-! ### Register pairs -/

/-- The low byte of a residue. -/
theorem extractLsb'_zero_ofInt
    (value : Int) :
  (BitVec.ofInt 16 value).extractLsb' 0 8 = .ofInt 8 value
  := by
  apply BitVec.eq_of_toNat_eq
  rw [BitVec.extractLsb'_toNat, BitVec.toNat_ofInt, BitVec.toNat_ofInt, Nat.shiftRight_zero]
  norm_num
  omega

/-- The high byte of a residue. -/
theorem extractLsb'_eight_ofInt
    (value : Int) :
  (BitVec.ofInt 16 value).extractLsb' 8 8 = .ofInt 8 (value / 2 ^ 8)
  := by
  apply BitVec.eq_of_toNat_eq
  rw [BitVec.extractLsb'_toNat, BitVec.toNat_ofInt, BitVec.toNat_ofInt,
    Nat.shiftRight_eq_div_pow]
  norm_num
  omega

section

variable (hi lo : Byte)

theorem toNat_pair :
  (((hi ++ lo : Word).toNat : Nat) : Int) = hi.toNat * 2 ^ 8 + lo.toNat
  := by
  have h := lo.isLt
  rw [BitVec.toNat_append, ← Nat.shiftLeft_add_eq_or_of_lt h, Nat.shiftLeft_eq]
  push_cast
  rfl

theorem toInt_pair :
  (hi ++ lo : Word).toInt = hi.toInt * 2 ^ 8 + lo.toNat
  := by
  have h := toNat_pair hi lo
  have hhi := hi.isLt
  have hlo := lo.isLt
  rw [BitVec.toInt_eq_toNat_cond, BitVec.toInt_eq_toNat_cond]
  split <;> split <;> omega

end

section

variable (rd : Word) {k : Nat} (sreg : Byte)

theorem fits_sixteen
    (value : Int) :
  Fits 16 value ↔ -2 ^ 15 ≤ value ∧ value < 2 ^ 15
  := Iff.rfl

theorem getLsbD_fifteen :
  rd.getLsbD 15 = decide (2 ^ 15 ≤ rd.toNat)
  := BitVec.msb_eq_decide rd

theorem adiwOp_eq
    (hk : k < 2 ^ 8) :
  adiwOp rd (.ofNat 16 k) sreg = (.ofInt 16 (rd.toNat + k),
    Flags.apply ((SREG.C, decide (2 ^ 16 ≤ (rd.toNat : Int) + k))
      :: Reference.intFlags 16 (rd.toNat + k) (rd.toInt + k)) sreg)
  := by
  have hres : rd + .ofNat 16 k = .ofInt 16 (rd.toNat + k) := by
    rw [BitVec.ofInt_add]
    simp only [BitVec.ofInt_natCast, BitVec.ofNat_toNat, BitVec.setWidth_eq]
  have hrd := rd.isLt
  have hnat : (rd + .ofNat 16 k).toNat = (rd.toNat + k) % 2 ^ 16 := by
    rw [BitVec.toNat_add, BitVec.toNat_ofNat]
    omega
  have hV : decide (¬ Fits 16 (rd.toInt + k))
      = (!rd.getLsbD 15 && (rd + .ofNat 16 k).getLsbD 15) := by
    rw [getLsbD_fifteen, getLsbD_fifteen, hnat, BitVec.toInt_eq_toNat_cond]
    rw [Bool.eq_iff_iff]
    simp only [fits_sixteen, decide_eq_true_eq, Bool.and_eq_true, Bool.not_eq_true',
      decide_eq_false_iff_not]
    split <;> omega
  have hC : decide (2 ^ 16 ≤ (rd.toNat : Int) + k)
      = (!(rd + .ofNat 16 k).getLsbD 15 && rd.getLsbD 15) := by
    rw [getLsbD_fifteen, getLsbD_fifteen, hnat]
    rw [Bool.eq_iff_iff]
    simp only [decide_eq_true_eq, Bool.and_eq_true, Bool.not_eq_true',
      decide_eq_false_iff_not]
    omega
  rw [Reference.intFlags, hV, hC, ← wordFlags_eq hres, ← hres, adiwOp]

theorem sbiwOp_eq
    (hk : k < 2 ^ 8) :
  sbiwOp rd (.ofNat 16 k) sreg = (.ofInt 16 (rd.toNat - k),
    Flags.apply ((SREG.C, decide ((rd.toNat : Int) - k < 0))
      :: Reference.intFlags 16 (rd.toNat - k) (rd.toInt - k)) sreg)
  := by
  have hres : rd - .ofNat 16 k = .ofInt 16 (rd.toNat - k) := by
    rw [BitVec.sub_eq_add_neg, Int.sub_eq_add_neg, BitVec.ofInt_add, BitVec.ofInt_neg]
    simp only [BitVec.ofInt_natCast, BitVec.ofNat_toNat, BitVec.setWidth_eq]
  have hrd := rd.isLt
  have hnat : (rd - .ofNat 16 k).toNat = (2 ^ 16 - k + rd.toNat) % 2 ^ 16 := by
    rw [BitVec.toNat_sub, BitVec.toNat_ofNat]
    omega
  have hV : decide (¬ Fits 16 (rd.toInt - k))
      = (rd.getLsbD 15 && !(rd - .ofNat 16 k).getLsbD 15) := by
    rw [getLsbD_fifteen, getLsbD_fifteen, hnat, BitVec.toInt_eq_toNat_cond]
    rw [Bool.eq_iff_iff]
    simp only [fits_sixteen, decide_eq_true_eq, Bool.and_eq_true, Bool.not_eq_true',
      decide_eq_false_iff_not]
    split <;> omega
  have hC : decide ((rd.toNat : Int) - k < 0)
      = ((rd - .ofNat 16 k).getLsbD 15 && !rd.getLsbD 15) := by
    rw [getLsbD_fifteen, getLsbD_fifteen, hnat]
    rw [Bool.eq_iff_iff]
    simp only [decide_eq_true_eq, Bool.and_eq_true, Bool.not_eq_true',
      decide_eq_false_iff_not]
    omega
  rw [Reference.intFlags, hV, hC, ← wordFlags_eq hres, ← hres, sbiwOp]

end

/-! ### Multiplications -/

section

variable (rd rr : Byte)

theorem setWidth_eq_ofInt :
  rd.setWidth 16 = .ofInt 16 rd.toNat
  := by
  rw [BitVec.ofInt_natCast, BitVec.ofNat_toNat]

theorem mul_unsigned_eq :
  rd.setWidth 16 * rr.setWidth 16 = .ofInt 16 (rd.toNat * rr.toNat)
  := by
  rw [setWidth_eq_ofInt, setWidth_eq_ofInt, BitVec.ofInt_mul]

theorem mul_signed_eq :
  rd.signExtend 16 * rr.signExtend 16 = .ofInt 16 (rd.toInt * rr.toInt)
  := by
  rw [BitVec.signExtend, BitVec.signExtend, BitVec.ofInt_mul]

theorem mul_signed_unsigned_eq :
  rd.signExtend 16 * rr.setWidth 16 = .ofInt 16 (rd.toInt * rr.toNat)
  := by
  rw [setWidth_eq_ofInt, BitVec.signExtend, BitVec.ofInt_mul]

end

section

variable (p : Int)

/-- The bit C of a multiplication. -/
theorem getLsbD_fifteen_ofInt :
  (BitVec.ofInt 16 p).getLsbD 15 = decide (p / 2 ^ 15 % 2 = 1)
  := by
  rw [getLsbD_fifteen, decide_eq_decide, BitVec.toNat_ofInt]
  norm_num
  omega

theorem mulOp_eq :
  mulOp (.ofInt 16 p) = (.ofInt 16 (p * 2 ^ 0), decide (p / 2 ^ 15 % 2 = 1))
  := by
  rw [mulOp, getLsbD_fifteen_ofInt, pow_zero, Int.mul_one]

theorem fmulOp_eq :
  fmulOp (.ofInt 16 p) = (.ofInt 16 (p * 2 ^ 1), decide (p / 2 ^ 15 % 2 = 1))
  := by
  rw [fmulOp, getLsbD_fifteen_ofInt]
  congr 1
  rw [BitVec.shiftLeft_eq_mul_twoPow, BitVec.ofInt_mul]
  rfl

end

end SimulAvr
