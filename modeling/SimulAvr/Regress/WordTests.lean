import SimulAvr.Regress.RegisterTests

/-!
# The test cases of instructions with a word as the result

ADIW and SBIW work on a pair of registers, and the multiplications leave a product in R1 and R0.
The test case of SBIW looks at bit 0 of the difference where it means bit 15, so that it is correct
for the operands where this makes no difference.
-/

namespace SimulAvr

open Exchange IntBits

/-! ### Register pairs -/

/-- The lower register of R25:R24, X, Y or Z -/
abbrev PairReg : Type :=
  { d : Fin 32 // 24 ≤ d.val ∧ d.val % 2 = 0 }

/-- The expected flags of ADIW and SBIW -/
def wordSreg (expect V C : Int) : Int :=
  let N := bitAt expect 15
  sumSreg [(V, SREG.V), (N, SREG.N), (N.xor V, SREG.S), (isZero expect, SREG.Z), (C, SREG.C)]

/-- The test cases of ADIW and SBIW -/
def wordTest (head : Nat) (Rd : PairReg) (vd : Word) (vk : BitVec 6) (expect expectSreg : Int)
    (format formatSreg : String) : OpcodeTest :=
  let args : List Int := [Rd.val.val, vk.toNat, vd.toNat, vk.toNat]
  registerTest (setRdRr 0 Rd (vd.extractLsb' 0 8) (Rd + 1) (vd.extractLsb' 8 8))
    (head ||| ((Rd.val.val / 2 - 12) <<< 4) ||| ((vk.toNat &&& 0x30) <<< 2) ||| (vk.toNat &&& 0xf))
    [Reg.R Rd, Reg.R (Rd + 1), Reg.SREG] fun regs =>
      checkResult expect (regs (Reg.R Rd) + regs (Reg.R (Rd + 1)) <<< 8) format args
        expectSreg (regs Reg.SREG) formatSreg args

/-- `base_ADIW` -/
def baseADIW (Rd : PairReg) (vd : Word) (vk : BitVec 6) : OpcodeTest :=
  let res : Int := vd.toNat + vk.toNat
  let expect := res.land 0xffff
  let V := bitAt ((vd.toNat : Int).lnot.land res) 15
  let C := bitAt (res.lnot.land vd.toNat) 15
  wordTest 0x9600 Rd vd vk expect (wordSreg expect V C)
    "ADIW r%02d, r%02x: 0x%04x + 0x%02x = (expect=%02x, got=%02x)"
    "ADIW r%02d, r%02x: 0x%04x + 0x%02x -> SREG (expect=%02x, got=%02x)"

/-- `base_SBIW`, where `res & ~vd >> 15` shifts the complement only -/
def baseSBIW (Rd : PairReg) (vd : Word) (vk : BitVec 6) : OpcodeTest :=
  let res : Int := vd.toNat - vk.toNat
  let expect := res.land 0xffff
  let V := bitAt ((vd.toNat : Int).land res.lnot) 15
  let C := (res.land ((vd.toNat : Int).lnot >>> (15 : Nat))).land 1
  wordTest 0x9700 Rd vd vk expect (wordSreg expect V C)
    "SBIW r%02d, r%02x: 0x%04x - 0x%02x = (expect=%02x, got=%02x)"
    "SBIW r%02d, r%02x: 0x%04x - 0x%02x -> SREG (expect=%02x, got=%02x)"

/-! ### Products -/

/-- `if (Vd & 0x80): Vd |= -256` -/
def extendSign (Vd : Byte) : Int :=
  if (Vd.toNat : Int).land 0x80 ≠ 0 then (Vd.toNat : Int).lor (-256) else Vd.toNat

/-- The test cases of the multiplications, of which `vd` and `vr` are the factors -/
def mulTest (rawOpcode : Nat) (Rd : Fin 32) (Vd : Byte) (Rr : Fin 32) (Vr : Byte) (vd vr : Int)
    (format formatSreg : String) : OpcodeTest :=
  let expect := (vd * vr).land 0xffff
  registerTest (setRdRr 0 Rd Vd Rr Vr) rawOpcode [Reg.R 0, Reg.R 1, Reg.SREG] fun regs =>
    checkResult expect (regs (Reg.R 0) ||| regs (Reg.R 1) <<< 8) format [Rd.val, Rr.val, vd, vr]
      (mulSreg expect) (regs Reg.SREG) formatSreg [vd, vr]

/-- `base_MUL` -/
def baseMUL (Rd : Fin 32) (Vd : Byte) (Rr : Fin 32) (Vr : Byte) : OpcodeTest :=
  mulTest (0x9C00 ||| (Rr.val &&& 0x0f) ||| (Rd.val &&& 0x1f) <<< 4 ||| (Rr.val &&& 0x10) <<< 5)
    Rd Vd Rr Vr Vd.toNat Vr.toNat
    "MUL calc r%02d, r%02d: 0x%02x * 0x%02x = (expect=%d, got=%d)"
    "MUL flag setting: 0x%d * 0x%d -> SREG (expect=%02x, got=%02x)"

/-- `base_MULS` -/
def baseMULS (Rd : UpperReg) (Vd : Byte) (Rr : UpperReg) (Vr : Byte) : OpcodeTest :=
  mulTest (0x0200 ||| (Rr.val.val &&& 0x0f) ||| (Rd.val.val &&& 0x0f) <<< 4)
    Rd Vd Rr Vr (extendSign Vd) (extendSign Vr)
    "MULS calc r%02d, r%02d: %d * %d = (expect=%04x, got=%04x)"
    "MULS flag setting: 0x%d * 0x%d -> SREG (expect=%02x, got=%02x)"

/-- A register from R16 to R23 -/
abbrev MiddleReg : Type :=
  { d : Fin 32 // 16 ≤ d.val ∧ d.val < 24 }

/-- `base_MULSU` -/
def baseMULSU (Rd : MiddleReg) (Vd : Byte) (Rr : MiddleReg) (Vr : Byte) : OpcodeTest :=
  mulTest (0x0300 ||| (Rr.val.val &&& 0x07) ||| (Rd.val.val &&& 0x07) <<< 4)
    Rd Vd Rr Vr (extendSign Vd) Vr.toNat
    "MULSU calc r%02d, r%02d: 0x%02x * 0x%02x = (expect=%04x, got=%04x)"
    "MULSU flag setting: 0x%d * 0x%d -> SREG (expect=%02x, got=%02x)"

/-! ### Words and bytes -/

theorem toNat_bytes
    (v : Int) :
  (BitVec.ofInt 8 v).toNat + (BitVec.ofInt 8 (v / 2 ^ 8)).toNat <<< 8 = (BitVec.ofInt 16 v).toNat
  := by
  rw [BitVec.toNat_ofInt, BitVec.toNat_ofInt, BitVec.toNat_ofInt, Nat.shiftLeft_eq]
  norm_num
  omega

theorem land_word
    (v : Int) :
  v.land 0xffff = (BitVec.ofInt 16 v).toNat
  := land_mask (w := 16) v

theorem extendSign_eq :
  ∀ b : Byte, extendSign b = b.toInt
  := by
  decide +kernel

theorem wordSreg_eq
    (expect : Word) (V C : Bool) :
  wordSreg expect.toNat V.toInt C.toInt = (wordFlags expect V C 0).toNat
  := by
  have hN : bitAt expect.toNat 15 = (expect.getLsbD 15).toInt := bitAt_eq _ 15
  rw [wordSreg, hN, isZero_toNat, xor_toInt]
  rw [wordFlags]
  generalize decide (expect = 0) = Z
  generalize expect.getLsbD 15 = N
  revert V C Z N
  decide

theorem testBit_shiftRight_zero
    (v : Int) (n : Nat) :
  (v >>> n).testBit 0 = v.testBit n
  := by
  have hinj : ∀ a b : Bool, a.toInt = b.toInt → a = b := by decide
  have hlow := bitAt_eq (v >>> n) 0
  rw [bitAt, Int.shiftRight_zero] at hlow
  apply hinj
  rw [← hlow, ← bitAt_eq, bitAt]

/-! ### The operations of the instructions -/

/-- The instruction computes an operation on a register pair and a constant. -/
def ComputesWord (func : OpcodeName) (op : Word → Word → Byte → Word × Byte) : Prop :=
  ∀ (d : Fin 32) (K : BitVec 6) (c : AvrCore Unit), ∃ v,
    (aluReference func d K.toNat c).regs = [(d, v), (d + 1, v / 2 ^ 8)] ∧
    op (c.gpwr (d + 1) ++ c.gpwr d) (.ofNat 16 K.toNat) c.sreg
      = (.ofInt 16 v, (aluReference func d K.toNat c).flags.apply c.sreg)

theorem computes_ADIW :
  ComputesWord .ADIW adiwOp
  := by
  intro d K c
  have hK : K.toNat < 2 ^ 8 := by omega
  have hop := adiwOp_eq (c.gpwr (d + 1) ++ c.gpwr d) c.sreg hK
  rw [toNat_pair, toInt_pair] at hop
  simp only [aluReference, ofNat_toNat_register]
  exact ⟨_, rfl, hop⟩

theorem computes_SBIW :
  ComputesWord .SBIW sbiwOp
  := by
  intro d K c
  have hK : K.toNat < 2 ^ 8 := by omega
  have hop := sbiwOp_eq (c.gpwr (d + 1) ++ c.gpwr d) c.sreg hK
  rw [toNat_pair, toInt_pair] at hop
  simp only [aluReference, ofNat_toNat_register]
  exact ⟨_, rfl, hop⟩

section

variable (vd : Word) (vk : BitVec 6)

/-- The result of ADIW, and its expected flags -/
theorem expect_adiwOp :
  let res : Int := vd.toNat + vk.toNat
  let op := adiwOp vd (.ofNat 16 vk.toNat) 0
  res.land 0xffff = op.1.toNat ∧
    wordSreg (res.land 0xffff) (bitAt ((vd.toNat : Int).lnot.land res) 15)
      (bitAt (res.lnot.land vd.toNat) 15) = op.2.toNat
  := by
  intro res op
  have hres : BitVec.ofInt 16 res = op.1 := by
    change BitVec.ofInt 16 (vd.toNat + vk.toNat) = vd + .ofNat 16 vk.toNat
    rw [BitVec.ofInt_add]
    simp only [BitVec.ofInt_natCast, BitVec.ofNat_toNat, BitVec.setWidth_eq]
  have hbit : res.testBit 15 = op.1.getLsbD 15 := by
    rw [testBit_eq_getLsbD res (by decide : 15 < 16), hres]
  have hvd : (vd.toNat : Int).testBit 15 = vd.getLsbD 15 := rfl
  rw [land_word, hres, bitAt_eq, bitAt_eq, Int.testBit_land, Int.testBit_land, Int.testBit_lnot,
    Int.testBit_lnot, hbit, hvd]
  exact ⟨rfl, wordSreg_eq _ _ _⟩

/-- The result of SBIW, and its expected flags where the test case looks at the right bit -/
theorem expect_sbiwOp
    (hbits : vd.getLsbD 15 = true ∨
      (vd - .ofNat 16 vk.toNat).getLsbD 0 = (vd - .ofNat 16 vk.toNat).getLsbD 15) :
  let res : Int := vd.toNat - vk.toNat
  let op := sbiwOp vd (.ofNat 16 vk.toNat) 0
  res.land 0xffff = op.1.toNat ∧
    wordSreg (res.land 0xffff) (bitAt ((vd.toNat : Int).land res.lnot) 15)
      ((res.land ((vd.toNat : Int).lnot >>> (15 : Nat))).land 1) = op.2.toNat
  := by
  intro res op
  have hres : BitVec.ofInt 16 res = op.1 := by
    change BitVec.ofInt 16 (vd.toNat - vk.toNat) = vd - .ofNat 16 vk.toNat
    rw [BitVec.sub_eq_add_neg, Int.sub_eq_add_neg, BitVec.ofInt_add, BitVec.ofInt_neg]
    simp only [BitVec.ofInt_natCast, BitVec.ofNat_toNat, BitVec.setWidth_eq]
  have hbit : ∀ i < 16, res.testBit i = op.1.getLsbD i := by
    intro i hi
    rw [testBit_eq_getLsbD res hi, hres]
  have hvd : (vd.toNat : Int).testBit 15 = vd.getLsbD 15 := rfl
  have hC : (res.land ((vd.toNat : Int).lnot >>> (15 : Nat))).land 1
      = (op.1.getLsbD 15 && !vd.getLsbD 15).toInt := by
    have hlow := bitAt_eq (res.land ((vd.toNat : Int).lnot >>> (15 : Nat))) 0
    have hshift : ((vd.toNat : Int).lnot >>> (15 : Nat)).testBit 0 = !vd.getLsbD 15 := by
      rw [testBit_shiftRight_zero, Int.testBit_lnot, hvd]
    rw [bitAt, Int.shiftRight_zero] at hlow
    rw [hlow, Int.testBit_land, hbit 0 (by decide), hshift]
    rcases hbits with hbits | hbits
    · rw [hbits, Bool.not_true, Bool.and_false, Bool.and_false]
    · change ((vd - .ofNat 16 vk.toNat).getLsbD 0 && _).toInt = _
      rw [hbits]
      rfl
  rw [hC, land_word, hres, bitAt_eq, Int.testBit_land, Int.testBit_lnot, hbit 15 (by decide), hvd]
  exact ⟨rfl, wordSreg_eq _ _ _⟩

end

/-- The flags of a product -/
theorem mulFlags_eq
    (p : Int) :
  mulSreg (BitVec.ofInt 16 p).toNat = ((Reference.mul p 0).flags.apply 0).toNat
  := by
  have hp : p * 2 ^ 0 = p := by rw [pow_zero, Int.mul_one]
  have hflags : setBitInByte (setBitInByte 0 SREG.Z (decide (BitVec.ofInt 16 p = 0))) SREG.C
      ((BitVec.ofInt 16 p).getLsbD 15) = (Reference.mul p 0).flags.apply 0 := by
    rw [decide_eq_zero rfl, getLsbD_fifteen_ofInt, Reference.mul, hp]
    apply Flags.eq_apply
    intro i hi
    repeat rw [getLsbD_setBitInByte _ (by decide)]
    interval_cases i <;> rfl
  rw [mulSreg_eq, hflags]

theorem toNat_or_bytes
    (v : Int) :
  (BitVec.ofInt 8 v).toNat ||| (BitVec.ofInt 8 (v / 2 ^ 8)).toNat <<< 8 = (BitVec.ofInt 16 v).toNat
  := by
  have hlow := (BitVec.ofInt 8 v).isLt
  rw [← toNat_bytes, Nat.lor_comm, ← Nat.shiftLeft_add_eq_or_of_lt hlow, Nat.add_comm]

/-! ### The test cases -/

section

variable {δ : Type} [IoDevices δ] {Q : δ → Prop} (hQ : QuietDevices Q) {head : Nat} {Rd : PairReg}
  {vd : Word} {vk : BitVec 6} {expect expectSreg : Int} {format formatSreg : String}

theorem rawPair_eq
    {i : Instr} (hi : i.operands = .rd2K6 (.ofNat 2 (Rd.val.val / 2 - 12)) vk)
    (hhead : head = i.func.head.toNat) :
  head ||| ((Rd.val.val / 2 - 12) <<< 4) ||| ((vk.toNat &&& 0x30) <<< 2) ||| (vk.toNat &&& 0xf)
    = i.first.toNat
  := by
  have hd : ∀ d : Fin 32, 24 ≤ d.val → d.val % 2 = 0 →
      (Operands.rd2K6 (.ofNat 2 (d.val / 2 - 12)) 0).bits1.toNat = (d.val / 2 - 12) <<< 4 := by
    decide
  have hK : ∀ K : BitVec 6,
      (Operands.rd2K6 0 K).bits2.toNat = ((K.toNat &&& 0x30) <<< 2) ||| (K.toNat &&& 0xf) := by
    decide
  rw [toNat_first, hi, ← hhead, Nat.lor_assoc, ← hK, ← hd Rd Rd.property.1 Rd.property.2]
  rfl

theorem arg1_rd2K6 :
  (Operands.rd2K6 (.ofNat 2 (Rd.val.val / 2 - 12)) vk).arg1 = Rd.val.val
  := by
  have hd : ∀ d : Fin 32, 24 ≤ d.val → d.val % 2 = 0 →
      24 + 2 * ((BitVec.ofNat 2 (d.val / 2 - 12)).toNat : Int) = d.val := by
    decide
  exact hd Rd Rd.property.1 Rd.property.2

include hQ

/-- The operation gives, for the pair and SREG, the expected values. -/
theorem correct_wordTest
    {func : OpcodeName} {op : Word → Word → Byte → Word × Byte} (hcomp : ComputesWord func op)
    (hfunc : func ∈ aluOpcodes) (hform : func.form = .rd2K6) (hhead : head = func.head.toNat)
    (Rd : PairReg)
    (hop : expect = (op vd (.ofNat 16 vk.toNat) 0).1.toNat ∧
      expectSreg = (op vd (.ofNat 16 vk.toNat) 0).2.toNat) :
  (wordTest head Rd vd vk expect expectSreg format formatSreg).Correct Q
  := by
  let i : Instr := .ofAlu func (.rd2K6 (.ofNat 2 (Rd.val.val / 2 - 12)) vk) hfunc hform.symm rfl
  apply correct_registerTest hQ (i := i) hfunc rfl (rawPair_eq rfl hhead) (setRdRr_valid (s := 0))
  intro m regs hm
  have hne := Reg.ne_succ Rd
  obtain ⟨hlow, hhigh, hs⟩ := setRdRr_view (s := 0) (fun heq => absurd heq hne) hm
  have harg : i.operands.arg1 = Rd.val.val := arg1_rd2K6
  rw [harg]
  obtain ⟨v, hregs, hresult⟩ := hcomp Rd vk m.registers
  change op (m.gpwr (Rd.val + 1) ++ m.gpwr Rd.val) _ m.sreg = _ at hresult
  rw [hlow, hhigh, hs, extractLsb'_append_self] at hresult
  change (aluReference i.func Rd.val.val i.operands.arg2 m.registers).regs = _ at hregs
  intro effect
  have hgpwr : effect.gpwr m.gpwr
      = Function.update (Function.update m.gpwr Rd.val (.ofInt 8 v)) (Rd.val + 1)
          (.ofInt 8 (v / 2 ^ 8)) := by
    rw [AluEffect.gpwr, hregs]
    rfl
  refine ⟨?_, ?_, ?_⟩
  · intro pc clocks
    rw [Cpu.regs_gpwr, Cpu.regs_gpwr]
    change checkResult _ ((effect.gpwr m.gpwr Rd.val).toNat
      + (effect.gpwr m.gpwr (Rd.val + 1)).toNat <<< 8) _ _ _ (effect.flags.apply m.sreg).toNat _ _ = _
    rw [hgpwr, Function.update_of_ne hne, Function.update_self, Function.update_self, toNat_bytes]
    rw [hresult] at hop
    exact checkResult_self hop.1 hop.2 _ _ _ _
  · rw [hregs]
    simp
  · left
    simp

theorem correct_ADIW
    (Rd : PairReg) (vd : Word) (vk : BitVec 6) :
  (baseADIW Rd vd vk).Correct Q
  := correct_wordTest hQ computes_ADIW (by decide) rfl rfl Rd (expect_adiwOp vd vk)

theorem correct_SBIW
    (Rd : PairReg) (hbits : vd.getLsbD 15 = true ∨
      (vd - .ofNat 16 vk.toNat).getLsbD 0 = (vd - .ofNat 16 vk.toNat).getLsbD 15) :
  (baseSBIW Rd vd vk).Correct Q
  := correct_wordTest hQ computes_SBIW (by decide) rfl rfl Rd (expect_sbiwOp vd vk hbits)

/-- The instruction leaves the product of the factors. -/
theorem correct_mulTest
    {Rd Rr : Fin 32} {Vd Vr : Byte} (hsame : Rd = Rr → Vd = Vr) {a b : Int} {raw : Nat} {i : Instr}
    (hfunc : i.func ∈ aluOpcodes) (hone : i.operands.second = none) (hraw : raw = i.first.toNat)
    (hmul : ∀ m : Cpu, m.gpwr Rd = Vd → m.gpwr Rr = Vr →
      aluReference i.func i.operands.arg1 i.operands.arg2 m.registers = Reference.mul (a * b) 0) :
  (mulTest raw Rd Vd Rr Vr a b format formatSreg).Correct Q
  := by
  apply correct_registerTest hQ hfunc hone hraw (setRdRr_valid (s := 0))
  intro m regs hm
  obtain ⟨hRd, hRr, hs⟩ := setRdRr_view (s := 0) hsame hm
  rw [hmul m hRd hRr]
  have hp : a * b * 2 ^ 0 = a * b := by rw [pow_zero, Int.mul_one]
  have hgpwr : (Reference.mul (a * b) 0).gpwr m.gpwr
      = Function.update (Function.update m.gpwr 1 (.ofInt 8 (a * b / 2 ^ 8))) 0
          (.ofInt 8 (a * b)) := by
    rw [AluEffect.gpwr, Reference.mul, hp]
    rfl
  refine ⟨?_, ?_, ?_⟩
  · intro pc clocks
    rw [Cpu.regs_gpwr, Cpu.regs_gpwr]
    change checkResult _ (((Reference.mul (a * b) 0).gpwr m.gpwr 0).toNat
      ||| ((Reference.mul (a * b) 0).gpwr m.gpwr 1).toNat <<< 8) _ _ _
      ((Reference.mul (a * b) 0).flags.apply m.sreg).toNat _ _ = _
    rw [hgpwr, Function.update_self, Function.update_of_ne (by decide), Function.update_self,
      toNat_or_bytes, hs]
    have hexpect := land_word (a * b)
    apply checkResult_self hexpect
    rw [hexpect]
    exact mulFlags_eq (a * b)
  · intro w hw
    rcases List.mem_pair.mp hw with rfl | rfl <;> simp
  · left
    simp

theorem correct_MUL
    {Rd Rr : Fin 32} {Vd Vr : Byte} (hsame : Rd = Rr → Vd = Vr) :
  (baseMUL Rd Vd Rr Vr).Correct Q
  := by
  let i : Instr := .ofAlu .MUL (.rd5rr5 (.ofFin Rd) (.ofFin Rr)) (by decide) rfl rfl
  have hraw : 0x9C00 ||| (Rr.val &&& 0x0f) ||| (Rd.val &&& 0x1f) <<< 4 ||| (Rr.val &&& 0x10) <<< 5
      = i.first.toNat := by
    have hd : ∀ d : Fin 32, d.val &&& 0x1f = d.val := by decide
    rw [hd, toNat_first]
    change _ = 0x9C00 ||| (Operands.rd5 (.ofFin Rd)).bits1.toNat
      ||| (Operands.rd5rr5 0 (.ofFin Rr)).bits2.toNat
    rw [toNat_bits_rd5, toNat_bits_rr5]
    ac_rfl
  apply correct_mulTest hQ hsame (i := i) (show OpcodeName.MUL ∈ _ by decide) rfl hraw
  intro m hRd hRr
  change aluReference .MUL (Rd.val : Int) (Rr.val : Int) m.registers = _
  simp only [aluReference, ofNat_toNat_register]
  change Reference.mul ((m.gpwr Rd).toNat * (m.gpwr Rr).toNat) 0 = _
  rw [hRd, hRr]

theorem correct_MULS
    {Rd Rr : UpperReg} {Vd Vr : Byte} (hsame : Rd = Rr → Vd = Vr) :
  (baseMULS Rd Vd Rr Vr).Correct Q
  := by
  let i : Instr := .ofAlu .MULS (.rd4rr4 (.ofNat 4 (Rd.val.val - 16)) (.ofNat 4 (Rr.val.val - 16)))
    (by decide) rfl rfl
  have hd : ∀ d : Fin 32, 16 ≤ d.val →
      (Operands.rd4rr4 (.ofNat 4 (d.val - 16)) 0).bits1.toNat = (d.val &&& 0x0f) <<< 4 := by
    decide
  have hr : ∀ r : Fin 32, 16 ≤ r.val →
      (Operands.rd4rr4 0 (.ofNat 4 (r.val - 16))).bits2.toNat = r.val &&& 0x0f := by
    decide
  have harg : ∀ d : Fin 32, 16 ≤ d.val →
      Fin.ofNat 32 (16 + ((BitVec.ofNat 4 (d.val - 16)).toNat : Int)).toNat = d := by
    decide
  have hraw : 0x0200 ||| (Rr.val.val &&& 0x0f) ||| (Rd.val.val &&& 0x0f) <<< 4 = i.first.toNat := by
    rw [toNat_first]
    change _ = 0x0200 ||| (Operands.rd4rr4 (.ofNat 4 (Rd.val.val - 16)) 0).bits1.toNat
      ||| (Operands.rd4rr4 0 (.ofNat 4 (Rr.val.val - 16))).bits2.toNat
    rw [hd Rd Rd.property, hr Rr Rr.property]
    ac_rfl
  rw [baseMULS, extendSign_eq, extendSign_eq]
  apply correct_mulTest hQ (fun heq => hsame (Subtype.ext heq)) (i := i)
    (show OpcodeName.MULS ∈ _ by decide) rfl hraw
  intro m hRd hRr
  let reg : Fin 32 → Fin 32 :=
    fun d => .ofNat 32 (16 + ((BitVec.ofNat 4 (d.val - 16)).toNat : Int)).toNat
  change Reference.mul ((m.gpwr (reg Rd)).toInt * (m.gpwr (reg Rr)).toInt) 0 = _
  rw [show reg Rd = Rd from harg Rd Rd.property, show reg Rr = Rr from harg Rr Rr.property, hRd, hRr]

theorem correct_MULSU
    {Rd Rr : MiddleReg} {Vd Vr : Byte} (hsame : Rd = Rr → Vd = Vr) :
  (baseMULSU Rd Vd Rr Vr).Correct Q
  := by
  let i : Instr := .ofAlu .MULSU (.rd3rr3 (.ofNat 3 (Rd.val.val - 16)) (.ofNat 3 (Rr.val.val - 16)))
    (by decide) rfl rfl
  have hd : ∀ d : Fin 32, 16 ≤ d.val ∧ d.val < 24 →
      (Operands.rd3rr3 (.ofNat 3 (d.val - 16)) 0).bits1.toNat = (d.val &&& 0x07) <<< 4 := by
    decide
  have hr : ∀ r : Fin 32, 16 ≤ r.val ∧ r.val < 24 →
      (Operands.rd3rr3 0 (.ofNat 3 (r.val - 16))).bits2.toNat = r.val &&& 0x07 := by
    decide
  have harg : ∀ d : Fin 32, 16 ≤ d.val ∧ d.val < 24 →
      Fin.ofNat 32 (16 + ((BitVec.ofNat 3 (d.val - 16)).toNat : Int)).toNat = d := by
    decide
  have hraw : 0x0300 ||| (Rr.val.val &&& 0x07) ||| (Rd.val.val &&& 0x07) <<< 4 = i.first.toNat := by
    rw [toNat_first]
    change _ = 0x0300 ||| (Operands.rd3rr3 (.ofNat 3 (Rd.val.val - 16)) 0).bits1.toNat
      ||| (Operands.rd3rr3 0 (.ofNat 3 (Rr.val.val - 16))).bits2.toNat
    rw [hd Rd Rd.property, hr Rr Rr.property]
    ac_rfl
  rw [baseMULSU, extendSign_eq]
  apply correct_mulTest hQ (fun heq => hsame (Subtype.ext heq)) (i := i)
    (show OpcodeName.MULSU ∈ _ by decide) rfl hraw
  intro m hRd hRr
  let reg : Fin 32 → Fin 32 :=
    fun d => .ofNat 32 (16 + ((BitVec.ofNat 3 (d.val - 16)).toNat : Int)).toNat
  change Reference.mul ((m.gpwr (reg Rd)).toInt * (m.gpwr (reg Rr)).toNat) 0 = _
  rw [show reg Rd = Rd from harg Rd Rd.property, show reg Rr = Rr from harg Rr Rr.property, hRd, hRr]

end

end SimulAvr
