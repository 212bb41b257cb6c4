import SimulAvr.Regress.AluTests

/-!
# The test cases of one operand and of the comparisons

The test cases of the instructions with one operand, and of the comparisons, which look at SREG
only.
-/

namespace SimulAvr

open Exchange

/-! ### One operand -/

/-- The test cases of `OP Rd` for which the messages show the number and the value of the register,
with the value and the flags that they expect -/
def unaryTest (head sreg : Nat) (Rd : Fin 32) (Vd : Byte) (expected : Int × Int)
    (format formatSreg : String) : OpcodeTest :=
  let args : List Int := [Rd.val, Vd.toNat]
  rdTest head sreg Rd Vd fun got gotSreg =>
    checkResult expected.1 got format args expected.2 gotSreg formatSreg args

/-- `expect` and `expect_sreg` of `base_ASR` -/
def expectASR (Vd : Byte) : Int × Int :=
  let expect := (((Vd.toNat : Int) >>> 1).land 0x7f).lor ((Vd.toNat : Int).land 0x80)
  (expect, shiftSreg expect ((Vd.toNat : Int).land 1))

/-- `base_ASR` -/
def baseASR (Rd : Fin 32) (Vd : Byte) : OpcodeTest :=
  unaryTest 0x9405 0 Rd Vd (expectASR Vd)
    "ASR r%02d: 0x%02x = (expect=%02x, got=%02x)"
    "ASR r%02d: 0x%02x -> SREG (expect=%02x, got=%02x)"

/-- `expect` and `expect_sreg` of `base_COM` -/
def expectCOM (Vd : Byte) : Int × Int :=
  let expect := (0xff - (Vd.toNat : Int)).land 0xff
  let V : Int := 0
  let N := signBit expect
  (expect, sumSreg [(N, SREG.N), (N.xor V, SREG.S), (isZero expect, SREG.Z), (1, SREG.C)])

/-- `base_COM`, whose first format has one conversion too many for its arguments -/
def baseCOM (Rd : Fin 32) (Vd : Byte) : OpcodeTest :=
  unaryTest 0x9400 (1 <<< SREG.V) Rd Vd (expectCOM Vd)
    "COM r%02d: 0x%02x & 0x%02x = (expect=%02x, got=%02x)"
    "COM r%02d: 0x%02x -> SREG (expect=%02x, got=%02x)"

/-- `expect` and `expect_sreg` of `base_DEC` -/
def expectDEC (Vd : Byte) : Int × Int :=
  let expect := ((Vd.toNat : Int) - 1).land 0xff
  (expect, incrSreg expect (decide (Vd.toNat = 0x80)).toInt)

/-- `base_DEC` -/
def baseDEC (Rd : Fin 32) (Vd : Byte) : OpcodeTest :=
  unaryTest 0x940A 0 Rd Vd (expectDEC Vd)
    "DEC r%02d: 0x%02x = (expect=%02x, got=%02x)"
    "DEC r%02d: 0x%02x -> SREG (expect=%02x, got=%02x)"

/-- `expect` and `expect_sreg` of `base_INC` -/
def expectINC (Vd : Byte) : Int × Int :=
  let expect := ((Vd.toNat : Int) + 1).land 0xff
  (expect, incrSreg expect (decide (Vd.toNat = 0x7f)).toInt)

/-- `base_INC` -/
def baseINC (Rd : Fin 32) (Vd : Byte) : OpcodeTest :=
  unaryTest 0x9403 0 Rd Vd (expectINC Vd)
    "INC r%02d: 0x%02x = (expect=%02x, got=%02x)"
    "INC r%02d: 0x%02x -> SREG (expect=%02x, got=%02x)"

/-- `expect` and `expect_sreg` of `base_LSR` -/
def expectLSR (Vd : Byte) : Int × Int :=
  let expect := ((Vd.toNat : Int) >>> 1).land 0x7f
  let C := (Vd.toNat : Int).land 1
  let N : Int := 0
  let V := N.xor C
  (expect, sumSreg [(N.xor V, SREG.S), (V, SREG.V), (isZero expect, SREG.Z), (C, SREG.C)])

/-- `base_LSR` -/
def baseLSR (Rd : Fin 32) (Vd : Byte) : OpcodeTest :=
  unaryTest 0x9406 (1 <<< SREG.N) Rd Vd (expectLSR Vd)
    "LSR r%02d: 0x%02x = (expect=%02x, got=%02x)"
    "LSR r%02d: 0x%02x -> SREG (expect=%02x, got=%02x)"

/-- `expect` and `expect_sreg` of `base_NEG` -/
def expectNEG (Vd : Byte) : Int × Int :=
  let expect := (0x00 - (Vd.toNat : Int)).land 0xff
  let V := (decide (expect = 0x80)).toInt
  let N := signBit expect
  let H := bitAt (expect.lor Vd.toNat) 3
  (expect, sumSreg [(H, SREG.H), (N, SREG.N), (V, SREG.V), (N.xor V, SREG.S),
    (isZero expect, SREG.Z), ((decide (expect ≠ 0)).toInt, SREG.C)])

/-- `base_NEG`, whose first format has one conversion too many for its arguments -/
def baseNEG (Rd : Fin 32) (Vd : Byte) : OpcodeTest :=
  unaryTest 0x9401 0 Rd Vd (expectNEG Vd)
    "NEG r%02d: 0x%02x & 0x%02x = (expect=%02x, got=%02x)"
    "NEG r%02d: 0x%02x -> SREG (expect=%02x, got=%02x)"

/-- `expect` and `expect_sreg` of `base_ROR` -/
def expectROR (Vd : Byte) (C : Bool) : Int × Int :=
  let expect := (((Vd.toNat : Int) >>> 1).land 0x7f).lor (C.toInt <<< 7)
  (expect, shiftSreg expect ((Vd.toNat : Int).land 1))

/-- `base_ROR` -/
def baseROR (Rd : Fin 32) (Vd : Byte) (C : Bool) : OpcodeTest :=
  unaryTest 0x9407 (C.toNat <<< SREG.C) Rd Vd (expectROR Vd C)
    "ROR r%02d: 0x%02x = (expect=%02x, got=%02x)"
    "ROR r%02d: 0x%02x -> SREG (expect=%02x, got=%02x)"

/-- The value and the flags that an operation gives, as the test cases expect them -/
def expectedOf (result : Byte × Byte) : Int × Int :=
  (result.1.toNat, result.2.toNat)

/-- The test cases expect what the operations give. -/
theorem expect_unaryOps :
  ∀ (Vd : Byte) (C : Bool),
    expectASR Vd = expectedOf (asrOp Vd 0) ∧ expectCOM Vd = expectedOf (comOp Vd 0x08) ∧
    expectDEC Vd = expectedOf (decOp Vd 0) ∧ expectINC Vd = expectedOf (incOp Vd 0) ∧
    expectLSR Vd = expectedOf (lsrOp Vd 0x04) ∧ expectNEG Vd = expectedOf (negOp Vd 0) ∧
    expectROR Vd C = expectedOf (rorOp Vd (carryZero C false))
  := by
  decide +kernel

section

variable {δ : Type} [IoDevices δ] {Q : δ → Prop} (hQ : QuietDevices Q) {func : OpcodeName}
  {head sreg : Nat} {s Vd : Byte} {expected : Int × Int} {op : Byte → Byte → Byte × Byte}
  {format formatSreg : String}

include hQ

/-- The operation gives, for the register and SREG, the expected values. -/
theorem correct_unaryTest
    (hcomp : ComputesRd func op) (hfunc : func ∈ aluOpcodes) (hform : func.form = .rd5)
    (hhead : head = func.head.toNat) (hsreg : sreg = s.toNat) (Rd : Fin 32)
    (hop : expected = expectedOf (op Vd s)) :
  (unaryTest head sreg Rd Vd expected format formatSreg).Correct Q
  := by
  subst hop
  apply correct_rdTest hQ hcomp hfunc hform hhead hsreg
  exact checkResult_self rfl rfl _ _ _ _

theorem correct_ASR
    (Rd : Fin 32) (Vd : Byte) :
  (baseASR Rd Vd).Correct Q
  := by
  obtain ⟨hexpect, -⟩ := expect_unaryOps Vd false
  exact correct_unaryTest hQ computes_ASR (by decide) rfl rfl rfl Rd hexpect

theorem correct_COM
    (Rd : Fin 32) (Vd : Byte) :
  (baseCOM Rd Vd).Correct Q
  := by
  obtain ⟨-, hexpect, -⟩ := expect_unaryOps Vd false
  exact correct_unaryTest hQ computes_COM (by decide) rfl rfl rfl Rd hexpect

theorem correct_DEC
    (Rd : Fin 32) (Vd : Byte) :
  (baseDEC Rd Vd).Correct Q
  := by
  obtain ⟨-, -, hexpect, -⟩ := expect_unaryOps Vd false
  exact correct_unaryTest hQ computes_DEC (by decide) rfl rfl rfl Rd hexpect

theorem correct_INC
    (Rd : Fin 32) (Vd : Byte) :
  (baseINC Rd Vd).Correct Q
  := by
  obtain ⟨-, -, -, hexpect, -⟩ := expect_unaryOps Vd false
  exact correct_unaryTest hQ computes_INC (by decide) rfl rfl rfl Rd hexpect

theorem correct_LSR
    (Rd : Fin 32) (Vd : Byte) :
  (baseLSR Rd Vd).Correct Q
  := by
  obtain ⟨-, -, -, -, hexpect, -⟩ := expect_unaryOps Vd false
  exact correct_unaryTest hQ computes_LSR (by decide) rfl rfl rfl Rd hexpect

theorem correct_NEG
    (Rd : Fin 32) (Vd : Byte) :
  (baseNEG Rd Vd).Correct Q
  := by
  obtain ⟨-, -, -, -, -, hexpect, -⟩ := expect_unaryOps Vd false
  exact correct_unaryTest hQ computes_NEG (by decide) rfl rfl rfl Rd hexpect

theorem correct_ROR
    (Rd : Fin 32) (Vd : Byte) (C : Bool) :
  (baseROR Rd Vd C).Correct Q
  := by
  obtain ⟨-, -, -, -, -, -, hexpect⟩ := expect_unaryOps Vd C
  exact correct_unaryTest hQ computes_ROR (by decide) rfl rfl (toNat_carryZero C) Rd hexpect

end

/-! ### Comparisons -/

/-- A test case that looks at SREG only -/
def sregTest (sets : Regs → Regs) (rawOpcode : Nat) (expectSreg : Int) (format : String)
    (args : List Int) : OpcodeTest :=
  registerTest sets rawOpcode [Reg.SREG] fun regs =>
    expectEq expectSreg (regs Reg.SREG) format (args ++ [expectSreg, (regs Reg.SREG : Int)])

/-- `base_CP` -/
def baseCP (Rd : Fin 32) (Vd : Byte) (Rr : Fin 32) (Vr : Byte) : OpcodeTest :=
  let res := ((Vd.toNat : Int) - Vr.toNat).land 0xff
  sregTest (setRdRr 0 Rd Vd Rr Vr) (rawRdRr 0x1400 Rd Rr)
    (subSreg Vd.toNat Vr.toNat res res (isZero res))
    "CP r%02d r%02d: 0x%02x 0x%02x: (expect=%02x, got=%02x)"
    [Rd.val, Rr.val, Vd.toNat, Vr.toNat]

/-- `base_CPC` -/
def baseCPC (Rd : Fin 32) (Vd : Byte) (Rr : Fin 32) (Vr : Byte) (C Z : Bool) : OpcodeTest :=
  let res := ((Vd.toNat : Int) - Vr.toNat - C.toNat).land 0xff
  sregTest (setRdRr ((C.toNat <<< SREG.C) + (Z.toNat <<< SREG.Z)) Rd Vd Rr Vr) (rawRdRr 0x0400 Rd Rr)
    (subSreg Vd.toNat Vr.toNat res res (expectZ res Z))
    "CPC r%02d r%02d: 0x%02x 0x%02x: (expect=%02x, got=%02x)"
    [Rd.val, Rr.val, Vd.toNat, Vr.toNat]

/-- `base_CPI` -/
def baseCPI (Rd : UpperReg) (Vd Vk : Byte) : OpcodeTest :=
  let res := ((Vd.toNat : Int) - Vk.toNat).land 0xff
  sregTest (setRd 0 Rd Vd) (rawRdK 0x3000 Rd Vk)
    (subSreg Vd.toNat Vk.toNat res res (isZero res))
    "CPI r%02d 0x%02x: 0x%02x 0x%02x: (expect=%02x, got=%02x)"
    [Rd.val.val, Vk.toNat, Vd.toNat, Vk.toNat]

section

variable {δ : Type} [IoDevices δ] {Q : δ → Prop} (hQ : QuietDevices Q) {sets : Regs → Regs}
  {rawOpcode : Nat} {expectSreg : Int} {format : String} {args : List Int} {Rd Rr : Fin 32}
  {Vd Vr : Byte}

/-- The instruction compares `Rd` and `Rr`, and changes SREG as an operation does. -/
def ComparesRdRr (func : OpcodeName) (op : Byte → Byte → Byte → Byte × Byte) : Prop :=
  ∀ (d r : Fin 32) (c : AvrCore Unit), (aluReference func d r c).regs = [] ∧
    (aluReference func d r c).flags.apply c.sreg = (op (c.gpwr d) (c.gpwr r) c.sreg).2

theorem compares_CP :
  ComparesRdRr .CP subOp
  := by
  intro d r c
  rw [subOp_eq]
  simp only [aluReference, ofNat_toNat_register, and_self]

theorem compares_CPC :
  ComparesRdRr .CPC sbcOp
  := by
  intro d r c
  rw [sbcOp_eq]
  simp only [aluReference, ofNat_toNat_register, and_self]

theorem compares_CPI
    (d : Fin 32) (K : Byte) (c : AvrCore Unit) :
  (aluReference .CPI d K.toNat c).regs = [] ∧
    (aluReference .CPI d K.toNat c).flags.apply c.sreg = (subOp (c.gpwr d) K c.sreg).2
  := by
  rw [subOp_eq]
  simp only [aluReference, ofNat_toNat_register, toInt_constant, and_self]

include hQ

theorem correct_sregTest
    {i : Instr} (hfunc : i.func ∈ aluOpcodes) (hone : i.operands.second = none)
    (hraw : rawOpcode = i.first.toNat)
    (hsets : ∀ regs : Regs, regs.Valid → (sets regs).Valid ∧ sets regs Reg.PC = regs Reg.PC)
    (heffect : ∀ (m : Cpu) (regs : Regs), m.regs = sets regs →
      let effect := aluReference i.func i.operands.arg1 i.operands.arg2 m.registers
      effect.regs = [] ∧ expectSreg = (effect.flags.apply m.sreg).toNat) :
  (sregTest sets rawOpcode expectSreg format args).Correct Q
  := by
  apply correct_registerTest hQ hfunc hone hraw hsets
  intro m regs hm effect
  obtain ⟨hregs, hexpect⟩ := heffect m regs hm
  refine ⟨?_, ?_, ?_⟩
  · intro pc clocks
    exact expectEq_self hexpect _ _
  · rw [hregs]
    exact nofun
  · left
    simp

theorem correct_compareTest
    {func : OpcodeName} {op : Byte → Byte → Byte → Byte × Byte} (hcomp : ComparesRdRr func op)
    (hfunc : func ∈ aluOpcodes) (hform : func.form = .rd5rr5) {head sreg : Nat} {s : Byte}
    (hhead : head = func.head.toNat) (hsreg : sreg = s.toNat) (hsame : Rd = Rr → Vd = Vr)
    (hexpect : expectSreg = (op Vd Vr s).2.toNat) :
  (sregTest (setRdRr sreg Rd Vd Rr Vr) (rawRdRr head Rd Rr) expectSreg format args).Correct Q
  := by
  subst hsreg
  let i : Instr := .ofAlu func (.rd5rr5 (.ofFin Rd) (.ofFin Rr)) hfunc hform.symm rfl
  apply correct_sregTest hQ (i := i) hfunc rfl (rawRdRr_eq rfl hhead) setRdRr_valid
  intro m regs hm
  obtain ⟨hRd, hRr, hs⟩ := setRdRr_view hsame hm
  obtain ⟨hregs, hflags⟩ := hcomp Rd Rr m.registers
  refine ⟨hregs, ?_⟩
  change _ = (op (m.gpwr Rd) (m.gpwr Rr) m.sreg).2 at hflags
  rw [hRd, hRr, hs] at hflags
  rw [hexpect, ← hflags]
  rfl

theorem correct_CP
    (hsame : Rd = Rr → Vd = Vr) :
  (baseCP Rd Vd Rr Vr).Correct Q
  := by
  obtain ⟨hres, hflags⟩ := expect_subOp Vd Vr
  apply correct_compareTest hQ compares_CP (by decide) rfl rfl (s := 0) rfl hsame
  apply hflags
  rw [hres, BitVec.ofInt_natCast, BitVec.ofNat_toNat, BitVec.setWidth_eq]

theorem correct_CPC
    (hsame : Rd = Rr → Vd = Vr) (C Z : Bool) :
  (baseCPC Rd Vd Rr Vr C Z).Correct Q
  := by
  obtain ⟨hres, hflags⟩ := expect_sbcOp Vd Vr C Z
  have hsreg : (C.toNat <<< SREG.C) + (Z.toNat <<< SREG.Z) = (carryZero C Z).toNat := by
    cases C <;> cases Z <;> rfl
  apply correct_compareTest hQ compares_CPC (by decide) rfl rfl hsreg hsame
  apply hflags
  rw [hres, BitVec.ofInt_natCast, BitVec.ofNat_toNat, BitVec.setWidth_eq]

theorem correct_CPI
    (Rd : UpperReg) (Vd Vk : Byte) :
  (baseCPI Rd Vd Vk).Correct Q
  := by
  obtain ⟨hres, hflags⟩ := expect_subOp Vd Vk
  let i : Instr := .ofAlu .CPI (.rd4K8 (.ofNat 4 (Rd.val.val - 16)) Vk) (by decide) rfl rfl
  apply correct_sregTest hQ (i := i) (show OpcodeName.CPI ∈ _ by decide) rfl
    (rawRdK_eq Rd.property rfl rfl) (setRd_valid (s := 0))
  intro m regs hm
  obtain ⟨hRd, hs⟩ := setRd_view (s := 0) hm
  obtain ⟨hregs, hsub⟩ := compares_CPI Rd Vk m.registers
  have harg : i.operands.arg1 = Rd.val.val := arg1_rd4K8 Rd.property
  rw [harg]
  refine ⟨hregs, ?_⟩
  change _ = (subOp (m.gpwr Rd) Vk m.sreg).2 at hsub
  rw [hRd, hs] at hsub
  have hsreg := hflags _ (ofInt_of_land (land_byte_toNat (subOp Vd Vk 0).1))
  rw [← hres] at hsreg
  rw [hsreg, ← hsub]
  rfl

end

end SimulAvr
