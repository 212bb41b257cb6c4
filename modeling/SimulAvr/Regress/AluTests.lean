import SimulAvr.Regress.OpcodeRules
import SimulAvr.Regress.SregChecks

/-!
# The test cases of the arithmetic and logic instructions

The test cases of one operand form set the same registers and build their opcodes the same way;
most of them check the result in `Rd`, and SREG.  The operations of the simulator give what the
test cases expect, for all operands.
-/

namespace SimulAvr

open Exchange

/-! ### Shapes of test cases -/

/-- A test case that sets registers, and looks at registers only -/
def registerTest (sets : Regs → Regs) (rawOpcode : Nat) (regChanged : List (Fin 35))
    (analyze : Regs → ClientM Unit) : OpcodeTest where
  setup regs := return (sets regs, rawOpcode)
  regChanged := regChanged
  analyzeResults _ := analyze

/-- A test case that looks at `Rd` and SREG -/
def resultTest (sets : Regs → Regs) (rawOpcode : Nat) (Rd : Fin 32)
    (analyze : Nat → Nat → ClientM Unit) : OpcodeTest :=
  registerTest sets rawOpcode [Reg.R Rd, Reg.SREG] fun regs =>
    analyze (regs (Reg.R Rd)) (regs Reg.SREG)

/-- SREG and `Rd` are set. -/
def setRd (sreg : Nat) (Rd : Fin 32) (Vd : Byte) (regs : Regs) : Regs :=
  (regs.set Reg.SREG sreg).set (Reg.R Rd) Vd.toNat

/-- SREG, `Rd` and `Rr` are set. -/
def setRdRr (sreg : Nat) (Rd : Fin 32) (Vd : Byte) (Rr : Fin 32) (Vr : Byte) (regs : Regs) : Regs :=
  (setRd sreg Rd Vd regs).set (Reg.R Rr) Vr.toNat

/-- The checks of a result and of SREG -/
def checkResult (expect : Int) (got : Nat) (format : String) (args : List Int) (expectSreg : Int)
    (gotSreg : Nat) (formatSreg : String) (argsSreg : List Int) : ClientM Unit := do
  expectEq expect got format (args ++ [expect, (got : Int)])
  expectEq expectSreg gotSreg formatSreg (argsSreg ++ [expectSreg, (gotSreg : Int)])

theorem checkResult_self
    {expect expectSreg : Int} {got gotSreg : Nat} (h : expect = got) (hsreg : expectSreg = gotSreg)
    (format : String) (args : List Int) (formatSreg : String) (argsSreg : List Int) :
  checkResult expect got format args expectSreg gotSreg formatSreg argsSreg = .ret ()
  := by
  rw [checkResult, expectEq_self h, expectEq_self hsreg]
  rfl

/-- An arithmetic or logic instruction -/
def Instr.ofAlu (func : OpcodeName) (operands : Operands) (hfunc : func ∈ aluOpcodes)
    (form : operands.form = func.form) (hsecond : operands.second = none) : Instr where
  func := func
  operands := operands
  known := by
    rintro rfl
    exact absurd hfunc (by decide)
  form := form
  words := by
    have hone : ∀ func ∈ aluOpcodes, func ∉ twoWordOpcodes := by decide
    rw [hsecond]
    exact ⟨fun h => absurd h (by decide), fun h => absurd h (hone func hfunc)⟩

section

variable {δ : Type} [IoDevices δ] {Q : δ → Prop} {sets : Regs → Regs} {rawOpcode : Nat}
  {regChanged : List (Fin 35)}

/-- The registers that an effect does not write -/
theorem AluEffect.gpwr_of_not_mem
    {effect : AluEffect} {j : Fin 32} (h : ∀ w ∈ effect.regs, w.1 ≠ j) (gpwr : Fin 32 → Byte) :
  effect.gpwr gpwr j = gpwr j
  := by
  rw [AluEffect.gpwr]
  generalize effect.regs = ws at h
  induction ws generalizing gpwr with
  | nil => rfl
  | cons w ws ih =>
    rw [List.forall_mem_cons] at h
    rw [List.foldl_cons, ih _ h.2, Function.update_of_ne h.1.symm]

/-- The view after an effect -/
def Cpu.applied (m : Cpu) (effect : AluEffect) : Cpu :=
  { m with gpwr := effect.gpwr m.gpwr, sreg := effect.flags.apply m.sreg }

/-- The instruction has the effect that the test case expects. -/
theorem correct_registerTest
    (hQ : QuietDevices Q) {analyze : Regs → ClientM Unit} {i : Instr} (hfunc : i.func ∈ aluOpcodes)
    (hone : i.operands.second = none) (hraw : rawOpcode = i.first.toNat)
    (hsets : ∀ regs : Regs, regs.Valid → (sets regs).Valid ∧ sets regs Reg.PC = regs Reg.PC)
    (heffect : ∀ (m : Cpu) (regs : Regs), m.regs = sets regs →
      let effect := aluReference i.func i.operands.arg1 i.operands.arg2 m.registers
      (∀ pc clocks, analyze { m.applied effect with pc := pc, clocks := clocks }.regs = .ret ()) ∧
        (∀ w ∈ effect.regs, Reg.R w.1 ∈ regChanged) ∧ (Reg.SREG ∈ regChanged ∨ effect.flags = [])) :
  (registerTest sets rawOpcode regChanged analyze).Correct Q
  := by
  apply OpcodeTest.correct_of_ret hQ (i := i) (fun _ => rfl)
  · rw [hraw]
    exact commonBuildOpcode_first rfl hone
  · intro regs hvalid hpc
    obtain ⟨hvalid', hpc'⟩ := hsets regs hvalid
    rw [hpc', hpc, i.encode_eq, hone]
    exact ⟨hvalid', Nat.le_of_ble_eq_true rfl⟩
  · intro m regs hm hvalid hpc _
    obtain ⟨hanalyze, hchanged, hsreg⟩ := heffect m regs hm
    have hmpc : m.pc = 0 := by
      apply pc_of_regs hm
      rw [(hsets regs hvalid).2, hpc]
    unfold Cpu.exec
    rw [if_pos hfunc, Cpu.alu]
    generalize aluReference i.func i.operands.arg1 i.operands.arg2 m.registers = effect at *
    refine ⟨(m.applied effect).after 1 effect.clocks.toNat, ?_, ?_⟩
    · apply Cpu.goto_eq
      · rw [hmpc]
        rfl
      · rw [at90s8515_pcMax]
        decide
    · apply OpcodeTest.accepts_of_kept rfl (Nat.lt_of_sub_eq_succ rfl)
      · intro cellName flash st c _
        have hret : analyze ((m.applied effect).after 1 effect.clocks.toNat).regs = .ret () :=
          hanalyze 1 _
        change Performs cellName c (analyze _) c ()
        rw [hret]
        exact .pure c ()
      · intro _
        rw [hmpc]
        rfl
      · intro j hj
        apply AluEffect.gpwr_of_not_mem
        rintro w hw rfl
        exact hj (hchanged w hw)
      · intro hj
        rcases hsreg with hsreg | hsreg
        · exact absurd hsreg hj
        · change effect.flags.apply m.sreg = m.sreg
          rw [hsreg, Flags.apply_nil]
      · intro _
        rfl

section

variable {s : Byte} {Rd Rr : Fin 32} {Vd Vr : Byte} {analyze : Nat → Nat → ClientM Unit}

theorem setRd_valid
    (regs : Regs) (h : regs.Valid) :
  (setRd s.toNat Rd Vd regs).Valid ∧ setRd s.toNat Rd Vd regs Reg.PC = regs Reg.PC
  := by
  refine ⟨(h.setSreg s.isLt).setR Rd Vd.isLt, ?_⟩
  rw [setRd, Regs.set_of_ne (Reg.R_ne_PC Rd).symm, Regs.set_of_ne (by decide)]

theorem setRd_view
    {m : Cpu} {regs : Regs} (h : m.regs = setRd s.toNat Rd Vd regs) :
  m.gpwr Rd = Vd ∧ m.sreg = s
  := by
  constructor
  · apply gpwr_of_regs h
    rw [setRd, Regs.set_self]
  · apply sreg_of_regs h
    rw [setRd, Regs.set_of_ne (Reg.R_ne_SREG Rd).symm, Regs.set_self]

theorem setRdRr_valid
    (regs : Regs) (h : regs.Valid) :
  (setRdRr s.toNat Rd Vd Rr Vr regs).Valid ∧
    setRdRr s.toNat Rd Vd Rr Vr regs Reg.PC = regs Reg.PC
  := by
  obtain ⟨hvalid, hpc⟩ := setRd_valid (s := s) regs h
  refine ⟨hvalid.setR Rr Vr.isLt, ?_⟩
  rw [setRdRr, Regs.set_of_ne (Reg.R_ne_PC Rr).symm, hpc]

theorem setRdRr_view
    (hsame : Rd = Rr → Vd = Vr) {m : Cpu} {regs : Regs}
    (h : m.regs = setRdRr s.toNat Rd Vd Rr Vr regs) :
  m.gpwr Rd = Vd ∧ m.gpwr Rr = Vr ∧ m.sreg = s
  := by
  refine ⟨?_, ?_, ?_⟩
  · apply gpwr_of_regs h
    rw [setRdRr]
    by_cases heq : Rd = Rr
    · rw [heq, Regs.set_self, hsame heq]
    · rw [Regs.set_of_ne (mt Reg.R_inj.mp heq), setRd, Regs.set_self]
  · apply gpwr_of_regs h
    rw [setRdRr, Regs.set_self]
  · apply sreg_of_regs h
    rw [setRdRr, Regs.set_of_ne (Reg.R_ne_SREG Rr).symm, setRd, Regs.set_of_ne (Reg.R_ne_SREG Rd).symm,
      Regs.set_self]

/-- The instruction leaves a result in `Rd`. -/
theorem correct_resultTest
    (hQ : QuietDevices Q) {i : Instr} (hfunc : i.func ∈ aluOpcodes) (hone : i.operands.second = none)
    (hraw : rawOpcode = i.first.toNat)
    (hsets : ∀ regs : Regs, regs.Valid → (sets regs).Valid ∧ sets regs Reg.PC = regs Reg.PC)
    (heffect : ∀ (m : Cpu) (regs : Regs), m.regs = sets regs →
      let effect := aluReference i.func i.operands.arg1 i.operands.arg2 m.registers
      ∃ v, effect.regs = [(Rd, v)] ∧
        analyze (BitVec.ofInt 8 v).toNat (effect.flags.apply m.sreg).toNat = .ret ()) :
  (resultTest sets rawOpcode Rd analyze).Correct Q
  := by
  apply correct_registerTest hQ hfunc hone hraw hsets
  intro m regs hm effect
  obtain ⟨v, hregs, hanalyze⟩ := heffect m regs hm
  have hgpwr : effect.gpwr m.gpwr = Function.update m.gpwr Rd (.ofInt 8 v) := by
    rw [AluEffect.gpwr, hregs]
    rfl
  refine ⟨?_, ?_, ?_⟩
  · intro pc clocks
    rw [Cpu.regs_gpwr]
    change analyze (effect.gpwr m.gpwr Rd).toNat (effect.flags.apply m.sreg).toNat = _
    rw [hgpwr, Function.update_self, hanalyze]
  · rw [hregs]
    simp
  · left
    simp

end

end

/-! ### Operand forms -/

/-- The instruction computes an operation on `Rd` and `Rr`. -/
def ComputesRdRr (func : OpcodeName) (op : Byte → Byte → Byte → Byte × Byte) : Prop :=
  ∀ (d r : Fin 32) (c : AvrCore Unit), ∃ v, (aluReference func d r c).regs = [(d, v)] ∧
    op (c.gpwr d) (c.gpwr r) c.sreg = (.ofInt 8 v, (aluReference func d r c).flags.apply c.sreg)

/-- The instruction computes an operation on `Rd` and a constant. -/
def ComputesRdK (func : OpcodeName) (op : Byte → Byte → Byte → Byte × Byte) : Prop :=
  ∀ (d : Fin 32) (K : Byte) (c : AvrCore Unit), ∃ v, (aluReference func d K.toNat c).regs = [(d, v)] ∧
    op (c.gpwr d) K c.sreg = (.ofInt 8 v, (aluReference func d K.toNat c).flags.apply c.sreg)

/-- The instruction computes an operation on `Rd`. -/
def ComputesRd (func : OpcodeName) (op : Byte → Byte → Byte × Byte) : Prop :=
  ∀ (d : Fin 32) (arg2 : Int) (c : AvrCore Unit), ∃ v, (aluReference func d arg2 c).regs = [(d, v)] ∧
    op (c.gpwr d) c.sreg = (.ofInt 8 v, (aluReference func d arg2 c).flags.apply c.sreg)

/-- The test cases of `OP Rd, Rr` -/
def rdRrTest (head sreg : Nat) (Rd : Fin 32) (Vd : Byte) (Rr : Fin 32) (Vr : Byte)
    (analyze : Nat → Nat → ClientM Unit) : OpcodeTest :=
  resultTest (setRdRr sreg Rd Vd Rr Vr) (rawRdRr head Rd Rr) Rd analyze

/-- A register from R16 on -/
abbrev UpperReg : Type :=
  { d : Fin 32 // 16 ≤ d.val }

/-- The test cases of `OP Rd, K` -/
def rdKTest (head sreg : Nat) (Rd : UpperReg) (Vd Vk : Byte) (analyze : Nat → Nat → ClientM Unit) :
    OpcodeTest :=
  resultTest (setRd sreg Rd Vd) (rawRdK head Rd Vk) Rd analyze

/-- The test cases of `OP Rd` -/
def rdTest (head sreg : Nat) (Rd : Fin 32) (Vd : Byte) (analyze : Nat → Nat → ClientM Unit) :
    OpcodeTest :=
  resultTest (setRd sreg Rd Vd) (rawRd head Rd) Rd analyze

section

variable {δ : Type} [IoDevices δ] {Q : δ → Prop} {func : OpcodeName} {head sreg : Nat} {s : Byte}
  {Rd Rr : Fin 32} {Vd Vr Vk : Byte} {analyze : Nat → Nat → ClientM Unit}

theorem rawRdRr_eq
    {i : Instr} (hi : i.operands = .rd5rr5 (.ofFin Rd) (.ofFin Rr)) (hhead : head = i.func.head.toNat) :
  rawRdRr head Rd Rr = i.first.toNat
  := by
  have hd := toNat_bits_rd5 Rd
  have hr := toNat_bits_rr5 Rr
  rw [toNat_first, hi, ← hhead]
  change _ = head ||| (Operands.rd5 (.ofFin Rd)).bits1.toNat
    ||| (Operands.rd5rr5 0 (.ofFin Rr)).bits2.toNat
  rw [hd, hr, ← Nat.or_assoc]
  rfl

theorem rawRdK_eq
    {i : Instr} (hRd : 16 ≤ Rd.val) (hi : i.operands = .rd4K8 (.ofNat 4 (Rd.val - 16)) Vk)
    (hhead : head = i.func.head.toNat) :
  rawRdK head Rd Vk = i.first.toNat
  := by
  have hd := toNat_bits_rd4 Rd hRd
  have hK := toNat_bits_K8 Vk
  rw [toNat_first, hi, ← hhead]
  change _ = head ||| (Operands.rd4K8 (.ofNat 4 (Rd.val - 16)) 0).bits1.toNat
    ||| (Operands.rd4K8 0 Vk).bits2.toNat
  rw [hd, hK, ← Nat.or_assoc]
  rfl

theorem rawRd_eq
    {i : Instr} (hi : i.operands = .rd5 (.ofFin Rd)) (hhead : head = i.func.head.toNat) :
  rawRd head Rd = i.first.toNat
  := by
  have hd := toNat_bits_rd5 Rd
  rw [toNat_first, hi, ← hhead, hd]
  exact (Nat.or_zero _).symm

/-- The operand of an instruction with a constant -/
theorem arg1_rd4K8
    (hRd : 16 ≤ Rd.val) :
  (Operands.rd4K8 (.ofNat 4 (Rd.val - 16)) Vk).arg1 = Rd.val
  := by
  change (16 + (BitVec.ofNat 4 (Rd.val - 16)).toNat : Int) = _
  have := Rd.isLt
  rw [BitVec.toNat_ofNat]
  omega

theorem correct_rdRrTest
    (hQ : QuietDevices Q) {op : Byte → Byte → Byte → Byte × Byte} (hcomp : ComputesRdRr func op)
    (hfunc : func ∈ aluOpcodes) (hform : func.form = .rd5rr5) (hhead : head = func.head.toNat)
    (hsreg : sreg = s.toNat) (hsame : Rd = Rr → Vd = Vr)
    (hanalyze : analyze (op Vd Vr s).1.toNat (op Vd Vr s).2.toNat = .ret ()) :
  (rdRrTest head sreg Rd Vd Rr Vr analyze).Correct Q
  := by
  subst hsreg
  let i : Instr := .ofAlu func (.rd5rr5 (.ofFin Rd) (.ofFin Rr)) hfunc hform.symm rfl
  apply correct_resultTest hQ (i := i) hfunc rfl (rawRdRr_eq rfl hhead) setRdRr_valid
  intro m regs hm
  obtain ⟨hRd, hRr, hs⟩ := setRdRr_view hsame hm
  obtain ⟨v, hregs, hop⟩ := hcomp Rd Rr m.registers
  refine ⟨v, hregs, ?_⟩
  change op (m.gpwr Rd) (m.gpwr Rr) m.sreg = _ at hop
  rw [hRd, hRr, hs] at hop
  rw [hop] at hanalyze
  exact hanalyze

theorem correct_rdKTest
    (hQ : QuietDevices Q) {op : Byte → Byte → Byte → Byte × Byte} (hcomp : ComputesRdK func op)
    (hfunc : func ∈ aluOpcodes) (hform : func.form = .rd4K8) (hhead : head = func.head.toNat)
    (hsreg : sreg = s.toNat) (Rd : UpperReg)
    (hanalyze : analyze (op Vd Vk s).1.toNat (op Vd Vk s).2.toNat = .ret ()) :
  (rdKTest head sreg Rd Vd Vk analyze).Correct Q
  := by
  subst hsreg
  let i : Instr := .ofAlu func (.rd4K8 (.ofNat 4 (Rd.val.val - 16)) Vk) hfunc hform.symm rfl
  apply correct_resultTest hQ (i := i) hfunc rfl (rawRdK_eq Rd.property rfl hhead) setRd_valid
  intro m regs hm
  obtain ⟨hRd, hs⟩ := setRd_view hm
  obtain ⟨v, hregs, hop⟩ := hcomp Rd Vk m.registers
  have harg : i.operands.arg1 = Rd.val.val := arg1_rd4K8 Rd.property
  rw [harg]
  refine ⟨v, hregs, ?_⟩
  change op (m.gpwr Rd) Vk m.sreg = _ at hop
  rw [hRd, hs] at hop
  rw [hop] at hanalyze
  exact hanalyze

theorem correct_rdTest
    (hQ : QuietDevices Q) {op : Byte → Byte → Byte × Byte} (hcomp : ComputesRd func op)
    (hfunc : func ∈ aluOpcodes) (hform : func.form = .rd5) (hhead : head = func.head.toNat)
    (hsreg : sreg = s.toNat)
    (hanalyze : analyze (op Vd s).1.toNat (op Vd s).2.toNat = .ret ()) :
  (rdTest head sreg Rd Vd analyze).Correct Q
  := by
  subst hsreg
  let i : Instr := .ofAlu func (.rd5 (.ofFin Rd)) hfunc hform.symm rfl
  apply correct_resultTest hQ (i := i) hfunc rfl (rawRd_eq rfl hhead) setRd_valid
  intro m regs hm
  obtain ⟨hRd, hs⟩ := setRd_view hm
  obtain ⟨v, hregs, hop⟩ := hcomp Rd i.operands.arg2 m.registers
  refine ⟨v, hregs, ?_⟩
  change op (m.gpwr Rd) m.sreg = _ at hop
  rw [hRd, hs] at hop
  rw [hop] at hanalyze
  exact hanalyze

end

/-! ### The operations of the instructions -/

theorem computes_ADC :
  ComputesRdRr .ADC adcOp
  := by
  intro d r c
  have hop := adcOp_eq (c.gpwr d) (c.gpwr r) c.sreg d
  simp only [aluReference, ofNat_toNat_register]
  exact ⟨_, rfl, hop⟩

theorem computes_ADD :
  ComputesRdRr .ADD addOp
  := by
  intro d r c
  have hop := addOp_eq (c.gpwr d) (c.gpwr r) c.sreg d
  simp only [aluReference, ofNat_toNat_register]
  exact ⟨_, rfl, hop⟩

theorem computes_AND :
  ComputesRdRr .AND andOp
  := by
  intro d r c
  have hop := logicOp_eq (c.gpwr d) (c.gpwr r) c.sreg (BitVec.toNat_and _ _)
  simp only [aluReference, ofNat_toNat_register]
  exact ⟨_, rfl, hop⟩

theorem computes_EOR :
  ComputesRdRr .EOR eorOp
  := by
  intro d r c
  have hop := logicOp_eq (c.gpwr d) (c.gpwr r) c.sreg (BitVec.toNat_xor _ _)
  simp only [aluReference, ofNat_toNat_register]
  exact ⟨_, rfl, hop⟩

theorem computes_OR :
  ComputesRdRr .OR orOp
  := by
  intro d r c
  have hop := logicOp_eq (c.gpwr d) (c.gpwr r) c.sreg (BitVec.toNat_or _ _)
  simp only [aluReference, ofNat_toNat_register]
  exact ⟨_, rfl, hop⟩

theorem computes_SBC :
  ComputesRdRr .SBC sbcOp
  := by
  intro d r c
  have hop := sbcOp_eq (c.gpwr d) (c.gpwr r) c.sreg
  simp only [aluReference, ofNat_toNat_register]
  exact ⟨_, rfl, hop⟩

theorem computes_SUB :
  ComputesRdRr .SUB subOp
  := by
  intro d r c
  have hop := subOp_eq (c.gpwr d) (c.gpwr r) c.sreg
  simp only [aluReference, ofNat_toNat_register]
  exact ⟨_, rfl, hop⟩

/-- The signed value of a constant -/
theorem toInt_constant :
  ∀ K : Byte, (if (K.toNat : Int) < 2 ^ 7 then (K.toNat : Int) else K.toNat - 2 ^ 8) = K.toInt
  := by
  decide +kernel

theorem computes_ANDI :
  ComputesRdK .ANDI andOp
  := by
  intro d K c
  have hop := logicOp_eq (c.gpwr d) K c.sreg (BitVec.toNat_and _ _)
  simp only [aluReference, ofNat_toNat_register]
  exact ⟨_, rfl, hop⟩

theorem computes_ORI :
  ComputesRdK .ORI orOp
  := by
  intro d K c
  have hop := logicOp_eq (c.gpwr d) K c.sreg (BitVec.toNat_or _ _)
  simp only [aluReference, ofNat_toNat_register]
  exact ⟨_, rfl, hop⟩

theorem computes_SBCI :
  ComputesRdK .SBCI sbcOp
  := by
  intro d K c
  have hop := sbcOp_eq (c.gpwr d) K c.sreg
  simp only [aluReference, ofNat_toNat_register, toInt_constant]
  exact ⟨_, rfl, hop⟩

theorem computes_SUBI :
  ComputesRdK .SUBI subOp
  := by
  intro d K c
  have hop := subOp_eq (c.gpwr d) K c.sreg
  simp only [aluReference, ofNat_toNat_register, toInt_constant]
  exact ⟨_, rfl, hop⟩

theorem computes_ASR :
  ComputesRd .ASR asrOp
  := by
  intro d arg2 c
  have hop := asrOp_eq (c.gpwr d) c.sreg
  simp only [aluReference, ofNat_toNat_register]
  exact ⟨_, rfl, hop⟩

theorem computes_COM :
  ComputesRd .COM comOp
  := by
  intro d arg2 c
  have hop := comOp_eq (c.gpwr d) c.sreg
  simp only [aluReference, ofNat_toNat_register]
  exact ⟨_, rfl, hop⟩

theorem computes_DEC :
  ComputesRd .DEC decOp
  := by
  intro d arg2 c
  have hop := decOp_eq (c.gpwr d) c.sreg
  simp only [aluReference, ofNat_toNat_register]
  exact ⟨_, rfl, hop⟩

theorem computes_INC :
  ComputesRd .INC incOp
  := by
  intro d arg2 c
  have hop := incOp_eq (c.gpwr d) c.sreg
  simp only [aluReference, ofNat_toNat_register]
  exact ⟨_, rfl, hop⟩

theorem computes_LSR :
  ComputesRd .LSR lsrOp
  := by
  intro d arg2 c
  have hop := lsrOp_eq (c.gpwr d) c.sreg
  simp only [aluReference, ofNat_toNat_register]
  exact ⟨_, rfl, hop⟩

theorem computes_NEG :
  ComputesRd .NEG negOp
  := by
  intro d arg2 c
  have hop := negOp_eq (c.gpwr d) c.sreg
  simp only [aluReference, ofNat_toNat_register]
  exact ⟨_, rfl, hop⟩

theorem computes_ROR :
  ComputesRd .ROR rorOp
  := by
  intro d arg2 c
  have hop := rorOp_eq (c.gpwr d) c.sreg
  simp only [aluReference, ofNat_toNat_register]
  exact ⟨_, rfl, hop⟩

/-! ### Additions and subtractions -/

/-- `base_ADC` -/
def baseADC (Rd : Fin 32) (Vd : Byte) (Rr : Fin 32) (Vr : Byte) (C : Bool) : OpcodeTest :=
  let res : Int := Vd.toNat + Vr.toNat + C.toNat
  let args : List Int := [Rd.val, Rr.val, Vd.toNat, Vr.toNat, C.toNat]
  rdRrTest 0x1C00 (C.toNat <<< SREG.C) Rd Vd Rr Vr fun got gotSreg =>
    checkResult (res.land 0xff) got
      "ADC r%02d, r%02d: 0x%02x + 0x%02x + %d = (expect=%02x, got=%02x)" args
      (addSreg Vd.toNat Vr.toNat res) gotSreg
      "ADC r%02d, r%02d: 0x%02x + 0x%02x + %d -> SREG (expect=%02x, got=%02x)" args

/-- `base_ADD` -/
def baseADD (Rd : Fin 32) (Vd : Byte) (Rr : Fin 32) (Vr : Byte) (C : Bool) : OpcodeTest :=
  let res : Int := Vd.toNat + Vr.toNat
  let args : List Int := [Rd.val, Rr.val, Vd.toNat, Vr.toNat]
  rdRrTest 0x0C00 (C.toNat <<< SREG.C) Rd Vd Rr Vr fun got gotSreg =>
    checkResult (res.land 0xff) got
      "ADD r%02d, r%02d: 0x%02x + 0x%02x = (expect=%02x, got=%02x)" args
      (addSreg Vd.toNat Vr.toNat res) gotSreg
      "ADD r%02d, r%02d: 0x%02x + 0x%02x -> SREG (expect=%02x, got=%02x)" args

/-- `base_SBC` -/
def baseSBC (Rd : Fin 32) (Vd : Byte) (Rr : Fin 32) (Vr : Byte) (C Z : Bool) : OpcodeTest :=
  let res : Int := Vd.toNat - Vr.toNat - C.toNat
  let expect := res.land 0xff
  let args : List Int := [Rd.val, Rr.val, Vd.toNat, Vr.toNat, C.toNat]
  rdRrTest 0x0800 ((C.toNat <<< SREG.C) ||| (Z.toNat <<< SREG.Z)) Rd Vd Rr Vr fun got gotSreg =>
    checkResult expect got
      "SBC r%02d, r%02d: 0x%02x - 0x%02x - %d = (expect=%02x, got=%02x)" args
      (subSreg Vd.toNat Vr.toNat res expect (expectZ expect Z)) gotSreg
      "SBC r%02d, r%02d: 0x%02x - 0x%02x - %d -> SREG (expect=%02x, got=%02x)" args

/-- `base_SBCI` -/
def baseSBCI (Rd : UpperReg) (Vd Vk : Byte) (C Z : Bool) : OpcodeTest :=
  let res : Int := Vd.toNat - Vk.toNat - C.toNat
  let expect := res.land 0xff
  let args : List Int := [Rd.val.val, Vk.toNat, Vd.toNat, Vk.toNat, C.toNat]
  rdKTest 0x4000 ((C.toNat <<< SREG.C) ||| (Z.toNat <<< SREG.Z)) Rd Vd Vk fun got gotSreg =>
    checkResult expect got
      "SBCI r%02d, 0x%02x: 0x%02x - 0x%02x - %d = (expect=%02x, got=%02x)" args
      (subSreg Vd.toNat Vk.toNat res expect (expectZ expect Z)) gotSreg
      "SBCI r%02d, 0x%02x: 0x%02x - 0x%02x - %d -> SREG (expect=%02x, got=%02x)" args

/-- `base_SUB` -/
def baseSUB (Rd : Fin 32) (Vd : Byte) (Rr : Fin 32) (Vr : Byte) : OpcodeTest :=
  let res : Int := Vd.toNat - Vr.toNat
  let expect := res.land 0xff
  let args : List Int := [Rd.val, Rr.val, Vd.toNat, Vr.toNat]
  rdRrTest 0x1800 0 Rd Vd Rr Vr fun got gotSreg =>
    checkResult expect got
      "SUB r%02d, r%02d: 0x%02x - 0x%02x = (expect=%02x, got=%02x)" args
      (subSreg Vd.toNat Vr.toNat res expect (isZero expect)) gotSreg
      "SUB r%02d, r%02d: 0x%02x - 0x%02x -> SREG (expect=%02x, got=%02x)" args

/-- `base_SUBI` -/
def baseSUBI (Rd : UpperReg) (Vd Vk : Byte) : OpcodeTest :=
  let res : Int := Vd.toNat - Vk.toNat
  let expect := res.land 0xff
  let args : List Int := [Rd.val.val, Vk.toNat, Vd.toNat, Vk.toNat]
  rdKTest 0x5000 0 Rd Vd Vk fun got gotSreg =>
    checkResult expect got
      "SUBI r%02d, 0x%02x: 0x%02x - 0x%02x = (expect=%02x, got=%02x)" args
      (subSreg Vd.toNat Vk.toNat res expect (isZero expect)) gotSreg
      "SUBI r%02d, r%02d: 0x%02x - 0x%02x -> SREG (expect=%02x, got=%02x)" args

section

/-- SREG with a value of C and of Z -/
def carryZero (C Z : Bool) : Byte :=
  .ofNat 8 (C.toNat ||| Z.toNat <<< 1)

theorem carryZero_bits :
  ∀ C Z, (carryZero C Z).toNat = ((C.toNat <<< SREG.C) ||| (Z.toNat <<< SREG.Z)) ∧
    (carryZero C Z).toNat < 4 ∧ (carryZero C Z).getLsbD SREG.C = C ∧
    (carryZero C Z).getLsbD SREG.Z = Z
  := by
  decide

theorem toNat_carryZero
    (C : Bool) :
  C.toNat <<< SREG.C = (carryZero C false).toNat
  := by
  cases C <;> rfl

variable (Vd Vr : Byte)

theorem expect_adcOp
    (C : Bool) :
  ((Vd.toNat + Vr.toNat + C.toNat : Int).land 0xff = (adcOp Vd Vr (carryZero C false)).1.toNat) ∧
    addSreg Vd.toNat Vr.toNat (Vd.toNat + Vr.toNat + C.toNat)
      = (adcOp Vd Vr (carryZero C false)).2.toNat
  := by
  obtain ⟨-, hlow, hC, -⟩ := carryZero_bits C false
  have hcarry : carryIn (carryZero C false) = Carry.carryIn 8 C := by
    rw [carryIn, hC]
    rfl
  rw [adcOp, hcarry]
  constructor
  · rw [land_byte, ← ofInt_add]
  · exact addSreg_eq Vd Vr C hlow

theorem expect_addOp
    (C : Bool) :
  ((Vd.toNat + Vr.toNat : Int).land 0xff = (addOp Vd Vr (carryZero C false)).1.toNat) ∧
    addSreg Vd.toNat Vr.toNat (Vd.toNat + Vr.toNat) = (addOp Vd Vr (carryZero C false)).2.toNat
  := by
  obtain ⟨-, hlow, -, -⟩ := carryZero_bits C false
  have hres := ofInt_add Vd Vr false
  have hsreg := addSreg_eq Vd Vr false hlow
  rw [add_carryIn_false] at hres hsreg
  rw [Bool.toNat_false, Nat.cast_zero, Int.add_zero] at hres hsreg
  rw [addOp]
  constructor
  · rw [land_byte, ← hres]
  · exact hsreg

/-- The result of a subtraction with carry, and its expected flags -/
theorem expect_sbcOp
    (C Z : Bool) :
  let expect := (Vd.toNat - Vr.toNat - C.toNat : Int).land 0xff
  expect = (sbcOp Vd Vr (carryZero C Z)).1.toNat ∧ ∀ v, BitVec.ofInt 8 v = (sbcOp Vd Vr (carryZero C Z)).1 →
    subSreg Vd.toNat Vr.toNat v expect (expectZ expect Z) = (sbcOp Vd Vr (carryZero C Z)).2.toNat
  := by
  obtain ⟨-, hlow, hC, hZ⟩ := carryZero_bits C Z
  have hcarry : carryIn (carryZero C Z) = Carry.carryIn 8 C := by
    rw [carryIn, hC]
    rfl
  rw [← cpcOp_eq, sbcOp, cpcOp, hcarry, hZ]
  dsimp only
  rw [land_byte, ← ofInt_sub, expectZ_toNat]
  refine ⟨rfl, ?_⟩
  intro v hv
  exact subSreg_eq Vd Vr hv _ hlow

theorem expect_subOp :
  let expect := (Vd.toNat - Vr.toNat : Int).land 0xff
  expect = (subOp Vd Vr 0).1.toNat ∧ ∀ v, BitVec.ofInt 8 v = (subOp Vd Vr 0).1 →
    subSreg Vd.toNat Vr.toNat v expect (isZero expect) = (subOp Vd Vr 0).2.toNat
  := by
  have hres := ofInt_sub Vd Vr false
  rw [sub_carryIn_false, Bool.toNat_false, Nat.cast_zero, Int.sub_zero] at hres
  dsimp only
  rw [land_byte, ← hres, isZero_toNat]
  refine ⟨rfl, ?_⟩
  intro v hv
  exact subSreg_eq Vd Vr hv _ (by decide)

end

/-- A number that is cut to a byte -/
theorem land_byte_toNat
    (b : Byte) :
  (b.toNat : Int).land 0xff = b.toNat
  := by
  rw [land_byte, BitVec.ofInt_natCast, BitVec.ofNat_toNat, BitVec.setWidth_eq]

/-- The byte of an integer of which the lower eight bits are known -/
theorem ofInt_of_land
    {v : Int} {b : Byte} (h : v.land 0xff = b.toNat) :
  BitVec.ofInt 8 v = b
  := by
  rw [land_byte] at h
  apply BitVec.eq_of_toNat_eq
  exact Int.ofNat_inj.mp h

section

variable {δ : Type} [IoDevices δ] {Q : δ → Prop} (hQ : QuietDevices Q) {Rd Rr : Fin 32} {Vd Vr : Byte}

include hQ

theorem correct_ADC
    (hsame : Rd = Rr → Vd = Vr) (C : Bool) :
  (baseADC Rd Vd Rr Vr C).Correct Q
  := by
  obtain ⟨hexpect, hflags⟩ := expect_adcOp Vd Vr C
  apply correct_rdRrTest hQ computes_ADC (by decide) rfl rfl (toNat_carryZero C) hsame
  exact checkResult_self hexpect hflags _ _ _ _

theorem correct_ADD
    (hsame : Rd = Rr → Vd = Vr) (C : Bool) :
  (baseADD Rd Vd Rr Vr C).Correct Q
  := by
  obtain ⟨hexpect, hflags⟩ := expect_addOp Vd Vr C
  apply correct_rdRrTest hQ computes_ADD (by decide) rfl rfl (toNat_carryZero C) hsame
  exact checkResult_self hexpect hflags _ _ _ _

theorem correct_SBC
    (hsame : Rd = Rr → Vd = Vr) (C Z : Bool) :
  (baseSBC Rd Vd Rr Vr C Z).Correct Q
  := by
  obtain ⟨hexpect, hflags⟩ := expect_sbcOp Vd Vr C Z
  obtain ⟨hsreg, -⟩ := carryZero_bits C Z
  apply correct_rdRrTest hQ computes_SBC (by decide) rfl rfl hsreg.symm hsame
  exact checkResult_self hexpect (hflags _ (ofInt_of_land hexpect)) _ _ _ _

theorem correct_SBCI
    (Rd : UpperReg) (Vd Vk : Byte) (C Z : Bool) :
  (baseSBCI Rd Vd Vk C Z).Correct Q
  := by
  obtain ⟨hexpect, hflags⟩ := expect_sbcOp Vd Vk C Z
  obtain ⟨hsreg, -⟩ := carryZero_bits C Z
  apply correct_rdKTest hQ computes_SBCI (by decide) rfl rfl hsreg.symm
  exact checkResult_self hexpect (hflags _ (ofInt_of_land hexpect)) _ _ _ _

theorem correct_SUB
    (hsame : Rd = Rr → Vd = Vr) :
  (baseSUB Rd Vd Rr Vr).Correct Q
  := by
  obtain ⟨hexpect, hflags⟩ := expect_subOp Vd Vr
  apply correct_rdRrTest hQ computes_SUB (by decide) rfl rfl (s := 0) rfl hsame
  exact checkResult_self hexpect (hflags _ (ofInt_of_land hexpect)) _ _ _ _

theorem correct_SUBI
    (Rd : UpperReg) (Vd Vk : Byte) :
  (baseSUBI Rd Vd Vk).Correct Q
  := by
  obtain ⟨hexpect, hflags⟩ := expect_subOp Vd Vk
  apply correct_rdKTest hQ computes_SUBI (by decide) rfl rfl (s := 0) rfl
  exact checkResult_self hexpect (hflags _ (ofInt_of_land hexpect)) _ _ _ _

end

/-! ### Logic -/

/-- The test cases of `OP Rd, Rr` for a logical operation, but for EOR -/
def logicRdRrTest (head : Nat) (Rd : Fin 32) (Vd : Byte) (Rr : Fin 32) (Vr : Byte) (expect : Int)
    (format formatSreg : String) : OpcodeTest :=
  let args : List Int := [Rd.val, Rr.val, Vd.toNat, Vr.toNat]
  rdRrTest head (1 <<< SREG.V) Rd Vd Rr Vr fun got gotSreg =>
    checkResult expect got format args (logicSreg expect) gotSreg formatSreg args

/-- The test cases of `OP Rd, K` for a logical operation -/
def logicRdKTest (head : Nat) (Rd : UpperReg) (Vd Vk : Byte) (expect : Int)
    (format formatSreg : String) : OpcodeTest :=
  let args : List Int := [Rd.val.val, Vk.toNat, Vd.toNat, Vk.toNat]
  rdKTest head (1 <<< SREG.V) Rd Vd Vk fun got gotSreg =>
    checkResult expect got format args (logicSreg expect) gotSreg formatSreg args

/-- `base_AND` -/
def baseAND (Rd : Fin 32) (Vd : Byte) (Rr : Fin 32) (Vr : Byte) : OpcodeTest :=
  logicRdRrTest 0x2000 Rd Vd Rr Vr (((Vd.toNat : Int).land Vr.toNat).land 0xff)
    "AND r%02d, r%02d: 0x%02x & 0x%02x = (expect=%02x, got=%02x)"
    "AND r%02d, r%02d: 0x%02x + 0x%02x -> SREG (expect=%02x, got=%02x)"

/-- `base_ANDI` -/
def baseANDI (Rd : UpperReg) (Vd Vk : Byte) : OpcodeTest :=
  logicRdKTest 0x7000 Rd Vd Vk (((Vd.toNat : Int).land Vk.toNat).land 0xff)
    "ANDI r%02d, 0x%02x: 0x%02x & 0x%02x = (expect=%02x, got=%02x)"
    "ANDI r%02d, 0x%02x: 0x%02x + 0x%02x -> SREG (expect=%02x, got=%02x)"

/-- `base_OR` -/
def baseOR (Rd : Fin 32) (Vd : Byte) (Rr : Fin 32) (Vr : Byte) : OpcodeTest :=
  logicRdRrTest 0x2800 Rd Vd Rr Vr (((Vd.toNat : Int).lor Vr.toNat).land 0xff)
    "OR r%02d, r%02d: 0x%02x | 0x%02x = (expect=%02x, got=%02x)"
    "OR r%02d, r%02d: 0x%02x | 0x%02x -> SREG (expect=%02x, got=%02x)"

/-- `base_ORI` -/
def baseORI (Rd : UpperReg) (Vd Vk : Byte) : OpcodeTest :=
  logicRdKTest 0x6000 Rd Vd Vk (((Vd.toNat : Int).lor Vk.toNat).land 0xff)
    "ORI r%02d, 0x%02x: 0x%02x | 0x%02x = (expect=%02x, got=%02x)"
    "ORI r%02d, 0x%02x: 0x%02x | 0x%02x -> SREG (expect=%02x, got=%02x)"

/-- `base_EOR`, which shows the result again where SREG is wrong -/
def baseEOR (Rd : Fin 32) (Vd : Byte) (Rr : Fin 32) (Vr : Byte) : OpcodeTest :=
  let expect := ((Vd.toNat : Int).xor Vr.toNat).land 0xff
  let args : List Int := [Rd.val, Rr.val, Vd.toNat, Vr.toNat]
  rdRrTest 0x2400 (1 <<< SREG.V) Rd Vd Rr Vr fun got gotSreg => do
    expectEq expect got "EOR r%02d, r%02d: 0x%02x ^ 0x%02x = (expect=%02x, got=%02x)"
      (args ++ [expect, (got : Int)])
    expectEq (logicSreg expect) gotSreg
      "EOR r%02d, r%02d: 0x%02x ^ 0x%02x -> SREG (expect=%02x, got=%02x)"
      (args ++ [expect, (got : Int)])

section

variable {δ : Type} [IoDevices δ] {Q : δ → Prop} (hQ : QuietDevices Q) {func : OpcodeName} {head : Nat}
  {Rd Rr : Fin 32} {Vd Vr Vk res : Byte} {expect : Int} {op : Byte → Byte → Byte → Byte × Byte}
  {format formatSreg : String}

include hQ

theorem correct_logicRdRrTest
    (hcomp : ComputesRdRr func op) (hfunc : func ∈ aluOpcodes) (hform : func.form = .rd5rr5)
    (hhead : head = func.head.toNat) (hsame : Rd = Rr → Vd = Vr)
    (hop : op Vd Vr 0x08 = (res, logicFlags res 0x08)) (hres : expect = res.toNat) :
  (logicRdRrTest head Rd Vd Rr Vr expect format formatSreg).Correct Q
  := by
  apply correct_rdRrTest hQ hcomp hfunc hform hhead (s := 0x08) rfl hsame
  rw [hop, hres]
  exact checkResult_self rfl (logicSreg_eq res) _ _ _ _

theorem correct_logicRdKTest
    (hcomp : ComputesRdK func op) (hfunc : func ∈ aluOpcodes) (hform : func.form = .rd4K8)
    (hhead : head = func.head.toNat) (Rd : UpperReg)
    (hop : op Vd Vk 0x08 = (res, logicFlags res 0x08)) (hres : expect = res.toNat) :
  (logicRdKTest head Rd Vd Vk expect format formatSreg).Correct Q
  := by
  apply correct_rdKTest hQ hcomp hfunc hform hhead (s := 0x08) rfl
  rw [hop, hres]
  exact checkResult_self rfl (logicSreg_eq res) _ _ _ _

theorem correct_AND
    (hsame : Rd = Rr → Vd = Vr) :
  (baseAND Rd Vd Rr Vr).Correct Q
  := by
  apply correct_logicRdRrTest hQ computes_AND (by decide) rfl rfl hsame rfl
  exact land_byte_toNat (Vd &&& Vr)

theorem correct_ANDI
    (Rd : UpperReg) (Vd Vk : Byte) :
  (baseANDI Rd Vd Vk).Correct Q
  := by
  apply correct_logicRdKTest hQ computes_ANDI (by decide) rfl rfl Rd rfl
  exact land_byte_toNat (Vd &&& Vk)

theorem correct_OR
    (hsame : Rd = Rr → Vd = Vr) :
  (baseOR Rd Vd Rr Vr).Correct Q
  := by
  apply correct_logicRdRrTest hQ computes_OR (by decide) rfl rfl hsame rfl
  exact land_byte_toNat (Vd ||| Vr)

theorem correct_ORI
    (Rd : UpperReg) (Vd Vk : Byte) :
  (baseORI Rd Vd Vk).Correct Q
  := by
  apply correct_logicRdKTest hQ computes_ORI (by decide) rfl rfl Rd rfl
  exact land_byte_toNat (Vd ||| Vk)

theorem correct_EOR
    (hsame : Rd = Rr → Vd = Vr) :
  (baseEOR Rd Vd Rr Vr).Correct Q
  := by
  have hres : ((Vd.toNat : Int).xor Vr.toNat).land 0xff = (Vd ^^^ Vr).toNat :=
    land_byte_toNat (Vd ^^^ Vr)
  apply correct_rdRrTest hQ computes_EOR (by decide) rfl rfl (s := 0x08) rfl hsame
  rw [hres]
  change Process.bind (expectEq _ (Vd ^^^ Vr).toNat _ _)
    (fun _ => expectEq _ (logicFlags (Vd ^^^ Vr) 0x08).toNat _ _) = _
  rw [expectEq_self rfl, expectEq_self (logicSreg_eq (Vd ^^^ Vr))]
  rfl

end

end SimulAvr
