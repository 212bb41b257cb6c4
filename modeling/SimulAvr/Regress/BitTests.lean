import SimulAvr.Regress.RegisterTests

/-!
# The test cases of bits and of moves

The test cases of the instructions that set, clear, load and store a single bit, and of those that
move values between registers.
-/

namespace SimulAvr

open Exchange

/-! ### Bits of SREG -/

/-- `base_BCLR` -/
def baseBCLR (bit : Fin 8) : OpcodeTest :=
  sregTest (fun regs => regs.set Reg.SREG 0xff) (0x9488 ||| (bit.val <<< 4))
    ((0xff : Int).land ((1 : Int) <<< bit.val).lnot)
    "SREG bit %d not set: expect=%02x, got=%02x" [bit.val]

/-- `base_BSET` -/
def baseBSET (bit : Fin 8) : OpcodeTest :=
  sregTest (fun regs => regs.set Reg.SREG 0) (0x9408 ||| (bit.val <<< 4)) ((1 : Int) <<< bit.val)
    "SREG bit %d not set: expect=%02x, got=%02x" [bit.val]

/-- `base_BST`, which sets or clears the bit of the register and has the other bits differ from it -/
def baseBST (reg : Fin 32) (bit : Fin 8) (T : Bool) : OpcodeTest :=
  let sreg := if T then 0x00 else 0xff
  let val : Byte := if T then 1#8 <<< bit.val else 0xff &&& ~~~(1#8 <<< bit.val)
  let expect : Int :=
    if T then (1 : Int) <<< SREG.T else (0xff : Int).land ((1 : Int) <<< SREG.T).lnot
  sregTest (setRd sreg reg val) (0xFA00 ||| (reg.val <<< 4) ||| bit.val) expect
    "r%02d bit %d not T(%d): expect=%02x, got=%02x" [reg.val, bit.val, T.toNat]

/-! ### Moves -/

/-- A test case that looks at `Rd` only, of which the message shows some numbers -/
def moveTest (sets : Regs → Regs) (rawOpcode : Nat) (Rd : Fin 32) (expect : Int) (format : String)
    (args : Int → List Int) : OpcodeTest :=
  registerTest sets rawOpcode [Reg.R Rd] fun regs =>
    expectEq expect (regs (Reg.R Rd)) format (args (regs (Reg.R Rd)))

/-- `base_BLD` -/
def baseBLD (reg : Fin 32) (bit : Fin 8) (T : Bool) : OpcodeTest :=
  let expect : Int :=
    if T then (1 : Int) <<< bit.val else (0xff : Int).land ((1 : Int) <<< bit.val).lnot
  moveTest (setRd (T.toNat <<< SREG.T) reg (if T then 0x00 else 0xff))
    (0xF800 ||| (reg.val <<< 4) ||| bit.val) reg expect
    "r%02d bit %d not T(%d): expect=%02x, got=%02x"
    fun got => [reg.val, bit.val, T.toNat, expect, got]

/-- `base_LDI` -/
def baseLDI (Rd : UpperReg) (Vd : Byte) : OpcodeTest :=
  moveTest (fun regs => regs.set (Reg.R Rd) 0) (rawRdK 0xE000 Rd Vd) Rd Vd.toNat
    "LDI r%02d: 0x%02x = (expect=%02x, got=%02x)" fun got => [Rd.val.val, Vd.toNat, Vd.toNat, got]

/-- `base_MOV` -/
def baseMOV (Rd Rr : Fin 32) : OpcodeTest :=
  moveTest (fun regs => (regs.set (Reg.R Rd) 0x00).set (Reg.R Rr) 0xa5) (rawRdRr 0x2C00 Rd Rr) Rd 0xa5
    "MOV failed: expect=a5, got=%02x" fun got => [got]

/-- `base_SWAP` -/
def baseSWAP (reg : Fin 32) : OpcodeTest :=
  moveTest (fun regs => regs.set (Reg.R reg) 0xa5) (rawRd 0x9402 reg) reg 0x5a
    "nibbles not swapped: old=a5, new=%02x" fun got => [got]

/-- The lower register of a pair -/
abbrev EvenReg : Type :=
  { d : Fin 32 // d.val % 2 = 0 }

/-- `base_MOVW` -/
def baseMOVW (Rd Rr : EvenReg) : OpcodeTest :=
  registerTest
    (fun regs => (((regs.set (Reg.R Rd) 0x00).set (Reg.R (Rd + 1)) 0x00).set (Reg.R Rr) 0xa5).set
      (Reg.R (Rr + 1)) 0x5a)
    (0x0100 ||| ((Rd.val.val / 2) <<< 4) ||| ((Rr.val.val / 2) &&& 0xf))
    [Reg.R Rd, Reg.R (Rd + 1)] fun regs =>
      if regs (Reg.R Rd) ≠ 0xa5 ∨ regs (Reg.R (Rd + 1)) ≠ 0x5a then
        raiseTestFail "MOVW failed: expect=a55a, got=%02x%02x" [regs (Reg.R Rd), regs (Reg.R (Rd + 1))]
      else
        return ()

/-- `test_NOP` -/
def testNOP : OpcodeTest where
  setup regs := return (regs, 0x0000)
  regChanged := []
  analyzeResults _ _ := return ()

section

variable {δ : Type} [IoDevices δ] {Q : δ → Prop} (hQ : QuietDevices Q) {sets : Regs → Regs}
  {rawOpcode : Nat} {expect : Int} {format : String} {Rd Rr : Fin 32} {Vd Vr : Byte}

/-- Only SREG is set. -/
theorem setSreg_valid
    (s : Byte) (regs : Regs) (h : regs.Valid) :
  (regs.set Reg.SREG s.toNat).Valid ∧ regs.set Reg.SREG s.toNat Reg.PC = regs Reg.PC
  := ⟨h.setSreg s.isLt, Regs.set_of_ne (by decide) regs _⟩

theorem setR_valid
    (i : Fin 32) (val : Byte) (regs : Regs) (h : regs.Valid) :
  (regs.set (Reg.R i) val.toNat).Valid ∧ regs.set (Reg.R i) val.toNat Reg.PC = regs Reg.PC
  := ⟨h.setR i val.isLt, Regs.set_of_ne (Reg.R_ne_PC i).symm regs _⟩

theorem rawRdBit_eq
    {head : Nat} {reg : Fin 32} {bit : Fin 8} {i : Instr}
    (hi : i.operands = .rd5bit (.ofFin reg) (.ofFin bit)) (hhead : head = i.func.head.toNat) :
  head ||| (reg.val <<< 4) ||| bit.val = i.first.toNat
  := by
  have hd := toNat_bits_rd5 reg
  have hb : ∀ b : Fin 8, (Operands.rd5bit 0 (.ofFin b)).bits2.toNat = b.val := by decide
  rw [toNat_first, hi, ← hhead]
  change _ = head ||| (Operands.rd5 (.ofFin reg)).bits1.toNat
    ||| (Operands.rd5bit 0 (.ofFin bit)).bits2.toNat
  rw [hd, hb]

/-- `0xff & ~(1 << bit)` -/
theorem land_lnot_bit :
  ∀ bit : Fin 8, (0xff : Int).land ((1 : Int) <<< bit.val).lnot
    = (0xff &&& ~~~(1#8 <<< bit.val) : Byte).toNat
  := by
  decide +kernel

/-- The operands of MOVW are the numbers of the pairs. -/
theorem aluReference_MOVW
    (Rd Rr : EvenReg) (c : AvrCore Unit) :
  aluReference .MOVW (Operands.rd4rr4 (.ofNat 4 (Rd.val.val / 2)) (.ofNat 4 (Rr.val.val / 2))).arg1
      (Operands.rd4rr4 (.ofNat 4 (Rd.val.val / 2)) (.ofNat 4 (Rr.val.val / 2))).arg2 c
    = { regs := [(Rd.val, (c.gpwr Rr).toNat), (Rd.val + 1, (c.gpwr (Rr + 1)).toNat)]
        flags := []
        clocks := 1 }
  := by
  have hreg : ∀ r : EvenReg,
      Fin.ofNat 32 ((16 + ((BitVec.ofNat 4 (r.val.val / 2)).toNat : Int) - 16) * 2).toNat = r.val := by
    intro r
    have hlt := r.val.isLt
    have heven := r.property
    apply Fin.ext
    rw [Fin.val_ofNat, BitVec.toNat_ofNat]
    omega
  simp only [aluReference, Operands.arg1, Operands.arg2, hreg]

/-- The target goes on with the next word. -/
theorem exec_NOP
    (l : Layout) (m : Cpu) (prog : List Instr) :
  m.exec l prog .NOP (-1) (-1) none = m.next l 1
  := rfl

include hQ

theorem correct_BCLR
    (bit : Fin 8) :
  (baseBCLR bit).Correct Q
  := by
  let i : Instr := .ofAlu .BCLR (.sregBit (.ofFin bit)) (by decide) rfl rfl
  have hraw : 0x9488 ||| (bit.val <<< 4) = i.first.toNat := by
    revert bit
    decide
  apply correct_sregTest hQ (i := i) (show OpcodeName.BCLR ∈ _ by decide) rfl hraw (setSreg_valid 0xff)
  intro m regs hm
  have hs : m.sreg = 0xff := sreg_of_regs hm (Regs.set_self _ _ _)
  have hexpect : ∀ bit : Fin 8,
      (0xff &&& ~~~(1#8 <<< bit.val) : Byte) = Flags.apply [(bit.val, false)] 0xff := by
    decide
  rw [hs, land_lnot_bit, hexpect]
  exact ⟨rfl, rfl⟩

theorem correct_BSET
    (bit : Fin 8) :
  (baseBSET bit).Correct Q
  := by
  let i : Instr := .ofAlu .BSET (.sregBit (.ofFin bit)) (by decide) rfl rfl
  have hraw : 0x9408 ||| (bit.val <<< 4) = i.first.toNat := by
    revert bit
    decide
  apply correct_sregTest hQ (i := i) (show OpcodeName.BSET ∈ _ by decide) rfl hraw (setSreg_valid 0)
  intro m regs hm
  have hs : m.sreg = 0 := sreg_of_regs hm (Regs.set_self _ _ _)
  have hexpect : ∀ bit : Fin 8, (1 : Int) <<< bit.val = (Flags.apply [(bit.val, true)] 0).toNat := by
    decide
  rw [hs]
  exact ⟨rfl, hexpect bit⟩

theorem correct_BST
    (reg : Fin 32) (bit : Fin 8) (T : Bool) :
  (baseBST reg bit T).Correct Q
  := by
  let i : Instr := .ofAlu .BST (.rd5bit (.ofFin reg) (.ofFin bit)) (by decide) rfl rfl
  have hsreg : (if T then 0x00 else 0xff) = (if T then 0x00 else 0xff : Byte).toNat := by
    cases T <;> rfl
  rw [baseBST, hsreg]
  apply correct_sregTest hQ (i := i) (show OpcodeName.BST ∈ _ by decide) rfl (rawRdBit_eq rfl rfl)
    setRd_valid
  intro m regs hm
  obtain ⟨hRd, hs⟩ := setRd_view hm
  have hexpect : ∀ (bit : Fin 8) (T : Bool),
      (if T then (1 : Int) <<< SREG.T else (0xff : Int).land ((1 : Int) <<< SREG.T).lnot)
        = (Flags.apply [(SREG.T,
            (if T then 1#8 <<< bit.val else 0xff &&& ~~~(1#8 <<< bit.val) : Byte).getLsbD bit.val)]
          (if T then 0x00 else 0xff)).toNat := by
    have hT := land_lnot_bit 6
    change (0xff : Int).land ((1 : Int) <<< SREG.T).lnot = _ at hT
    rw [hT]
    decide
  have hflags : (aluReference .BST (reg.val : Int) (bit.val : Int) m.registers).flags
      = [(SREG.T, (m.gpwr reg).getLsbD bit.val)] := by
    simp only [aluReference, ofNat_toNat_register]
    rfl
  refine ⟨rfl, ?_⟩
  rw [hexpect bit T, hs]
  change _ = (((aluReference .BST (reg.val : Int) (bit.val : Int) m.registers).flags.apply _).toNat : Int)
  rw [hflags, hRd]

/-- The instruction leaves a value in `Rd`, and SREG as it is. -/
theorem correct_moveTest
    {args : Int → List Int} {i : Instr} (hfunc : i.func ∈ aluOpcodes) (hone : i.operands.second = none)
    (hraw : rawOpcode = i.first.toNat)
    (hsets : ∀ regs : Regs, regs.Valid → (sets regs).Valid ∧ sets regs Reg.PC = regs Reg.PC)
    (heffect : ∀ (m : Cpu) (regs : Regs), m.regs = sets regs →
      let effect := aluReference i.func i.operands.arg1 i.operands.arg2 m.registers
      ∃ v, effect.regs = [(Rd, v)] ∧ effect.flags = [] ∧ expect = (BitVec.ofInt 8 v).toNat) :
  (moveTest sets rawOpcode Rd expect format args).Correct Q
  := by
  apply correct_registerTest hQ hfunc hone hraw hsets
  intro m regs hm effect
  obtain ⟨v, hregs, hflags, hexpect⟩ := heffect m regs hm
  have hgpwr : effect.gpwr m.gpwr = Function.update m.gpwr Rd (.ofInt 8 v) := by
    rw [AluEffect.gpwr, hregs]
    rfl
  refine ⟨?_, ?_, Or.inr hflags⟩
  · intro pc clocks
    rw [Cpu.regs_gpwr]
    change expectEq expect (effect.gpwr m.gpwr Rd).toNat _ _ = _
    rw [hgpwr, Function.update_self, expectEq_self hexpect]
  · rw [hregs]
    simp

theorem correct_BLD
    (reg : Fin 32) (bit : Fin 8) (T : Bool) :
  (baseBLD reg bit T).Correct Q
  := by
  let i : Instr := .ofAlu .BLD (.rd5bit (.ofFin reg) (.ofFin bit)) (by decide) rfl rfl
  have hsreg : T.toNat <<< SREG.T = (if T then 0x40 else 0 : Byte).toNat := by
    cases T <;> rfl
  rw [baseBLD, hsreg]
  apply correct_moveTest hQ (i := i) (show OpcodeName.BLD ∈ _ by decide) rfl (rawRdBit_eq rfl rfl)
    setRd_valid
  intro m regs hm
  obtain ⟨hRd, hs⟩ := setRd_view hm
  have hexpect : ∀ (bit : Fin 8) (T : Bool),
      (if T then (1 : Int) <<< bit.val else (0xff : Int).land ((1 : Int) <<< bit.val).lnot)
        = (BitVec.ofInt 8 (((if T then 0x00 else 0xff : Byte).toNat : Int)
          + (((if T then 0x40 else 0 : Byte).getLsbD SREG.T).toNat
            - (if T then 0x00 else 0xff : Byte).toNat / 2 ^ bit.val % 2) * 2 ^ bit.val)).toNat := by
    simp only [land_lnot_bit]
    decide
  change ∃ v, (aluReference .BLD (reg.val : Int) (bit.val : Int) m.registers).regs = _ ∧
    (aluReference .BLD (reg.val : Int) (bit.val : Int) m.registers).flags = _ ∧ _
  simp only [aluReference, ofNat_toNat_register]
  refine ⟨_, rfl, trivial, ?_⟩
  rw [hexpect bit T, ← hRd, ← hs]
  rfl

theorem correct_LDI
    (Rd : UpperReg) (Vd : Byte) :
  (baseLDI Rd Vd).Correct Q
  := by
  let i : Instr := .ofAlu .LDI (.rd4K8 (.ofNat 4 (Rd.val.val - 16)) Vd) (by decide) rfl rfl
  apply correct_moveTest hQ (i := i) (show OpcodeName.LDI ∈ _ by decide) rfl
    (rawRdK_eq Rd.property rfl rfl) (setR_valid Rd 0)
  intro m regs hm
  have harg : i.operands.arg1 = Rd.val.val := arg1_rd4K8 Rd.property
  rw [harg]
  change ∃ v, (aluReference .LDI (Rd.val.val : Int) (Vd.toNat : Int) m.registers).regs = _ ∧
    (aluReference .LDI (Rd.val.val : Int) (Vd.toNat : Int) m.registers).flags = _ ∧ _
  simp only [aluReference, ofNat_toNat_register]
  refine ⟨_, rfl, trivial, ?_⟩
  rw [BitVec.ofInt_natCast, BitVec.ofNat_toNat, BitVec.setWidth_eq]

theorem correct_MOV
    (Rd Rr : Fin 32) :
  (baseMOV Rd Rr).Correct Q
  := by
  let i : Instr := .ofAlu .MOV (.rd5rr5 (.ofFin Rd) (.ofFin Rr)) (by decide) rfl rfl
  apply correct_moveTest hQ (i := i) (show OpcodeName.MOV ∈ _ by decide) rfl (rawRdRr_eq rfl rfl)
  · intro regs h
    obtain ⟨hvalid, hpc⟩ := setR_valid Rd 0 regs h
    obtain ⟨hvalid', hpc'⟩ := setR_valid Rr 0xa5 _ hvalid
    exact ⟨hvalid', hpc'.trans hpc⟩
  · intro m regs hm
    have hRr : m.gpwr Rr = 0xa5 := gpwr_of_regs hm (Regs.set_self _ _ _)
    change ∃ v, (aluReference .MOV (Rd.val : Int) (Rr.val : Int) m.registers).regs = _ ∧
      (aluReference .MOV (Rd.val : Int) (Rr.val : Int) m.registers).flags = _ ∧ _
    simp only [aluReference, ofNat_toNat_register]
    refine ⟨_, rfl, trivial, ?_⟩
    change _ = ((BitVec.ofInt 8 (m.gpwr Rr).toNat).toNat : Int)
    rw [hRr]
    rfl

theorem correct_SWAP
    (reg : Fin 32) :
  (baseSWAP reg).Correct Q
  := by
  let i : Instr := .ofAlu .SWAP (.rd5 (.ofFin reg)) (by decide) rfl rfl
  apply correct_moveTest hQ (i := i) (show OpcodeName.SWAP ∈ _ by decide) rfl (rawRd_eq rfl rfl)
    (setR_valid reg 0xa5)
  intro m regs hm
  have hRd : m.gpwr reg = 0xa5 := gpwr_of_regs hm (Regs.set_self _ _ _)
  change ∃ v, (aluReference .SWAP (reg.val : Int) (-1) m.registers).regs = _ ∧
    (aluReference .SWAP (reg.val : Int) (-1) m.registers).flags = _ ∧ _
  simp only [aluReference, ofNat_toNat_register]
  refine ⟨_, rfl, trivial, ?_⟩
  change _ = ((BitVec.ofInt 8 ((m.gpwr reg).toNat % 2 ^ 4 * 2 ^ 4 + (m.gpwr reg).toNat / 2 ^ 4)).toNat : Int)
  rw [hRd]
  rfl

theorem correct_MOVW
    (Rd Rr : EvenReg) :
  (baseMOVW Rd Rr).Correct Q
  := by
  let i : Instr := .ofAlu .MOVW (.rd4rr4 (.ofNat 4 (Rd.val.val / 2)) (.ofNat 4 (Rr.val.val / 2)))
    (by decide) rfl rfl
  have hne := Reg.ne_succ
  have hd : ∀ d : Fin 32,
      (Operands.rd4rr4 (.ofNat 4 (d.val / 2)) 0).bits1.toNat = (d.val / 2) <<< 4 := by
    decide
  have hr : ∀ r : Fin 32,
      (Operands.rd4rr4 0 (.ofNat 4 (r.val / 2))).bits2.toNat = (r.val / 2) &&& 0xf := by
    decide
  have hraw : 0x0100 ||| ((Rd.val.val / 2) <<< 4) ||| ((Rr.val.val / 2) &&& 0xf) = i.first.toNat := by
    rw [toNat_first, ← hd, ← hr]
    rfl
  apply correct_registerTest hQ (i := i) (show OpcodeName.MOVW ∈ _ by decide) rfl hraw
  · intro regs h
    obtain ⟨h₁, hpc₁⟩ := setR_valid Rd 0 regs h
    obtain ⟨h₂, hpc₂⟩ := setR_valid (Rd + 1) 0 _ h₁
    obtain ⟨h₃, hpc₃⟩ := setR_valid Rr 0xa5 _ h₂
    obtain ⟨h₄, hpc₄⟩ := setR_valid (Rr + 1) 0x5a _ h₃
    exact ⟨h₄, hpc₄.trans (hpc₃.trans (hpc₂.trans hpc₁))⟩
  · intro m regs hm
    have hlow : m.gpwr Rr = 0xa5 := by
      apply gpwr_of_regs hm
      rw [Regs.set_of_ne (mt Reg.R_inj.mp (hne Rr)), Regs.set_self]
      rfl
    have hhigh : m.gpwr (Rr + 1) = 0x5a := gpwr_of_regs hm (Regs.set_self _ _ _)
    intro effect
    have heffect :
        effect = { regs := [(Rd.val, 0xa5), (Rd.val + 1, 0x5a)], flags := [], clocks := 1 } := by
      have href := aluReference_MOVW Rd Rr m.registers
      change effect = { regs := [(_, ((m.gpwr Rr).toNat : Int)), (_, ((m.gpwr (Rr + 1)).toNat : Int))], .. }
        at href
      rwa [hlow, hhigh] at href
    rw [heffect]
    refine ⟨?_, ?_, Or.inr rfl⟩
    · intro pc clocks
      have hRd : Function.update (Function.update m.gpwr Rd.val 0xa5) (Rd.val + 1) (0x5a : Byte) Rd.val
          = 0xa5 := by
        rw [Function.update_of_ne (hne Rd), Function.update_self]
      have hRd' : Function.update (Function.update m.gpwr Rd.val 0xa5) (Rd.val + 1) (0x5a : Byte)
          (Rd.val + 1) = 0x5a := Function.update_self _ _ _
      rw [Cpu.regs_gpwr, Cpu.regs_gpwr]
      change (if (Function.update (Function.update m.gpwr Rd.val 0xa5) (Rd.val + 1) (0x5a : Byte)
        Rd.val).toNat ≠ 0xa5 ∨ (Function.update (Function.update m.gpwr Rd.val 0xa5) (Rd.val + 1)
          (0x5a : Byte) (Rd.val + 1)).toNat ≠ 0x5a then _ else _) = _
      rw [hRd, hRd']
      rfl
    · simp

theorem correct_NOP :
  testNOP.Correct Q
  := by
  have hsetup : ∀ regs, testNOP.setup regs = .ret (id regs, 0x0000) := fun _ => rfl
  apply OpcodeTest.correct_of_ret hQ (i := .nop) hsetup
  · exact commonBuildOpcode_first (t := testNOP) (i := .nop) rfl rfl
  · intro regs hvalid hpc
    refine ⟨hvalid, ?_⟩
    rw [id, hpc]
    exact Nat.le_of_ble_eq_true rfl
  · intro m regs hm _ hpc _
    have hmpc : m.pc = 0 := pc_of_regs hm hpc
    refine ⟨m.after 1 1, ?_, ?_⟩
    · change m.exec at90s8515 [] .NOP (-1) (-1) none = _
      rw [exec_NOP]
      apply Cpu.goto_eq
      · rw [hmpc]
        rfl
      · rw [at90s8515_pcMax]
        decide
    · apply OpcodeTest.accepts_of_kept rfl (Nat.lt_of_sub_eq_succ rfl)
      · intro cellName flash st c _
        exact .pure c ()
      · intro _
        rw [hmpc]
        rfl
      · intro _ _
        rfl
      · intro _
        rfl
      · intro _
        rfl

end

end SimulAvr
