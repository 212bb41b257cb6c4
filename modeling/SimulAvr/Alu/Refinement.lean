import SimulAvr.Alu.Flags
import SimulAvr.Decoder.Control
import SimulAvr.Decoder.Operands
import SimulAvr.Device
import SimulAvr.ProgramCounter

/-!
# The arithmetic and logic instructions refine the reference

Executing an instruction that works on the registers only has the effect that the integer
reference gives it, for all operands that its encoding admits.
-/

namespace SimulAvr

section

variable {δ : Type} {c : AvrCore δ} {name : OpcodeName}

/-! ### The shapes of the handlers -/

section Shapes

variable {flags : Flags} {d r : Fin 32} {value : Int}

theorem nextInst_run
    (cks : Int) :
  (nextInst name cks).run c = .ok (.opcode name,
    { c with
      pc := AvrCore.adjustPCToMax c.pcMax (c.pc + 1)
      instCKS := cks
      display := c.display ++ [.pc (AvrCore.adjustPCToMax c.pcMax (c.pc + 1))] })
  := rfl

theorem aluRdRr_run
    {op : Byte → Byte → Byte → Byte × Byte}
    (h : op (c.gpwr d) (c.gpwr r) c.sreg = (.ofInt 8 value, flags.apply c.sreg)) :
  ∃ msgs, (aluRdRr name op d r).run c = .ok (.opcode name,
    AluEffect.applyAt { regs := [(d, value)], flags := flags, clocks := 1 }
      (AvrCore.adjustPCToMax c.pcMax (c.pc + 1)) c msgs)
  := by
  use [.ioReg sregIoReg (flags.apply c.sreg), .reg d.val (.ofInt 8 value),
    .pc (AvrCore.adjustPCToMax c.pcMax (c.pc + 1))]
  simp [aluRdRr, h, AvrCore.sregSet, AvrCore.gpwrSet, AvrCore.displaySend, nextInst_run,
    AluEffect.applyAt, AluEffect.gpwr]

theorem aluRdK_run
    {op : Byte → Byte → Byte → Byte × Byte} {K : Int}
    (h : op (c.gpwr d) (.ofInt 8 K) c.sreg = (.ofInt 8 value, flags.apply c.sreg)) :
  ∃ msgs, (aluRdK name op d K).run c = .ok (.opcode name,
    AluEffect.applyAt { regs := [(d, value)], flags := flags, clocks := 1 }
      (AvrCore.adjustPCToMax c.pcMax (c.pc + 1)) c msgs)
  := by
  use [.ioReg sregIoReg (flags.apply c.sreg), .reg d.val (.ofInt 8 value),
    .pc (AvrCore.adjustPCToMax c.pcMax (c.pc + 1))]
  simp [aluRdK, h, AvrCore.sregSet, AvrCore.gpwrSet, AvrCore.displaySend, nextInst_run,
    AluEffect.applyAt, AluEffect.gpwr]

theorem aluRd_run
    {op : Byte → Byte → Byte × Byte}
    (h : op (c.gpwr d) c.sreg = (.ofInt 8 value, flags.apply c.sreg)) :
  ∃ msgs, (aluRd name op d).run c = .ok (.opcode name,
    AluEffect.applyAt { regs := [(d, value)], flags := flags, clocks := 1 }
      (AvrCore.adjustPCToMax c.pcMax (c.pc + 1)) c msgs)
  := by
  use [.ioReg sregIoReg (flags.apply c.sreg), .reg d.val (.ofInt 8 value),
    .pc (AvrCore.adjustPCToMax c.pcMax (c.pc + 1))]
  simp [aluRd, h, AvrCore.sregSet, AvrCore.gpwrSet, AvrCore.displaySend, nextInst_run,
    AluEffect.applyAt, AluEffect.gpwr]

theorem compareRdRr_run
    {op : Byte → Byte → Byte → Byte}
    (h : op (c.gpwr d) (c.gpwr r) c.sreg = flags.apply c.sreg) :
  ∃ msgs, (compareRdRr name op d r).run c = .ok (.opcode name,
    AluEffect.applyAt { regs := [], flags := flags, clocks := 1 }
      (AvrCore.adjustPCToMax c.pcMax (c.pc + 1)) c msgs)
  := by
  use [.ioReg sregIoReg (flags.apply c.sreg), .pc (AvrCore.adjustPCToMax c.pcMax (c.pc + 1))]
  simp [compareRdRr, h, AvrCore.sregSet, AvrCore.displaySend, nextInst_run,
    AluEffect.applyAt, AluEffect.gpwr]

theorem compareRdK_run
    {op : Byte → Byte → Byte → Byte} {K : Int}
    (h : op (c.gpwr d) (.ofInt 8 K) c.sreg = flags.apply c.sreg) :
  ∃ msgs, (compareRdK name op d K).run c = .ok (.opcode name,
    AluEffect.applyAt { regs := [], flags := flags, clocks := 1 }
      (AvrCore.adjustPCToMax c.pcMax (c.pc + 1)) c msgs)
  := by
  use [.ioReg sregIoReg (flags.apply c.sreg), .pc (AvrCore.adjustPCToMax c.pcMax (c.pc + 1))]
  simp [compareRdK, h, AvrCore.sregSet, AvrCore.displaySend, nextInst_run,
    AluEffect.applyAt, AluEffect.gpwr]

/-- A write to `Rd` that leaves the status register. -/
theorem setRd_run
    {b : Byte} (h : b = .ofInt 8 value) :
  ∃ msgs, (do avrCoreGpwrSet d b; nextInst name 1 : CoreM δ OpRet).run c =
    .ok (.opcode name,
      AluEffect.applyAt { regs := [(d, value)], flags := [], clocks := 1 }
      (AvrCore.adjustPCToMax c.pcMax (c.pc + 1)) c msgs)
  := by
  use [.reg d.val b, .pc (AvrCore.adjustPCToMax c.pcMax (c.pc + 1))]
  simp [h, AvrCore.gpwrSet, AvrCore.displaySend, nextInst_run, AluEffect.applyAt,
    AluEffect.gpwr, Flags.apply_nil]

/-- A write to one bit of the status register. -/
theorem sregSetBit_run
    {bit : Nat} (hbit : bit < 8) (v : Bool) :
  ∃ msgs, (do avrCoreSregSetBit bit v; nextInst name 1 : CoreM δ OpRet).run c =
    .ok (.opcode name,
      AluEffect.applyAt { regs := [], flags := [(bit, v)], clocks := 1 }
      (AvrCore.adjustPCToMax c.pcMax (c.pc + 1)) c msgs)
  := by
  use [.ioReg sregIoReg (Flags.apply [(bit, v)] c.sreg), .pc (AvrCore.adjustPCToMax c.pcMax (c.pc + 1))]
  simp [AvrCore.sregSetBit, AvrCore.sregSet, AvrCore.displaySend, nextInst_run,
    AluEffect.applyAt, AluEffect.gpwr, Flags.apply_singleton _ hbit]

theorem aluWord_run
    {op : Word → Word → Byte → Word × Byte} {K : Int} (hd : d.val + 1 < 32)
    (hK : 0 ≤ K ∧ K < 64)
    (h : op (c.gpwr (d + 1) ++ c.gpwr d) (.ofNat 16 K.toNat) c.sreg
      = (.ofInt 16 value, flags.apply c.sreg)) :
  ∃ msgs, (aluWord name op d K).run c = .ok (.opcode name,
    AluEffect.applyAt
      { regs := [(d, value), (d + 1, value / 2 ^ 8)], flags := flags, clocks := 2 }
      (AvrCore.adjustPCToMax c.pcMax (c.pc + 1)) c msgs)
  := by
  have hKw : (BitVec.ofInt 8 K).setWidth 16 = .ofNat 16 K.toNat := by
    obtain ⟨k, rfl⟩ := Int.eq_ofNat_of_zero_le hK.1
    apply BitVec.eq_of_toNat_eq
    simp
    omega
  have hd' : ((d : Nat) : Int) + 1 = ((d + 1 : Fin 32) : Nat) := by
    rw [Fin.val_add_one_of_lt' hd]
    rfl
  use [.ioReg sregIoReg (flags.apply c.sreg), .reg d.val (.ofInt 8 value),
    .reg (d + 1 : Fin 32).val (.ofInt 8 (value / 2 ^ 8)), .pc (AvrCore.adjustPCToMax c.pcMax (c.pc + 1))]
  simp [aluWord, hKw, hd', h, extractLsb'_zero_ofInt, extractLsb'_eight_ofInt,
    AvrCore.sregSet, AvrCore.gpwrSet, AvrCore.displaySend, nextInst_run,
    AluEffect.applyAt, AluEffect.gpwr]

theorem mulRdRr_run
    {op : Byte → Byte → Word × Bool} {p : Int} {k : Nat}
    (h : op (c.gpwr d) (c.gpwr r) = (.ofInt 16 (p * 2 ^ k), decide (p / 2 ^ 15 % 2 = 1))) :
  ∃ msgs, (mulRdRr name op d r).run c = .ok (.opcode name,
    AluEffect.applyAt (Reference.mul p k)
      (AvrCore.adjustPCToMax c.pcMax (c.pc + 1)) c msgs)
  := by
  have hset (c : AvrCore δ) (v : Byte) :
      (avrCoreGpwrSet 1 v).run c = .ok ((), c.gpwrSet 1 v) :=
    run_avrCoreGpwrSet c 1 v
  have hset' (c : AvrCore δ) (v : Byte) :
      (avrCoreGpwrSet 0 v).run c = .ok ((), c.gpwrSet 0 v) :=
    run_avrCoreGpwrSet c 0 v
  have hflags : setBitInByte (setBitInByte c.sreg SREG.Z (decide (BitVec.ofInt 16 (p * 2 ^ k) = 0)))
      SREG.C (decide (p / 2 ^ 15 % 2 = 1)) = (Reference.mul p k).flags.apply c.sreg := by
    rw [decide_eq_zero rfl]
    apply Flags.eq_apply
    intro i hi
    repeat rw [getLsbD_setBitInByte _ (by decide)]
    interval_cases i <;> rfl
  use [.ioReg sregIoReg ((Reference.mul p k).flags.apply c.sreg),
    .reg 1 (.ofInt 8 (p * 2 ^ k / 2 ^ 8)), .reg 0 (.ofInt 8 (p * 2 ^ k)),
    .pc (AvrCore.adjustPCToMax c.pcMax (c.pc + 1))]
  simp only [mulRdRr, StateT.run_bind, run_avrCoreGpwrGet, run_avrCoreSregGet,
    run_avrCoreSregSet, Program.ok_bind, hset, hset', h, hflags, extractLsb'_zero_ofInt,
    extractLsb'_eight_ofInt]
  simp [AvrCore.sregSet, AvrCore.gpwrSet, AvrCore.displaySend, nextInst_run,
    AluEffect.applyAt, AluEffect.gpwr, Reference.mul]

end Shapes

/-! ### Constant operands -/

section

variable {K : Int} (hK : 0 ≤ K ∧ K < 256)
include hK

theorem toNat_ofInt_byte :
  ((BitVec.ofInt 8 K).toNat : Int) = K
  := by
  rw [Carry.toNat_eq_emod rfl]
  omega

theorem toInt_ofInt_byte :
  (BitVec.ofInt 8 K).toInt = if K < 2 ^ 7 then K else K - 2 ^ 8
  := by
  have h := toNat_ofInt_byte hK
  rw [BitVec.toInt_eq_toNat_cond]
  split <;> split <;> omega

end

/-! ### The operations -/

section

variable (rd rr sreg : Byte) (d : Fin 32)

theorem adcOp_eq :
  adcOp rd rr sreg =
    (.ofInt 8 (rd.toNat + rr.toNat + (sreg.getLsbD SREG.C).toNat),
      (Reference.add d rd.toNat rr.toNat rd.toInt rr.toInt
        (sreg.getLsbD SREG.C).toNat).flags.apply sreg)
  := by
  rw [← ofInt_add, ← addFlags_eq]
  rfl

theorem addOp_eq :
  addOp rd rr sreg =
    (.ofInt 8 (rd.toNat + rr.toNat + 0),
      (Reference.add d rd.toNat rr.toNat rd.toInt rr.toInt 0).flags.apply sreg)
  := by
  have hval := ofInt_add rd rr false
  have hflags := addFlags_eq rd rr false d sreg
  rw [add_carryIn_false] at hval hflags
  rw [addOp, hflags]
  congr 1

theorem subOp_eq :
  subOp rd rr sreg =
    (.ofInt 8 (rd.toNat - rr.toNat),
      (Reference.subFlags rd.toNat rr.toNat rd.toInt rr.toInt 0).apply sreg)
  := by
  have hval := ofInt_sub rd rr false
  rw [sub_carryIn_false, Bool.toNat_false, Nat.cast_zero, Int.sub_zero] at hval
  rw [← subOp_flags, ← hval]
  rfl

theorem sbcOp_eq :
  sbcOp rd rr sreg =
    (.ofInt 8 (rd.toNat - rr.toNat - (sreg.getLsbD SREG.C).toNat),
      (Reference.sbcFlags (sreg.getLsbD SREG.Z) rd.toNat rr.toNat rd.toInt rr.toInt
        (sreg.getLsbD SREG.C).toNat).apply sreg)
  := by
  rw [← sbcOp_flags, ← ofInt_sub]
  rfl

/-- A logical operation on bytes. -/
theorem logicOp_eq
    {f : Nat → Nat → Nat} {res : Byte} (h : res.toNat = f rd.toNat rr.toNat) :
  (res, logicFlags res sreg) = (.ofInt 8 (f rd.toNat rr.toNat),
    (Reference.resultFlags 8 (f rd.toNat rr.toNat) false).apply sreg)
  := by
  have hres : res = .ofInt 8 (f rd.toNat rr.toNat) := by
    rw [← h, BitVec.ofInt_natCast, BitVec.ofNat_toNat, BitVec.setWidth_eq]
  rw [← logicFlags_eq hres, ← hres]

end

/-! ### The refinement -/

/-- The opcodes with two register operands, MOVW apart. -/
def rdRrOpcodes : List OpcodeName :=
  [.ADD, .ADC, .SUB, .SBC, .CP, .CPC, .AND, .OR, .EOR, .MOV, .MUL, .MULS, .MULSU, .FMUL,
   .FMULS, .FMULSU]

/-- The opcodes with one register operand. -/
def rdOpcodes : List OpcodeName :=
  [.COM, .NEG, .INC, .DEC, .LSR, .ROR, .ASR, .SWAP]

/-- The opcodes with a register and a constant operand. -/
def rdKOpcodes : List OpcodeName :=
  [.SUBI, .SBCI, .CPI, .ANDI, .ORI, .LDI]

/-- The opcodes that work on a register pair. -/
def wordOpcodes : List OpcodeName :=
  [.ADIW, .SBIW]

/-- The opcodes that write one bit of the status register. -/
def sregBitOpcodes : List OpcodeName :=
  [.BSET, .BCLR]

/-- The opcodes that move a bit between a register and the bit T. -/
def rdBitOpcodes : List OpcodeName :=
  [.BST, .BLD]

attribute [local simp] aluReference OpcodeName.handler

/-- The register that a register operand denotes. -/
theorem ofNat_toNat_register
    (r : Fin 32) :
  Fin.ofNat 32 (r.val : Int).toNat = r
  := by
  apply Fin.ext
  rw [Int.toNat_natCast, Fin.val_ofNat, Nat.mod_eq_of_lt r.isLt]

section

variable [IoDevices δ] {func : OpcodeName} (opcode : Word)

theorem handler_rdRr
    (hfunc : func ∈ rdRrOpcodes) (d r : Fin 32) :
  ∃ msgs, (func.handler opcode d r).run c = .ok (.opcode func,
    (aluReference func d r c).applyAt (AvrCore.adjustPCToMax c.pcMax (c.pc + 1)) c msgs)
  := by
  simp only [rdRrOpcodes, List.mem_cons, List.not_mem_nil, or_false] at hfunc
  rcases hfunc with rfl | rfl | rfl | rfl | rfl | rfl | rfl | rfl | rfl | rfl | rfl | rfl
    | rfl | rfl | rfl | rfl <;> simp only [aluReference, ofNat_toNat_register]
  · apply aluRdRr_run (addOp_eq _ _ _ d)
  · apply aluRdRr_run (adcOp_eq _ _ _ d)
  · apply aluRdRr_run (subOp_eq _ _ _)
  · apply aluRdRr_run (sbcOp_eq _ _ _)
  · apply compareRdRr_run
    rw [cpOp_eq, subOp_eq]
  · apply compareRdRr_run
    rw [cpcOp_eq, sbcOp_eq]
  · apply aluRdRr_run (logicOp_eq _ _ _ (BitVec.toNat_and _ _))
  · apply aluRdRr_run (logicOp_eq _ _ _ (BitVec.toNat_or _ _))
  · apply aluRdRr_run (logicOp_eq _ _ _ (BitVec.toNat_xor _ _))
  · simp only [OpcodeName.handler, avrOpMOV, StateT.run_bind, run_avrCoreGpwrGet]
    apply setRd_run
    rw [BitVec.ofInt_natCast, BitVec.ofNat_toNat, BitVec.setWidth_eq]
  · apply mulRdRr_run
    rw [mul_unsigned_eq, mulOp_eq]
  · apply mulRdRr_run
    rw [mul_signed_eq, mulOp_eq]
  · apply mulRdRr_run
    rw [mul_signed_unsigned_eq, mulOp_eq]
  · apply mulRdRr_run
    rw [mul_unsigned_eq, fmulOp_eq]
  · apply mulRdRr_run
    rw [mul_signed_eq, fmulOp_eq]
  · apply mulRdRr_run
    rw [mul_signed_unsigned_eq, fmulOp_eq]

theorem handler_rd
    (hfunc : func ∈ rdOpcodes)
    (d : Fin 32) (arg2 : Int) :
  ∃ msgs, (func.handler opcode d arg2).run c = .ok (.opcode func,
    (aluReference func d arg2 c).applyAt (AvrCore.adjustPCToMax c.pcMax (c.pc + 1)) c msgs)
  := by
  simp only [rdOpcodes, List.mem_cons, List.not_mem_nil, or_false] at hfunc
  rcases hfunc with rfl | rfl | rfl | rfl | rfl | rfl | rfl | rfl <;>
    simp only [aluReference, ofNat_toNat_register]
  · apply aluRd_run (comOp_eq _ _)
  · apply aluRd_run (negOp_eq _ _)
  · apply aluRd_run (incOp_eq _ _)
  · apply aluRd_run (decOp_eq _ _)
  · apply aluRd_run (lsrOp_eq _ _)
  · apply aluRd_run (rorOp_eq _ _)
  · apply aluRd_run (asrOp_eq _ _)
  · simp only [OpcodeName.handler, avrOpSWAP, StateT.run_bind, run_avrCoreGpwrGet]
    apply setRd_run (swap_eq _)

theorem handler_rdK
    (hfunc : func ∈ rdKOpcodes)
    (d : Fin 32) {K : Int} (hK : 0 ≤ K ∧ K < 256) :
  ∃ msgs, (func.handler opcode d K).run c = .ok (.opcode func,
    (aluReference func d K c).applyAt (AvrCore.adjustPCToMax c.pcMax (c.pc + 1)) c msgs)
  := by
  have hnat := toNat_ofInt_byte hK
  have hnat' : (BitVec.ofInt 8 K).toNat = K.toNat := by omega
  have hint := toInt_ofInt_byte hK
  simp only [rdKOpcodes, List.mem_cons, List.not_mem_nil, or_false] at hfunc
  rcases hfunc with rfl | rfl | rfl | rfl | rfl | rfl <;>
    simp only [aluReference, ofNat_toNat_register]
  · apply aluRdK_run
    rw [subOp_eq, hnat, hint]
  · apply aluRdK_run
    rw [sbcOp_eq, hnat, hint]
  · apply compareRdK_run
    rw [cpOp_eq, subOp_eq, hnat, hint]
  · apply aluRdK_run
    rw [andOp, logicOp_eq _ _ _ (BitVec.toNat_and _ _), hnat']
    rfl
  · apply aluRdK_run
    rw [orOp, logicOp_eq _ _ _ (BitVec.toNat_or _ _), hnat']
    rfl
  · apply setRd_run rfl

theorem handler_rd2K6
    (hfunc : func ∈ wordOpcodes) (d : Fin 32) (hd : d.val + 1 < 32) {K : Int}
    (hK : 0 ≤ K ∧ K < 64) :
  ∃ msgs, (func.handler opcode d K).run c = .ok (.opcode func,
    (aluReference func d K c).applyAt (AvrCore.adjustPCToMax c.pcMax (c.pc + 1)) c msgs)
  := by
  have hk : K.toNat < 2 ^ 8 := by omega
  have hcast : (K.toNat : Int) = K := Int.toNat_of_nonneg hK.1
  simp only [wordOpcodes, List.mem_cons, List.not_mem_nil, or_false] at hfunc
  rcases hfunc with rfl | rfl <;> simp only [aluReference, ofNat_toNat_register]
  · apply aluWord_run hd hK
    rw [adiwOp_eq _ _ hk, toNat_pair, toInt_pair, hcast]
  · apply aluWord_run hd hK
    rw [sbiwOp_eq _ _ hk, toNat_pair, toInt_pair, hcast]

theorem handler_sregBit
    (hfunc : func ∈ sregBitOpcodes) {bit : Int} (hbit : 0 ≤ bit ∧ bit < 8)
    (arg2 : Int) :
  ∃ msgs, (func.handler opcode bit arg2).run c = .ok (.opcode func,
    (aluReference func bit arg2 c).applyAt (AvrCore.adjustPCToMax c.pcMax (c.pc + 1)) c msgs)
  := by
  have hbit' : bit.toNat < 8 := by omega
  simp only [sregBitOpcodes, List.mem_cons, List.not_mem_nil, or_false] at hfunc
  rcases hfunc with rfl | rfl
  · apply sregSetBit_run hbit' true
  · apply sregSetBit_run hbit' false

theorem handler_rdBit
    (hfunc : func ∈ rdBitOpcodes) (d : Fin 32) {bit : Int}
    (hbit : 0 ≤ bit ∧ bit < 8) :
  ∃ msgs, (func.handler opcode d bit).run c = .ok (.opcode func,
    (aluReference func d bit c).applyAt (AvrCore.adjustPCToMax c.pcMax (c.pc + 1)) c msgs)
  := by
  have hbit' : bit.toNat < 8 := by omega
  simp only [rdBitOpcodes, List.mem_cons, List.not_mem_nil, or_false] at hfunc
  rcases hfunc with rfl | rfl <;> simp only [aluReference, ofNat_toNat_register]
  · simp only [OpcodeName.handler, avrOpBST, StateT.run_bind, run_avrCoreGpwrGet]
    apply sregSetBit_run (by decide)
  · simp only [OpcodeName.handler, avrOpBLD, StateT.run_bind, run_avrCoreGpwrGet,
      Program.ok_bind, run_avrCoreSregGetBit]
    apply setRd_run (bld_eq _ _ hbit')

/-- The register pairs of MOVW are even, so that the first write leaves the register
that is read second. -/
theorem handler_MOVW
    {arg1 arg2 : Int} (h1 : 16 ≤ arg1 ∧ arg1 < 32) (h2 : 16 ≤ arg2 ∧ arg2 < 32) :
  ∃ msgs, (OpcodeName.MOVW.handler opcode arg1 arg2).run c = .ok (.opcode .MOVW,
    (aluReference .MOVW arg1 arg2 c).applyAt (AvrCore.adjustPCToMax c.pcMax (c.pc + 1)) c msgs)
  := by
  obtain ⟨d, hd⟩ := exists_fin_of_mem (by omega : 0 ≤ (arg1 - 16) * 2 ∧ (arg1 - 16) * 2 < 32)
  obtain ⟨r, hr⟩ := exists_fin_of_mem (by omega : 0 ≤ (arg2 - 16) * 2 ∧ (arg2 - 16) * 2 < 32)
  have hd' : ((d : Nat) : Int) + 1 = ((d + 1 : Fin 32) : Nat) := by
    rw [Fin.val_add_one_of_lt' (by omega)]
    rfl
  have hr' : ((r : Nat) : Int) + 1 = ((r + 1 : Fin 32) : Nat) := by
    rw [Fin.val_add_one_of_lt' (by omega)]
    rfl
  have hne : r + 1 ≠ d := by
    intro heq
    rw [heq] at hr'
    omega
  use [.reg d.val (c.gpwr r), .reg (d + 1 : Fin 32).val (c.gpwr (r + 1)),
    .pc (AvrCore.adjustPCToMax c.pcMax (c.pc + 1))]
  simp only [aluReference, ← hd, ← hr, ofNat_toNat_register]
  simp [OpcodeName.handler, avrOpMOVW, ← hd, ← hr, hd', hr', AvrCore.gpwrSet,
    AvrCore.displaySend, nextInst_run, AluEffect.applyAt, AluEffect.gpwr,
    Flags.apply_nil, Function.update_of_ne hne]

end

/-! ### The operand forms -/

/-- The opcodes of the reference by the form of their operands. -/
theorem aluOpcodes_form :
  ∀ func ∈ aluOpcodes,
    func ∈ rdRrOpcodes ∧ func.form ∈ [.rd5rr5, .rd4rr4, .rd3rr3] ∨
      func ∈ rdOpcodes ∧ func.form = .rd5 ∨
      func ∈ rdKOpcodes ∧ func.form = .rd4K8 ∨
      func ∈ wordOpcodes ∧ func.form = .rd2K6 ∨
      func ∈ sregBitOpcodes ∧ func.form = .sregBit ∨
      func ∈ rdBitOpcodes ∧ func.form = .rd5bit ∨
      func = .MOVW ∧ func.form = .rd4rr4
  := by
  decide +kernel

/-- The forms with two registers admit numbers of registers only. -/
theorem OperandForm.Admits.registers
    {form : OperandForm} (hform : form ∈ [OperandForm.rd5rr5, .rd4rr4, .rd3rr3])
    {arg1 arg2 : Int} (h : form.Admits arg1 arg2) :
  ∃ d r : Fin 32, (d.val : Int) = arg1 ∧ (r.val : Int) = arg2
  := by
  have hmem : (0 ≤ arg1 ∧ arg1 < 32) ∧ (0 ≤ arg2 ∧ arg2 < 32) := by
    simp only [List.mem_cons, List.not_mem_nil, or_false] at hform
    rcases hform with rfl | rfl | rfl <;> simp only [Admits] at h <;> omega
  obtain ⟨d, hd⟩ := exists_fin_of_mem hmem.1
  obtain ⟨r, hr⟩ := exists_fin_of_mem hmem.2
  use d, r

/-- Executing an instruction that works on the registers only, with operands that its
encoding admits, has the effect that the reference gives it. -/
theorem handler_alu
    [IoDevices δ] (c : AvrCore δ) {func : OpcodeName} (hfunc : func ∈ aluOpcodes) {arg1 arg2 : Int}
    (hargs : func.form.Admits arg1 arg2) (opcode : Word) :
  ∃ msgs, (func.handler opcode arg1 arg2).run c = .ok (.opcode func,
    (aluReference func arg1 arg2 c).applyAt (AvrCore.adjustPCToMax c.pcMax (c.pc + 1)) c msgs)
  := by
  rcases aluOpcodes_form func hfunc with ⟨hmem, hform⟩ | ⟨hmem, hform⟩ | ⟨hmem, hform⟩
    | ⟨hmem, hform⟩ | ⟨hmem, hform⟩ | ⟨hmem, hform⟩ | ⟨rfl, hform⟩
  · obtain ⟨d, r, rfl, rfl⟩ := hargs.registers hform
    apply handler_rdRr opcode hmem
  all_goals
    rw [hform] at hargs
    obtain ⟨h1, h2⟩ := hargs
  · obtain ⟨d, rfl⟩ := exists_fin_of_mem h1
    apply handler_rd opcode hmem
  · obtain ⟨d, rfl⟩ := exists_fin_of_mem (by omega : 0 ≤ arg1 ∧ arg1 < 32)
    apply handler_rdK opcode hmem d h2
  · obtain ⟨d, rfl⟩ := exists_fin_of_mem (by omega : 0 ≤ arg1 ∧ arg1 < 32)
    apply handler_rd2K6 opcode hmem d (by omega) h2
  · apply handler_sregBit opcode hmem h1
  · obtain ⟨d, rfl⟩ := exists_fin_of_mem h1
    apply handler_rdBit opcode hmem d h2
  · apply handler_MOVW opcode h1 h2

/-- Every instruction word that decodes to an arithmetic or logic instruction has the
effect that the integer reference gives the decoded instruction. -/
theorem alu_refines_reference
    [IoDevices δ] (opcode : Word) (hfunc : (decodeOpcode opcode).func ∈ aluOpcodes)
    (hpc : 0 ≤ c.pc ∧ c.pc < c.pcMax) :
  let opi := decodeOpcode opcode
  ∃ msgs, (execOpcode opcode).run c = .ok (.opcode opi.func,
    (aluReference opi.func opi.arg1 opi.arg2 c).apply c msgs)
  := by
  simp only [AluEffect.apply, ← AvrCore.adjustPCToMax_succ hpc]
  apply handler_alu c hfunc
  apply lookupOpcode_admits

/-- The addition of R1 to R0 with all registers set. -/
theorem alu_refines_reference_add :
  let c : AvrCore Unit := { AvrCore.construct defnAt90s2313 () with gpwr := fun _ => 0xff }
  let opi := decodeOpcode 0x0c01
  ∃ msgs, (execOpcode 0x0c01).run c = .ok (.opcode opi.func,
    (aluReference opi.func opi.arg1 opi.arg2 c).apply c msgs)
  := by
  intro c
  have hfunc : (decodeOpcode 0x0c01).func ∈ aluOpcodes := by decide +kernel
  have hpc : 0 ≤ c.pc ∧ c.pc < c.pcMax := by decide
  apply alu_refines_reference 0x0c01 hfunc hpc

end

end SimulAvr
