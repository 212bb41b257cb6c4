import SimulAvr.Core
import SimulAvr.Decoder.Lookup

/-!
# Arithmetic and logic instructions

The helper functions that compute the bits of the status register, and the handlers of
the instructions that work on the registers only.  Handlers of one shape are one
definition, applied to the function that computes the result and the new status
register from the operands and the old one.
-/

namespace SimulAvr

/-! ### The bits of the status register -/

/-- `get_add_carry` -/
def getAddCarry (res rd rr : Byte) (b : Nat) : Bool :=
  let resb := res.getLsbD b
  let rdb := rd.getLsbD b
  let rrb := rr.getLsbD b
  (rdb && rrb) || (rrb && !resb) || (!resb && rdb)

/-- `get_add_overflow` -/
def getAddOverflow (res rd rr : Byte) : Bool :=
  let res7 := res.getLsbD 7
  let rd7 := rd.getLsbD 7
  let rr7 := rr.getLsbD 7
  (rd7 && rr7 && !res7) || (!rd7 && !rr7 && res7)

/-- `get_sub_carry` -/
def getSubCarry (res rd rr : Byte) (b : Nat) : Bool :=
  let resb := res.getLsbD b
  let rdb := rd.getLsbD b
  let rrb := rr.getLsbD b
  (!rdb && rrb) || (rrb && resb) || (resb && !rdb)

/-- `get_sub_overflow` -/
def getSubOverflow (res rd rr : Byte) : Bool :=
  let res7 := res.getLsbD 7
  let rd7 := rd.getLsbD 7
  let rr7 := rr.getLsbD 7
  (rd7 && !rr7 && !res7) || (!rd7 && rr7 && res7)

/-- `get_compare_carry` -/
def getCompareCarry (res rd rr : Byte) (b : Nat) : Bool :=
  let resb := res.getLsbD b
  let rdb := rd.getLsbD b
  let rrb := rr.getLsbD b
  (!rdb && rrb) || (rrb && resb) || (resb && !rdb)

/-- `get_compare_overflow` -/
def getCompareOverflow (res rd rr : Byte) : Bool :=
  let res7 := res.getLsbD 7
  let rd7 := rd.getLsbD 7
  let rr7 := rr.getLsbD 7
  (rd7 && !rr7 && !res7) || (!rd7 && rr7 && res7)

/-- The carry bit as a summand. -/
def carryIn (sreg : Byte) : Byte :=
  (BitVec.ofBool (sreg.getLsbD SREG.C)).setWidth 8

/-- The status register after an addition. -/
def addFlags (res rd rr sreg : Byte) : Byte :=
  let V := getAddOverflow res rd rr
  let N := res.getLsbD 7
  let sreg := setBitInByte sreg SREG.H (getAddCarry res rd rr 3)
  let sreg := setBitInByte sreg SREG.V V
  let sreg := setBitInByte sreg SREG.N N
  let sreg := setBitInByte sreg SREG.S (N ^^ V)
  let sreg := setBitInByte sreg SREG.Z (res = 0)
  setBitInByte sreg SREG.C (getAddCarry res rd rr 7)

/-- The status register after a subtraction, the bit Z apart. -/
def subFlags (res rd rr sreg : Byte) : Byte :=
  let V := getSubOverflow res rd rr
  let N := res.getLsbD 7
  let sreg := setBitInByte sreg SREG.H (getSubCarry res rd rr 3)
  let sreg := setBitInByte sreg SREG.V V
  let sreg := setBitInByte sreg SREG.N N
  let sreg := setBitInByte sreg SREG.S (N ^^ V)
  setBitInByte sreg SREG.C (getSubCarry res rd rr 7)

/-- The status register after a comparison, the bit Z apart. -/
def compareFlags (res rd rr sreg : Byte) : Byte :=
  let V := getCompareOverflow res rd rr
  let N := res.getLsbD 7
  let sreg := setBitInByte sreg SREG.H (getCompareCarry res rd rr 3)
  let sreg := setBitInByte sreg SREG.V V
  let sreg := setBitInByte sreg SREG.N N
  let sreg := setBitInByte sreg SREG.S (N ^^ V)
  setBitInByte sreg SREG.C (getCompareCarry res rd rr 7)

/-- The status register after a logical operation. -/
def logicFlags (res sreg : Byte) : Byte :=
  let N := res.getLsbD 7
  let sreg := setBitInByte sreg SREG.V false
  let sreg := setBitInByte sreg SREG.N N
  let sreg := setBitInByte sreg SREG.S (N ^^ false)
  setBitInByte sreg SREG.Z (res = 0)

/-- The status register after a shift to the right that shifts out `C`. -/
def shiftFlags (res : Byte) (C : Bool) (sreg : Byte) : Byte :=
  let N := res.getLsbD 7
  let V := N ^^ C
  let sreg := setBitInByte sreg SREG.C C
  let sreg := setBitInByte sreg SREG.N N
  let sreg := setBitInByte sreg SREG.V V
  let sreg := setBitInByte sreg SREG.S (N ^^ V)
  setBitInByte sreg SREG.Z (res = 0)

/-- The status register after an increment or a decrement with overflow `V`. -/
def incrFlags (res : Byte) (V : Bool) (sreg : Byte) : Byte :=
  let N := res.getLsbD 7
  let sreg := setBitInByte sreg SREG.N N
  let sreg := setBitInByte sreg SREG.V V
  let sreg := setBitInByte sreg SREG.S (N ^^ V)
  setBitInByte sreg SREG.Z (res = 0)

/-- The status register after an operation on a register pair. -/
def wordFlags (res : Word) (V C : Bool) (sreg : Byte) : Byte :=
  let N := res.getLsbD 15
  let sreg := setBitInByte sreg SREG.V V
  let sreg := setBitInByte sreg SREG.N N
  let sreg := setBitInByte sreg SREG.S (N ^^ V)
  let sreg := setBitInByte sreg SREG.Z (res = 0)
  setBitInByte sreg SREG.C C

/-! ### The shapes of the handlers -/

section

variable {δ : Type}

/-- The end of a handler that goes on with the next instruction word. -/
def nextInst (name : OpcodeName) (cks : Int) : CoreM δ OpRet := do
  avrCorePCIncr 1
  avrCoreInstCKSSet cks
  return .opcode name

/-- `Rd <- op (Rd, Rr)` -/
def aluRdRr (name : OpcodeName) (op : Byte → Byte → Byte → Byte × Byte) (Rd Rr : Int) :
    CoreM δ OpRet := do
  let rd ← avrCoreGpwrGet Rd
  let rr ← avrCoreGpwrGet Rr
  let sreg ← avrCoreSregGet
  avrCoreSregSet (op rd rr sreg).2
  avrCoreGpwrSet Rd (op rd rr sreg).1
  nextInst name 1

/-- `Rd <- op (Rd, K)` -/
def aluRdK (name : OpcodeName) (op : Byte → Byte → Byte → Byte × Byte) (Rd K : Int) :
    CoreM δ OpRet := do
  let rd ← avrCoreGpwrGet Rd
  let sreg ← avrCoreSregGet
  avrCoreSregSet (op rd (.ofInt 8 K) sreg).2
  avrCoreGpwrSet Rd (op rd (.ofInt 8 K) sreg).1
  nextInst name 1

/-- `Rd <- op (Rd)` -/
def aluRd (name : OpcodeName) (op : Byte → Byte → Byte × Byte) (Rd : Int) :
    CoreM δ OpRet := do
  let rd ← avrCoreGpwrGet Rd
  let sreg ← avrCoreSregGet
  avrCoreSregSet (op rd sreg).2
  avrCoreGpwrSet Rd (op rd sreg).1
  nextInst name 1

/-- The comparison of `Rd` with `Rr`. -/
def compareRdRr (name : OpcodeName) (op : Byte → Byte → Byte → Byte) (Rd Rr : Int) :
    CoreM δ OpRet := do
  let rd ← avrCoreGpwrGet Rd
  let rr ← avrCoreGpwrGet Rr
  let sreg ← avrCoreSregGet
  avrCoreSregSet (op rd rr sreg)
  nextInst name 1

/-- The comparison of `Rd` with a constant. -/
def compareRdK (name : OpcodeName) (op : Byte → Byte → Byte → Byte) (Rd K : Int) :
    CoreM δ OpRet := do
  let rd ← avrCoreGpwrGet Rd
  let sreg ← avrCoreSregGet
  avrCoreSregSet (op rd (.ofInt 8 K) sreg)
  nextInst name 1

/-- `Rd+1:Rd <- op (Rd+1:Rd, K)` -/
def aluWord (name : OpcodeName) (op : Word → Word → Byte → Word × Byte) (Rd K : Int) :
    CoreM δ OpRet := do
  let rdl ← avrCoreGpwrGet Rd
  let rdh ← avrCoreGpwrGet (Rd + 1)
  let sreg ← avrCoreSregGet
  let K := (BitVec.ofInt 8 K).setWidth 16
  avrCoreSregSet (op (rdh ++ rdl) K sreg).2
  avrCoreGpwrSet Rd ((op (rdh ++ rdl) K sreg).1.extractLsb' 0 8)
  avrCoreGpwrSet (Rd + 1) ((op (rdh ++ rdl) K sreg).1.extractLsb' 8 8)
  nextInst name 2

/-- `R1:R0 <- op (Rd, Rr)`, where `op` also yields the bit C -/
def mulRdRr (name : OpcodeName) (op : Byte → Byte → Word × Bool) (Rd Rr : Int) :
    CoreM δ OpRet := do
  let rd ← avrCoreGpwrGet Rd
  let rr ← avrCoreGpwrGet Rr
  let sreg ← avrCoreSregGet
  let sreg := setBitInByte sreg SREG.Z ((op rd rr).1 = 0)
  let sreg := setBitInByte sreg SREG.C (op rd rr).2
  avrCoreSregSet sreg
  avrCoreGpwrSet 1 ((op rd rr).1.extractLsb' 8 8)
  avrCoreGpwrSet 0 ((op rd rr).1.extractLsb' 0 8)
  nextInst name 2

end

/-! ### The operations -/

/-- The result and the status register of ADC. -/
def adcOp (rd rr sreg : Byte) : Byte × Byte :=
  let res := rd + rr + carryIn sreg
  (res, addFlags res rd rr sreg)

/-- The result and the status register of ADD. -/
def addOp (rd rr sreg : Byte) : Byte × Byte :=
  let res := rd + rr
  (res, addFlags res rd rr sreg)

/-- The result and the status register of SUB and SUBI. -/
def subOp (rd rr sreg : Byte) : Byte × Byte :=
  let res := rd - rr
  (res, setBitInByte (subFlags res rd rr sreg) SREG.Z (res = 0))

/-- The result and the status register of SBC and SBCI, which clear Z or leave it. -/
def sbcOp (rd rr sreg : Byte) : Byte × Byte :=
  let res := rd - rr - carryIn sreg
  let sreg := subFlags res rd rr sreg
  (res, if res ≠ 0 then setBitInByte sreg SREG.Z false else sreg)

/-- The status register of CP and CPI. -/
def cpOp (rd rr sreg : Byte) : Byte :=
  let res := rd - rr
  setBitInByte (compareFlags res rd rr sreg) SREG.Z (res = 0)

/-- The status register of CPC. -/
def cpcOp (rd rr sreg : Byte) : Byte :=
  let res := rd - rr - carryIn sreg
  -- Previous value remains unchanged when result is 0; cleared otherwise
  let Z : Bool := res = 0
  let prevZ := sreg.getLsbD SREG.Z
  setBitInByte (compareFlags res rd rr sreg) SREG.Z (Z && prevZ)

/-- The result and the status register of AND and ANDI. -/
def andOp (rd rr sreg : Byte) : Byte × Byte :=
  let res := rd &&& rr
  (res, logicFlags res sreg)

/-- The result and the status register of OR and ORI. -/
def orOp (rd rr sreg : Byte) : Byte × Byte :=
  let res := rd ||| rr
  (res, logicFlags res sreg)

/-- The result and the status register of EOR. -/
def eorOp (rd rr sreg : Byte) : Byte × Byte :=
  let res := rd ^^^ rr
  (res, logicFlags res sreg)

/-- The result and the status register of ASR. -/
def asrOp (rd sreg : Byte) : Byte × Byte :=
  let res := (rd >>> 1) + (rd &&& 0x80)
  (res, shiftFlags res (rd.getLsbD 0) sreg)

/-- The result and the status register of LSR, which clears N. -/
def lsrOp (rd sreg : Byte) : Byte × Byte :=
  let res := (rd >>> 1) &&& 0x7f
  let C := rd.getLsbD 0
  let N := false
  let V := N ^^ C
  let sreg := setBitInByte sreg SREG.C C
  let sreg := setBitInByte sreg SREG.N N
  let sreg := setBitInByte sreg SREG.V V
  let sreg := setBitInByte sreg SREG.S (N ^^ V)
  (res, setBitInByte sreg SREG.Z (res = 0))

/-- The result and the status register of ROR. -/
def rorOp (rd sreg : Byte) : Byte × Byte :=
  let res := (rd >>> 1) ||| ((carryIn sreg <<< 7) &&& 0x80)
  (res, shiftFlags res (rd.getLsbD 0) sreg)

/-- The result and the status register of COM. -/
def comOp (rd sreg : Byte) : Byte × Byte :=
  let res := 0xff - rd
  let N := res.getLsbD 7
  let sreg := setBitInByte sreg SREG.N N
  let sreg := setBitInByte sreg SREG.C true
  let sreg := setBitInByte sreg SREG.V false
  let sreg := setBitInByte sreg SREG.S (N ^^ false)
  (res, setBitInByte sreg SREG.Z (res = 0))

/-- The result and the status register of NEG. -/
def negOp (rd sreg : Byte) : Byte × Byte :=
  let res := (0x0 - rd) &&& 0xff
  let N := res.getLsbD 7
  let V : Bool := res = 0x80
  let sreg := setBitInByte sreg SREG.H (res.getLsbD 3 || rd.getLsbD 3)
  let sreg := setBitInByte sreg SREG.V V
  let sreg := setBitInByte sreg SREG.N N
  let sreg := setBitInByte sreg SREG.S (N ^^ V)
  let sreg := setBitInByte sreg SREG.Z (res = 0x0)
  (res, setBitInByte sreg SREG.C (res ≠ 0x0))

/-- The result and the status register of INC. -/
def incOp (rd sreg : Byte) : Byte × Byte :=
  let res := rd + 1
  (res, incrFlags res (rd = 0x7f) sreg)

/-- The result and the status register of DEC. -/
def decOp (rd sreg : Byte) : Byte × Byte :=
  let res := rd - 1
  (res, incrFlags res (rd = 0x80) sreg)

/-- The result and the status register of ADIW. -/
def adiwOp (rd K : Word) (sreg : Byte) : Word × Byte :=
  let res := rd + K
  let rdh7 := rd.getLsbD 15
  let res15 := res.getLsbD 15
  (res, wordFlags res (!rdh7 && res15) (!res15 && rdh7) sreg)

/-- The result and the status register of SBIW. -/
def sbiwOp (rd K : Word) (sreg : Byte) : Word × Byte :=
  let res := rd - K
  let rdh7 := rd.getLsbD 15
  let res15 := res.getLsbD 15
  (res, wordFlags res (rdh7 && !res15) (res15 && !rdh7) sreg)

/-- The result of a multiplication with product `prod`, and its bit C. -/
def mulOp (prod : Word) : Word × Bool :=
  (prod, prod.getLsbD 15)

/-- The result of a fractional multiplication with product `prod`, and its bit C. -/
def fmulOp (prod : Word) : Word × Bool :=
  (prod <<< 1, prod.getLsbD 15)

/-! ### The handlers -/

section

variable {δ : Type}

/-- `avr_op_ADC` -/
def avrOpADC (arg1 arg2 : Int) : CoreM δ OpRet :=
  aluRdRr .ADC adcOp arg1 arg2

/-- `avr_op_ADD` -/
def avrOpADD (arg1 arg2 : Int) : CoreM δ OpRet :=
  aluRdRr .ADD addOp arg1 arg2

/-- `avr_op_ADIW` -/
def avrOpADIW (arg1 arg2 : Int) : CoreM δ OpRet :=
  aluWord .ADIW adiwOp arg1 arg2

/-- `avr_op_AND` -/
def avrOpAND (arg1 arg2 : Int) : CoreM δ OpRet :=
  aluRdRr .AND andOp arg1 arg2

/-- `avr_op_ANDI` -/
def avrOpANDI (arg1 arg2 : Int) : CoreM δ OpRet :=
  aluRdK .ANDI andOp arg1 arg2

/-- `avr_op_ASR` -/
def avrOpASR (arg1 : Int) : CoreM δ OpRet :=
  aluRd .ASR asrOp arg1

/-- `avr_op_BCLR` -/
def avrOpBCLR (arg1 : Int) : CoreM δ OpRet := do
  avrCoreSregSetBit arg1.toNat false
  nextInst .BCLR 1

/-- `avr_op_BLD` -/
def avrOpBLD (arg1 arg2 : Int) : CoreM δ OpRet := do
  let Rd := arg1
  let bit := arg2.toNat
  let rd ← avrCoreGpwrGet Rd
  let T ← avrCoreSregGetBit SREG.T
  avrCoreGpwrSet Rd (if T = false then rd &&& ~~~(1#8 <<< bit) else rd ||| (1#8 <<< bit))
  nextInst .BLD 1

/-- `avr_op_BSET` -/
def avrOpBSET (arg1 : Int) : CoreM δ OpRet := do
  avrCoreSregSetBit arg1.toNat true
  nextInst .BSET 1

/-- `avr_op_BST` -/
def avrOpBST (arg1 arg2 : Int) : CoreM δ OpRet := do
  let Rd := arg1
  let bit := arg2.toNat
  let rd ← avrCoreGpwrGet Rd
  avrCoreSregSetBit SREG.T (rd.getLsbD bit)
  nextInst .BST 1

/-- `avr_op_COM` -/
def avrOpCOM (arg1 : Int) : CoreM δ OpRet :=
  aluRd .COM comOp arg1

/-- `avr_op_CP` -/
def avrOpCP (arg1 arg2 : Int) : CoreM δ OpRet :=
  compareRdRr .CP cpOp arg1 arg2

/-- `avr_op_CPC` -/
def avrOpCPC (arg1 arg2 : Int) : CoreM δ OpRet :=
  compareRdRr .CPC cpcOp arg1 arg2

/-- `avr_op_CPI` -/
def avrOpCPI (arg1 arg2 : Int) : CoreM δ OpRet :=
  compareRdK .CPI cpOp arg1 arg2

/-- `avr_op_DEC` -/
def avrOpDEC (arg1 : Int) : CoreM δ OpRet :=
  aluRd .DEC decOp arg1

/-- `avr_op_EOR` -/
def avrOpEOR (arg1 arg2 : Int) : CoreM δ OpRet :=
  aluRdRr .EOR eorOp arg1 arg2

/-- `avr_op_FMUL` -/
def avrOpFMUL (arg1 arg2 : Int) : CoreM δ OpRet :=
  mulRdRr .FMUL (fun rd rr => fmulOp (rd.setWidth 16 * rr.setWidth 16)) arg1 arg2

/-- `avr_op_FMULS` -/
def avrOpFMULS (arg1 arg2 : Int) : CoreM δ OpRet :=
  mulRdRr .FMULS (fun rd rr => fmulOp (rd.signExtend 16 * rr.signExtend 16)) arg1 arg2

/-- `avr_op_FMULSU` -/
def avrOpFMULSU (arg1 arg2 : Int) : CoreM δ OpRet :=
  mulRdRr .FMULSU (fun rd rr => fmulOp (rd.signExtend 16 * rr.setWidth 16)) arg1 arg2

/-- `avr_op_INC` -/
def avrOpINC (arg1 : Int) : CoreM δ OpRet :=
  aluRd .INC incOp arg1

/-- `avr_op_LDI` -/
def avrOpLDI (arg1 arg2 : Int) : CoreM δ OpRet := do
  avrCoreGpwrSet arg1 (.ofInt 8 arg2)
  nextInst .LDI 1

/-- `avr_op_LSR` -/
def avrOpLSR (arg1 : Int) : CoreM δ OpRet :=
  aluRd .LSR lsrOp arg1

/-- `avr_op_MOV` -/
def avrOpMOV (arg1 arg2 : Int) : CoreM δ OpRet := do
  let rr ← avrCoreGpwrGet arg2
  avrCoreGpwrSet arg1 rr
  nextInst .MOV 1

/-- `avr_op_MOVW`: the operands are even, from 0 to 30. -/
def avrOpMOVW (arg1 arg2 : Int) : CoreM δ OpRet := do
  let Rd := (arg1 - 16) * 2
  let Rr := (arg2 - 16) * 2
  let rrl ← avrCoreGpwrGet Rr
  avrCoreGpwrSet Rd rrl
  let rrh ← avrCoreGpwrGet (Rr + 1)
  avrCoreGpwrSet (Rd + 1) rrh
  nextInst .MOVW 1

/-- `avr_op_MUL` -/
def avrOpMUL (arg1 arg2 : Int) : CoreM δ OpRet :=
  mulRdRr .MUL (fun rd rr => mulOp (rd.setWidth 16 * rr.setWidth 16)) arg1 arg2

/-- `avr_op_MULS` -/
def avrOpMULS (arg1 arg2 : Int) : CoreM δ OpRet :=
  mulRdRr .MULS (fun rd rr => mulOp (rd.signExtend 16 * rr.signExtend 16)) arg1 arg2

/-- `avr_op_MULSU` -/
def avrOpMULSU (arg1 arg2 : Int) : CoreM δ OpRet :=
  mulRdRr .MULSU (fun rd rr => mulOp (rd.signExtend 16 * rr.setWidth 16)) arg1 arg2

/-- `avr_op_NEG` -/
def avrOpNEG (arg1 : Int) : CoreM δ OpRet :=
  aluRd .NEG negOp arg1

/-- `avr_op_OR` -/
def avrOpOR (arg1 arg2 : Int) : CoreM δ OpRet :=
  aluRdRr .OR orOp arg1 arg2

/-- `avr_op_ORI` -/
def avrOpORI (arg1 arg2 : Int) : CoreM δ OpRet :=
  aluRdK .ORI orOp arg1 arg2

/-- `avr_op_ROR` -/
def avrOpROR (arg1 : Int) : CoreM δ OpRet :=
  aluRd .ROR rorOp arg1

/-- `avr_op_SBC` -/
def avrOpSBC (arg1 arg2 : Int) : CoreM δ OpRet :=
  aluRdRr .SBC sbcOp arg1 arg2

/-- `avr_op_SBCI` -/
def avrOpSBCI (arg1 arg2 : Int) : CoreM δ OpRet :=
  aluRdK .SBCI sbcOp arg1 arg2

/-- `avr_op_SBIW` -/
def avrOpSBIW (arg1 arg2 : Int) : CoreM δ OpRet :=
  aluWord .SBIW sbiwOp arg1 arg2

/-- `avr_op_SUB` -/
def avrOpSUB (arg1 arg2 : Int) : CoreM δ OpRet :=
  aluRdRr .SUB subOp arg1 arg2

/-- `avr_op_SUBI` -/
def avrOpSUBI (arg1 arg2 : Int) : CoreM δ OpRet :=
  aluRdK .SUBI subOp arg1 arg2

/-- `avr_op_SWAP` -/
def avrOpSWAP (arg1 : Int) : CoreM δ OpRet := do
  let rd ← avrCoreGpwrGet arg1
  avrCoreGpwrSet arg1 (((rd <<< 4) &&& 0xf0) ||| ((rd >>> 4) &&& 0x0f))
  nextInst .SWAP 1

end

end SimulAvr
