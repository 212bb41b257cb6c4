import SimulAvr.Decoder.Data

/-!
# Control flow instructions

The handlers of the branches, skips, jumps, calls and returns, of the remaining
instructions, and the selection of the handler of an opcode.
-/

namespace SimulAvr

section

variable {δ : Type} [IoDevices δ]

/-! ### Branches and skips -/

/-- The branch of `avr_op_BRBC` and `avr_op_BRBS` by `k`, taken if the bit `bit` of SREG
is `val`. -/
def branchIf (name : OpcodeName) (val : Bool) (bit k : Int) : CoreM δ OpRet := do
  let b ← avrCoreSregGetBit bit.toNat
  if b = val then
    avrCorePCIncr (k + 1)
    avrCoreInstCKSSet 2
    return .opcode name
  else
    nextInst name 1

/-- `avr_op_BRBC` -/
def avrOpBRBC (arg1 arg2 : Int) : CoreM δ OpRet :=
  branchIf .BRBC false arg1 arg2

/-- `avr_op_BRBS` -/
def avrOpBRBS (arg1 arg2 : Int) : CoreM δ OpRet :=
  branchIf .BRBS true arg1 arg2

/-- CALL, JMP, LDS, and STS are the only two word (32 bit) instructions. -/
def isTwoWords (opcode : Word) : Bool :=
  (decodeOpcode opcode).func ∈ [.CALL, .JMP, .LDS, .STS]

/-- `is_next_inst_2_words` -/
def isNextInst2Words : CoreM δ Bool := do
  let nextOpcode ← flashReadNext
  return isTwoWords nextOpcode

/-- The end of a handler that skips the next instruction, of `skip - 1` words, if
`cond`. -/
def skipIf (name : OpcodeName) (cond : Bool) (skip : Int) : CoreM δ OpRet := do
  if cond then
    avrCorePCIncr skip
    avrCoreInstCKSSet skip
    return .opcode name
  else
    nextInst name 1

/-- `avr_op_CPSE` -/
def avrOpCPSE (arg1 arg2 : Int) : CoreM δ OpRet := do
  let rd ← avrCoreGpwrGet arg1
  let rr ← avrCoreGpwrGet arg2
  let twoWords ← isNextInst2Words
  skipIf .CPSE (rd = rr) (if twoWords then 3 else 2)

/-- The skip of `avr_op_SBRC` and `avr_op_SBRS`, taken if bit `b` of `Rd` is `val`. -/
def skipIfRegBit (name : OpcodeName) (val : Bool) (Rd b : Int) : CoreM δ OpRet := do
  let twoWords ← isNextInst2Words
  let rd ← avrCoreGpwrGet Rd
  skipIf name (rd.getLsbD b.toNat = val) (if twoWords then 3 else 2)

/-- `avr_op_SBRC` -/
def avrOpSBRC (arg1 arg2 : Int) : CoreM δ OpRet :=
  skipIfRegBit .SBRC false arg1 arg2

/-- `avr_op_SBRS` -/
def avrOpSBRS (arg1 arg2 : Int) : CoreM δ OpRet :=
  skipIfRegBit .SBRS true arg1 arg2

/-- The skip of `avr_op_SBIC` and `avr_op_SBIS`, taken if bit `b` of the I/O register `A`
is `val`. -/
def skipIfIoBit (name : OpcodeName) (val : Bool) (A b : Int) : CoreM δ OpRet := do
  let twoWords ← isNextInst2Words
  let io ← avrCoreIoRead A
  skipIf name (io.getLsbD b.toNat = val) (if twoWords then 3 else 2)

/-- `avr_op_SBIC` -/
def avrOpSBIC (arg1 arg2 : Int) : CoreM δ OpRet :=
  skipIfIoBit .SBIC false arg1 arg2

/-- `avr_op_SBIS` -/
def avrOpSBIS (arg1 arg2 : Int) : CoreM δ OpRet :=
  skipIfIoBit .SBIS true arg1 arg2

/-! ### Jumps, calls and returns -/

/-- `((EIND & 0x3f) << 16) + (R31 << 8) + R30` -/
def extendedIndirect : CoreM δ Int := do
  let eind ← gets AvrCore.eind
  let Z ← pointerGet 30
  return ((eind &&& 0x3f).toNat * 2 ^ 16 + Z.toNat : Nat)

/-- The second word of a CALL or JMP with the upper bits `kh` of the address: the
address. -/
def addressOperand (kh : Int) : CoreM δ Int := do
  let kl ← flashReadNext
  return kh * 2 ^ 16 + kl.toNat

/-- `avr_op_CALL` -/
def avrOpCALL (arg1 : Int) : CoreM δ OpRet := do
  let pc ← avrCorePCGet
  let pcBytes ← avrCorePCSize
  let k ← addressOperand arg1
  avrErrorIf (pcBytes = 2 ∧ k > 0xffff) "Address out of allowed range: 0x%06x" [k]
  avrCoreStackPush pcBytes (.ofInt 32 (pc + 2))
  avrCorePCSet k
  avrCoreInstCKSSet (pcBytes + 2)
  return .opcode .CALL

/-- `avr_op_RCALL` -/
def avrOpRCALL (arg1 : Int) : CoreM δ OpRet := do
  let k := arg1
  let pc ← avrCorePCGet
  let pcBytes ← avrCorePCSize
  avrCoreStackPush pcBytes (.ofInt 32 (pc + 1))
  avrCorePCIncr (k + 1)
  avrCoreInstCKSSet (pcBytes + 1)
  return .opcode .RCALL

/-- `avr_op_ICALL` -/
def avrOpICALL : CoreM δ OpRet := do
  let pc ← avrCorePCGet
  let pcBytes ← avrCorePCSize
  let newPc ← pointerGet 30
  avrCoreStackPush pcBytes (.ofInt 32 (pc + 1))
  avrCorePCSet newPc.toNat
  avrCoreInstCKSSet (pcBytes + 1)
  return .opcode .ICALL

/-- `avr_op_EICALL`, which pushes three bytes whatever the size of the PC -/
def avrOpEICALL : CoreM δ OpRet := do
  let pc ← avrCorePCGet
  let pcBytes := 3
  let newPc ← extendedIndirect
  avrCoreStackPush pcBytes (.ofInt 32 (pc + 1))
  avrCorePCSet newPc
  avrCoreInstCKSSet 4
  return .opcode .EICALL

/-- `avr_op_JMP` -/
def avrOpJMP (arg1 : Int) : CoreM δ OpRet := do
  let k ← addressOperand arg1
  avrCorePCSet k
  avrCoreInstCKSSet 3
  return .opcode .JMP

/-- `avr_op_RJMP` -/
def avrOpRJMP (arg1 : Int) : CoreM δ OpRet := do
  let k := arg1
  avrCorePCIncr (k + 1)
  avrCoreInstCKSSet 2
  return .opcode .RJMP

/-- `avr_op_IJMP` -/
def avrOpIJMP : CoreM δ OpRet := do
  let newPc ← pointerGet 30
  avrCorePCSet newPc.toNat
  avrCoreInstCKSSet 2
  return .opcode .IJMP

/-- `avr_op_EIJMP` -/
def avrOpEIJMP : CoreM δ OpRet := do
  let newPc ← extendedIndirect
  avrCorePCSet newPc
  avrCoreInstCKSSet 2
  return .opcode .EIJMP

/-- `avr_op_RET` -/
def avrOpRET : CoreM δ OpRet := do
  let pcBytes ← avrCorePCSize
  let pc ← avrCoreStackPop pcBytes
  avrCorePCSet pc.toInt
  avrCoreInstCKSSet (pcBytes + 2)
  return .opcode .RET

/-- `avr_op_RETI` -/
def avrOpRETI : CoreM δ OpRet := do
  let pcBytes ← avrCorePCSize
  let pc ← avrCoreStackPop pcBytes
  avrCorePCSet pc.toInt
  avrCoreInstCKSSet (pcBytes + 2)
  avrCoreSregSetBit SREG.I true
  return .opcode .RETI

/-! ### Other instructions -/

/-- `avr_op_BREAK`, which returns _without_ incrementing PC -/
def avrOpBREAK : CoreM δ OpRet :=
  return .breakPoint

/-- `avr_op_NOP` -/
def avrOpNOP : CoreM δ OpRet :=
  nextInst .NOP 1

/-- `avr_op_UNKNOWN`: treat an unknown opcode as a NOP. -/
def avrOpUNKNOWN : CoreM δ OpRet := do
  let _ ← avrOpNOP
  return .opcode .UNKNOWN

/-- `avr_core_get_vdev_by_name`, which never returns -/
def avrCoreGetVdevByName (_name : String) : CoreM δ Empty :=
  avrError "use of deprecated interface" []

/-- `avr_op_SLEEP`: the lookup of the register that selects the sleep mode aborts. -/
def avrOpSLEEP : CoreM δ OpRet := do
  let mcucr ← avrCoreGetVdevByName "MCUCR"
  nomatch mcucr

/-- `avr_op_WDR`: the lookup of the watchdog register aborts. -/
def avrOpWDR : CoreM δ OpRet := do
  let wdtcr ← avrCoreGetVdevByName "WDTCR"
  nomatch wdtcr

/-- The handler that belongs to an opcode. -/
def OpcodeName.handler (opcode : Word) (arg1 arg2 : Int) : OpcodeName → CoreM δ OpRet
  | .BREAK => avrOpBREAK
  | .EICALL => avrOpEICALL
  | .EIJMP => avrOpEIJMP
  | .ELPM => avrOpELPM arg1
  | .ESPM => avrOpESPM opcode
  | .ICALL => avrOpICALL
  | .IJMP => avrOpIJMP
  | .LPM => avrOpLPM
  | .NOP => avrOpNOP
  | .RET => avrOpRET
  | .RETI => avrOpRETI
  | .SLEEP => avrOpSLEEP
  | .SPM => avrOpSPM
  | .WDR => avrOpWDR
  | .ASR => avrOpASR arg1
  | .COM => avrOpCOM arg1
  | .DEC => avrOpDEC arg1
  | .ELPM_Z => avrOpELPMZ arg1
  | .ELPM_Z_incr => avrOpELPMZIncr arg1
  | .INC => avrOpINC arg1
  | .LDS => avrOpLDS arg1
  | .LD_X => avrOpLDX arg1
  | .LD_X_decr => avrOpLDXDecr arg1
  | .LD_X_incr => avrOpLDXIncr arg1
  | .LD_Y_decr => avrOpLDYDecr arg1
  | .LD_Y_incr => avrOpLDYIncr arg1
  | .LD_Z_decr => avrOpLDZDecr arg1
  | .LD_Z_incr => avrOpLDZIncr arg1
  | .LPM_Z => avrOpLPMZ arg1
  | .LPM_Z_incr => avrOpLPMZIncr arg1
  | .LSR => avrOpLSR arg1
  | .NEG => avrOpNEG arg1
  | .POP => avrOpPOP arg1
  | .PUSH => avrOpPUSH arg1
  | .ROR => avrOpROR arg1
  | .STS => avrOpSTS arg1
  | .ST_X => avrOpSTX arg1
  | .ST_X_decr => avrOpSTXDecr opcode arg1
  | .ST_X_incr => avrOpSTXIncr opcode arg1
  | .ST_Y_decr => avrOpSTYDecr opcode arg1
  | .ST_Y_incr => avrOpSTYIncr opcode arg1
  | .ST_Z_decr => avrOpSTZDecr opcode arg1
  | .ST_Z_incr => avrOpSTZIncr opcode arg1
  | .SWAP => avrOpSWAP arg1
  | .ADC => avrOpADC arg1 arg2
  | .ADD => avrOpADD arg1 arg2
  | .AND => avrOpAND arg1 arg2
  | .CP => avrOpCP arg1 arg2
  | .CPC => avrOpCPC arg1 arg2
  | .CPSE => avrOpCPSE arg1 arg2
  | .EOR => avrOpEOR arg1 arg2
  | .MOV => avrOpMOV arg1 arg2
  | .MUL => avrOpMUL arg1 arg2
  | .OR => avrOpOR arg1 arg2
  | .SBC => avrOpSBC arg1 arg2
  | .SUB => avrOpSUB arg1 arg2
  | .MOVW => avrOpMOVW arg1 arg2
  | .MULS => avrOpMULS arg1 arg2
  | .MULSU => avrOpMULSU arg1 arg2
  | .FMUL => avrOpFMUL arg1 arg2
  | .FMULS => avrOpFMULS arg1 arg2
  | .FMULSU => avrOpFMULSU arg1 arg2
  | .ANDI => avrOpANDI arg1 arg2
  | .CPI => avrOpCPI arg1 arg2
  | .LDI => avrOpLDI arg1 arg2
  | .ORI => avrOpORI arg1 arg2
  | .SBCI => avrOpSBCI arg1 arg2
  | .SUBI => avrOpSUBI arg1 arg2
  | .BLD => avrOpBLD arg1 arg2
  | .BST => avrOpBST arg1 arg2
  | .SBRC => avrOpSBRC arg1 arg2
  | .SBRS => avrOpSBRS arg1 arg2
  | .BRBC => avrOpBRBC arg1 arg2
  | .BRBS => avrOpBRBS arg1 arg2
  | .LDD_Y => avrOpLDDY arg1 arg2
  | .LDD_Z => avrOpLDDZ arg1 arg2
  | .STD_Y => avrOpSTDY arg1 arg2
  | .STD_Z => avrOpSTDZ arg1 arg2
  | .CALL => avrOpCALL arg1
  | .JMP => avrOpJMP arg1
  | .BCLR => avrOpBCLR arg1
  | .BSET => avrOpBSET arg1
  | .ADIW => avrOpADIW arg1 arg2
  | .SBIW => avrOpSBIW arg1 arg2
  | .CBI => avrOpCBI arg1 arg2
  | .SBI => avrOpSBI arg1 arg2
  | .SBIC => avrOpSBIC arg1 arg2
  | .SBIS => avrOpSBIS arg1 arg2
  | .IN => avrOpIN arg1 arg2
  | .OUT => avrOpOUT arg1 arg2
  | .RCALL => avrOpRCALL arg1
  | .RJMP => avrOpRJMP arg1
  | .UNKNOWN => avrOpUNKNOWN

/-- `opi->func (core, opcode, opi->arg1, opi->arg2)` for the decoded `opcode` -/
def execOpcode (opcode : Word) : CoreM δ OpRet :=
  let opi := decodeOpcode opcode
  opi.func.handler opcode opi.arg1 opi.arg2

end

end SimulAvr
