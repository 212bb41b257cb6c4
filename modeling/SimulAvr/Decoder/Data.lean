import SimulAvr.Stack
import SimulAvr.Decoder.Alu

/-!
# Data transfer instructions

The handlers of the instructions that access data memory, I/O registers, the stack and
program memory.  The loads and stores through a pointer register are definitions with
the low register `p` of the pair as a parameter: 26 for X, 28 for Y and 30 for Z.
-/

namespace SimulAvr

section

variable {δ : Type} [IoDevices δ]

/-! ### Loads and stores -/

/-- `(avr_core_gpwr_get (core, p + 1) << 8) + avr_core_gpwr_get (core, p)` -/
def pointerGet (p : Int) : CoreM δ Word := do
  let high ← avrCoreGpwrGet (p + 1)
  let low ← avrCoreGpwrGet p
  return high ++ low

omit [IoDevices δ] in
theorem run_pointerGet
    (low high : Fin 32) (h : high.val = low.val + 1) (c : AvrCore δ) :
  (pointerGet low.val).run c = .ok (c.gpwr high ++ c.gpwr low, c)
  := by
  have hhigh : ((low.val : Int) + 1) = high.val := by omega
  rw [pointerGet, hhigh, Program.run_bind_of_ok (run_avrCoreGpwrGet c high)]
  rw [Program.run_bind_of_ok (run_avrCoreGpwrGet c low)]
  rfl

/-- Write `X & 0xff` to register `p` and `X >> 8` to register `p + 1`. -/
def pointerSet (p : Int) (X : Word) : CoreM δ Unit := do
  avrCoreGpwrSet p (X.extractLsb' 0 8)
  avrCoreGpwrSet (p + 1) (X.extractLsb' 8 8)

/-- Load indirect: `Rd <- (X)` -/
def ldIndirect (name : OpcodeName) (p Rd : Int) : CoreM δ OpRet := do
  let X ← pointerGet p
  let val ← memRead X.toNat
  avrCoreGpwrSet Rd val
  nextInst name 2

/-- Load indirect and pre-decrement: `X <- X - 1, Rd <- (X)` -/
def ldDecr (name : OpcodeName) (p Rd : Int) : CoreM δ OpRet := do
  avrErrorIf (Rd = p ∨ Rd = p + 1) "Results of operation are undefined" []
  let X ← pointerGet p
  let X := X - 1
  pointerSet p X
  let val ← memRead X.toNat
  avrCoreGpwrSet Rd val
  nextInst name 2

/-- Load indirect and post-increment: `Rd <- (X), X <- X + 1` -/
def ldIncr (name : OpcodeName) (p Rd : Int) : CoreM δ OpRet := do
  avrErrorIf (Rd = p ∨ Rd = p + 1) "Results of operation are undefined" []
  let X ← pointerGet p
  let val ← memRead X.toNat
  avrCoreGpwrSet Rd val
  pointerSet p (X + 1)
  nextInst name 2

/-- Load indirect with displacement: `Rd <- (Y + q)` -/
def ldDisp (name : OpcodeName) (p Rd q : Int) : CoreM δ OpRet := do
  let Y ← pointerGet p
  let val ← memRead (Y.toNat + q)
  avrCoreGpwrSet Rd val
  nextInst name 2

/-- Store indirect: `(X) <- Rd` -/
def stIndirect (name : OpcodeName) (p Rd : Int) : CoreM δ OpRet := do
  let X ← pointerGet p
  let rd ← avrCoreGpwrGet Rd
  memWrite X.toNat rd
  nextInst name 2

/-- Store indirect and pre-decrement: `X <- X - 1, (X) <- Rd` -/
def stDecr (name : OpcodeName) (p : Int) (opcode : Word) (Rd : Int) : CoreM δ OpRet := do
  avrErrorIf (Rd = p ∨ Rd = p + 1) "Results of operation are undefined: 0x%04x"
    [opcode.toNat]
  let X ← pointerGet p
  let X := X - 1
  pointerSet p X
  let rd ← avrCoreGpwrGet Rd
  memWrite X.toNat rd
  nextInst name 2

/-- Store indirect and post-increment: `(X) <- Rd, X <- X + 1` -/
def stIncr (name : OpcodeName) (p : Int) (opcode : Word) (Rd : Int) : CoreM δ OpRet := do
  avrErrorIf (Rd = p ∨ Rd = p + 1) "Results of operation are undefined: 0x%04x"
    [opcode.toNat]
  let X ← pointerGet p
  let rd ← avrCoreGpwrGet Rd
  memWrite X.toNat rd
  pointerSet p (X + 1)
  nextInst name 2

/-- Store indirect with displacement: `(Y + q) <- Rd` -/
def stDisp (name : OpcodeName) (p Rd q : Int) : CoreM δ OpRet := do
  let Y ← pointerGet p
  let rd ← avrCoreGpwrGet Rd
  memWrite (Y.toNat + q) rd
  nextInst name 2

/-- `avr_op_LD_X` -/
def avrOpLDX (arg1 : Int) : CoreM δ OpRet :=
  ldIndirect .LD_X 26 arg1

/-- `avr_op_LD_X_decr` -/
def avrOpLDXDecr (arg1 : Int) : CoreM δ OpRet :=
  ldDecr .LD_X_decr 26 arg1

/-- `avr_op_LD_X_incr` -/
def avrOpLDXIncr (arg1 : Int) : CoreM δ OpRet :=
  ldIncr .LD_X_incr 26 arg1

/-- `avr_op_LD_Y_decr` -/
def avrOpLDYDecr (arg1 : Int) : CoreM δ OpRet :=
  ldDecr .LD_Y_decr 28 arg1

/-- `avr_op_LD_Y_incr` -/
def avrOpLDYIncr (arg1 : Int) : CoreM δ OpRet :=
  ldIncr .LD_Y_incr 28 arg1

/-- `avr_op_LD_Z_decr` -/
def avrOpLDZDecr (arg1 : Int) : CoreM δ OpRet :=
  ldDecr .LD_Z_decr 30 arg1

/-- `avr_op_LD_Z_incr` -/
def avrOpLDZIncr (arg1 : Int) : CoreM δ OpRet :=
  ldIncr .LD_Z_incr 30 arg1

/-- `avr_op_LDD_Y` -/
def avrOpLDDY (arg1 arg2 : Int) : CoreM δ OpRet :=
  ldDisp .LDD_Y 28 arg1 arg2

/-- `avr_op_LDD_Z` -/
def avrOpLDDZ (arg1 arg2 : Int) : CoreM δ OpRet :=
  ldDisp .LDD_Z 30 arg1 arg2

/-- `avr_op_ST_X` -/
def avrOpSTX (arg1 : Int) : CoreM δ OpRet :=
  stIndirect .ST_X 26 arg1

/-- `avr_op_ST_X_decr` -/
def avrOpSTXDecr (opcode : Word) (arg1 : Int) : CoreM δ OpRet :=
  stDecr .ST_X_decr 26 opcode arg1

/-- `avr_op_ST_X_incr` -/
def avrOpSTXIncr (opcode : Word) (arg1 : Int) : CoreM δ OpRet :=
  stIncr .ST_X_incr 26 opcode arg1

/-- `avr_op_ST_Y_decr` -/
def avrOpSTYDecr (opcode : Word) (arg1 : Int) : CoreM δ OpRet :=
  stDecr .ST_Y_decr 28 opcode arg1

/-- `avr_op_ST_Y_incr` -/
def avrOpSTYIncr (opcode : Word) (arg1 : Int) : CoreM δ OpRet :=
  stIncr .ST_Y_incr 28 opcode arg1

/-- `avr_op_ST_Z_decr` -/
def avrOpSTZDecr (opcode : Word) (arg1 : Int) : CoreM δ OpRet :=
  stDecr .ST_Z_decr 30 opcode arg1

/-- `avr_op_ST_Z_incr` -/
def avrOpSTZIncr (opcode : Word) (arg1 : Int) : CoreM δ OpRet :=
  stIncr .ST_Z_incr 30 opcode arg1

/-- `avr_op_STD_Y` -/
def avrOpSTDY (arg1 arg2 : Int) : CoreM δ OpRet :=
  stDisp .STD_Y 28 arg1 arg2

/-- `avr_op_STD_Z` -/
def avrOpSTDZ (arg1 arg2 : Int) : CoreM δ OpRet :=
  stDisp .STD_Z 30 arg1 arg2

/-- `flash_read (core->flash, PC + 1)` -/
def flashReadNext : CoreM δ Word := do
  let pc ← avrCorePCGet
  avrCoreFlashRead (pc + 1)

/-- `avr_op_LDS`, whose address is the second word of the instruction -/
def avrOpLDS (arg1 : Int) : CoreM δ OpRet := do
  let Rd := arg1
  let k ← flashReadNext
  let val ← memRead k.toNat
  avrCoreGpwrSet Rd val
  avrCorePCIncr 2
  avrCoreInstCKSSet 2
  return .opcode .LDS

/-- `avr_op_STS` -/
def avrOpSTS (arg1 : Int) : CoreM δ OpRet := do
  let Rd := arg1
  let k ← flashReadNext
  let rd ← avrCoreGpwrGet Rd
  memWrite k.toNat rd
  avrCorePCIncr 2
  avrCoreInstCKSSet 2
  return .opcode .STS

/-! ### I/O registers and the stack -/

/-- `avr_op_CBI` -/
def avrOpCBI (arg1 arg2 : Int) : CoreM δ OpRet := do
  let A := arg1
  let b := arg2.toNat
  let val ← avrCoreIoRead A
  avrCoreIoWrite A (val &&& ~~~(1#8 <<< b))
  nextInst .CBI 2

/-- `avr_op_SBI` -/
def avrOpSBI (arg1 arg2 : Int) : CoreM δ OpRet := do
  let A := arg1
  let b := arg2.toNat
  let val ← avrCoreIoRead A
  avrCoreIoWrite A (val ||| (1#8 <<< b))
  nextInst .SBI 2

/-- `avr_op_IN` -/
def avrOpIN (arg1 arg2 : Int) : CoreM δ OpRet := do
  let Rd := arg1
  let A := arg2
  let val ← avrCoreIoRead A
  avrCoreGpwrSet Rd val
  nextInst .IN 1

/-- `avr_op_OUT` -/
def avrOpOUT (arg1 arg2 : Int) : CoreM δ OpRet := do
  let Rd := arg1
  let A := arg2
  let rd ← avrCoreGpwrGet Rd
  avrCoreIoWrite A rd
  nextInst .OUT 1

/-- `avr_op_POP` -/
def avrOpPOP (arg1 : Int) : CoreM δ OpRet := do
  let val ← avrCoreStackPop 1
  avrCoreGpwrSet arg1 (val.setWidth 8)
  nextInst .POP 2

/-- `avr_op_PUSH` -/
def avrOpPUSH (arg1 : Int) : CoreM δ OpRet := do
  let rd ← avrCoreGpwrGet arg1
  avrCoreStackPush 1 (rd.setWidth 32)
  nextInst .PUSH 2

/-! ### Program memory -/

/-- The byte of a flash word that the low bit of a byte address selects. -/
def selectByte (data : Word) (highByte : Bool) : Byte :=
  if highByte then data.extractLsb' 8 8 else data.extractLsb' 0 8

/-- `((rampz & 0x3f) << 16) + (R31 << 8) + R30` -/
def extendedZ : CoreM δ Nat := do
  let rampz ← avrCoreRampzGet
  let high ← avrCoreGpwrGet 31
  let low ← avrCoreGpwrGet 30
  return (rampz &&& 0x3f).toNat * 2 ^ 16 + high.toNat * 2 ^ 8 + low.toNat

/-- `avr_op_LPM_Z` -/
def avrOpLPMZ (arg1 : Int) : CoreM δ OpRet := do
  let Rd := arg1
  let Z ← pointerGet 30
  let data ← avrCoreFlashRead (Z.toNat / 2 : Nat)
  avrCoreGpwrSet Rd (selectByte data (Z.getLsbD 0))
  nextInst .LPM_Z 3

/-- `avr_op_LPM`: the same as `avr_op_LPM_Z` with Rd = R0. -/
def avrOpLPM : CoreM δ OpRet :=
  avrOpLPMZ 0

/-- `avr_op_LPM_Z_incr` -/
def avrOpLPMZIncr (arg1 : Int) : CoreM δ OpRet := do
  let Rd := arg1
  avrErrorIf (Rd = 30 ∨ Rd = 31) "Results of operation are undefined" []
  let Z ← pointerGet 30
  let data ← avrCoreFlashRead (Z.toNat / 2 : Nat)
  avrCoreGpwrSet Rd (selectByte data (Z.getLsbD 0))
  pointerSet 30 (Z + 1)
  nextInst .LPM_Z_incr 3

/-- `avr_op_ELPM_Z` -/
def avrOpELPMZ (arg1 : Int) : CoreM δ OpRet := do
  let Rd := arg1
  avrErrorIf (Rd = 30 ∨ Rd = 31) "Results of operation are undefined" []
  let Z ← extendedZ
  let data ← avrCoreFlashRead (Z / 2 : Nat)
  avrCoreGpwrSet Rd (selectByte data (Z % 2 = 1))
  nextInst .ELPM_Z 3

/-- `avr_op_ELPM_Z_incr` -/
def avrOpELPMZIncr (arg1 : Int) : CoreM δ OpRet := do
  let Rd := arg1
  avrErrorIf (Rd = 30 ∨ Rd = 31) "Results of operation are undefined" []
  let Z ← extendedZ
  let data ← avrCoreFlashRead (Z / 2 : Nat)
  avrCoreGpwrSet Rd (selectByte data (Z % 2 = 1))
  -- post increment Z
  let Z := Z + 1
  avrCoreGpwrSet 30 (.ofNat 8 Z)
  avrCoreGpwrSet 31 (.ofNat 8 (Z / 2 ^ 8))
  avrCoreRampzSet (.ofNat 8 (Z / 2 ^ 16 % 64))
  nextInst .ELPM_Z_incr 3

/-- `avr_op_ELPM`, which hands its own operand `arg1` to `avr_op_ELPM_Z` -/
def avrOpELPM (arg1 : Int) : CoreM δ OpRet := do
  let _ ← avrOpELPMZ arg1
  return .opcode .ELPM

/-- `avr_op_ESPM` -/
def avrOpESPM (opcode : Word) : CoreM δ OpRet :=
  avrError "This opcode is not implemented yet: 0x%04x" [opcode.toNat]

/-- The loop of a page erase, over the words `addr, addr + 1, …` of which `n` are left. -/
def spmErase (addr : Int) : Nat → CoreM δ Unit
  | 0 => return ()
  | n + 1 => do
    avrCoreFlashWrite addr 0xffff
    spmErase (addr + 1) n

/-- The loop of a page write, over the words `i, i + 1, …` of the page buffer, of which
`n` are left. -/
def spmWritePage (Z i : Int) : Nat → CoreM δ Unit
  | 0 => return ()
  | n + 1 => do
    let f ← avrCoreFlashRead (Z + i)
    let spmhelper ← gets AvrCore.spmhelper
    let lo := f.extractLsb' 0 8 &&& spmhelper.pageBuffer (i * 2)
    let hi := f.extractLsb' 8 8 &&& spmhelper.pageBuffer (i * 2 + 1)
    avrCoreFlashWrite (Z + i) (hi ++ lo)
    spmWritePage Z (i + 1) n

/-- Set the page buffer and clear SPMCSR. -/
def spmDone (pageBuffer : Int → Byte) : CoreM δ Unit :=
  update fun c =>
    { c with spmhelper := { c.spmhelper with pageBuffer := pageBuffer, spmcsr := 0 } }

/-- `spm_run` -/
def spmRun (reg0 reg1 : Byte) (Z : Nat) : CoreM δ Unit := do
  let spmhelper ← gets AvrCore.spmhelper
  let buffer := spmhelper.pageBuffer
  if spmhelper.spmcsr = 0x11 then
    -- reenable RWW
    spmDone (fun i => if 0 ≤ i ∧ i < 256 then 0xff else buffer i)
  else if spmhelper.spmcsr = 0x01 then
    -- write page buffer
    let Z : Int := (Z &&& 0xfe : Nat)
    spmDone (Function.update (Function.update buffer Z reg0) (Z + 1) reg1)
  else if spmhelper.spmcsr = 0x03 then
    -- page erase
    spmErase ((Z >>> 1) &&& 0xff80 : Nat) 128
    spmDone buffer
  else if spmhelper.spmcsr = 0x05 then
    -- page write
    spmWritePage ((Z >>> 1) &&& 0xff80 : Nat) 0 128
    spmDone buffer
  else
    avrError "SPM unknown operation %02x\n" [spmhelper.spmcsr.toNat]

/-- `avr_op_SPM` -/
def avrOpSPM : CoreM δ OpRet := do
  let Z ← extendedZ
  let r0 ← avrCoreGpwrGet 0
  let r1 ← avrCoreGpwrGet 1
  spmRun r0 r1 Z
  nextInst .SPM 2

end

end SimulAvr
