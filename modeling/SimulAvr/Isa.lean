import SimulAvr.Alu.Reference
import SimulAvr.Decoder.Programs
import SimulAvr.GdbRegisters
import SimulAvr.Lib.ProgramLogic
import SimulAvr.StackMemory

/-!
# The programmer's view of a device

What a program sees of a device with a program counter of two bytes and no interrupts: the
registers, the program counter, the stack pointer, the bytes of the SRAM, and the clocks that pass.
An instruction has an effect on the view, or none where a program has no business: a program
counter outside of the flash, data outside of the SRAM, or an I/O register other than the two of
the stack pointer.
-/

namespace SimulAvr

/-- The instruction of a program at an address -/
def instrAt : List Instr → Nat → Option Instr
  | [], _ => none
  | i :: prog, addr =>
    if addr = 0 then
      some i
    else if addr < i.encode.length then
      none
    else
      instrAt prog (addr - i.encode.length)

/-- A device with a program counter of two bytes, and with the registers of the stack pointer where
`gdb` expects them -/
structure Layout.Plain (l : Layout) : Prop where
  pcSize : l.pcSize = 2
  splAddr : l.splAddr = splAddrGdb
  xramEnd : sphAddrGdb ≤ l.mem.xramEnd
  spl : l.mem.cell splAddrGdb = spCell
  sph : l.mem.cell sphAddrGdb = spCell

/-- The view of a device -/
@[ext]
structure Cpu where
  pc : Nat
  gpwr : Fin 32 → Byte
  sreg : Byte
  sp : Word
  sram : Word → Byte
  clocks : Nat

namespace Cpu

section

variable (l : Layout) (m : Cpu)

/-! ### Accesses -/

/-- A core with the registers of the view -/
def registers : AvrCore Unit :=
  { AvrCore.construct defnAt90s8515 () with gpwr := m.gpwr, sreg := m.sreg }

/-- The program counter moves to an address of the flash, and `n` clocks pass. -/
def goto (target : Int) (n : Nat) : Option Cpu :=
  if 0 ≤ target ∧ target < l.pcMax then
    some { m with pc := target.toNat, clocks := m.clocks + n }
  else
    none

/-- The program counter moves to the next word. -/
def next (n : Nat) : Option Cpu :=
  m.goto l (m.pc + 1) n

/-- The register with a number -/
def reg (r : Int) : Byte :=
  m.gpwr (.ofNat 32 r.toNat)

def setReg (r : Int) (val : Byte) : Cpu :=
  { m with gpwr := Function.update m.gpwr (.ofNat 32 r.toNat) val }

/-- The pointer in the registers `p + 1` and `p` -/
def pointer (p : Fin 32) : Word :=
  m.gpwr (p + 1) ++ m.gpwr p

def setPointer (p : Fin 32) (X : Word) : Cpu :=
  let gpwr := Function.update m.gpwr p (X.extractLsb' 0 8)
  { m with gpwr := Function.update gpwr (p + 1) (X.extractLsb' 8 8) }

def load (a : Word) : Option Byte :=
  if l.IsSram a then some (m.sram a) else none

def store (a : Word) (val : Byte) : Option Cpu :=
  if l.IsSram a then some { m with sram := Function.update m.sram a val } else none

/-- A byte onto the stack -/
def push (val : Byte) : Option Cpu := do
  let m₁ ← m.store l m.sp val
  return { m₁ with sp := m.sp - 1 }

/-- A word onto the stack, with the low byte at the higher address -/
def pushWord (val : Word) : Option Cpu := do
  let m₁ ← m.store l m.sp (val.extractLsb' 0 8)
  let m₂ ← m₁.store l (m.sp - 1) (val.extractLsb' 8 8)
  return { m₂ with sp := m.sp - 2 }

/-- A byte from the stack -/
def pop : Option (Byte × Cpu) := do
  let val ← m.load l (m.sp + 1)
  return (val, { m with sp := m.sp + 1 })

/-- A word from the stack -/
def popWord : Option (Word × Cpu) := do
  let high ← m.load l (m.sp + 1)
  let low ← m.load l (m.sp + 2)
  return (high ++ low, { m with sp := m.sp + 2 })

/-! ### Instructions -/

/-- The effect of an arithmetic or logic instruction -/
def alu (func : OpcodeName) (arg1 arg2 : Int) : Option Cpu :=
  let effect := aluReference func arg1 arg2 m.registers
  { m with gpwr := effect.gpwr m.gpwr, sreg := effect.flags.apply m.sreg }.next l
    effect.clocks.toNat

/-- A branch if a bit of SREG has a value -/
def branch (bit k : Int) (val : Bool) : Option Cpu :=
  if m.sreg.getLsbD bit.toNat = val then
    m.goto l (m.pc + k + 1) 2
  else
    m.next l 1

/-- The I/O registers of the stack pointer -/
def out (A : Int) (val : Byte) : Option Cpu :=
  if A = 0x3d then
    some { m with sp := m.sp.extractLsb' 8 8 ++ val }
  else if A = 0x3e then
    some { m with sp := val ++ m.sp.extractLsb' 0 8 }
  else
    none

def input (A : Int) : Option Byte :=
  if A = 0x3d then
    some (m.sp.extractLsb' 0 8)
  else if A = 0x3e then
    some (m.sp.extractLsb' 8 8)
  else
    none

/-- A load with a pointer and a displacement -/
def loadIndirect (p : Fin 32) (r q : Int) : Option Cpu := do
  guard ((m.pointer p).toNat + q < 2 ^ 16)
  let val ← m.load l (m.pointer p + .ofInt 16 q)
  (m.setReg r val).next l 2

/-- A load with a pointer that is incremented after it, which is none of the registers of the
pointer -/
def loadIncr (p : Fin 32) (r : Int) : Option Cpu := do
  guard (r ≠ p.val ∧ r ≠ p.val + 1)
  let val ← m.load l (m.pointer p)
  ((m.setReg r val).setPointer p (m.pointer p + 1)).next l 2

/-- A load with a pointer that is decremented before it -/
def loadDecr (p : Fin 32) (r : Int) : Option Cpu := do
  guard (r ≠ p.val ∧ r ≠ p.val + 1)
  let val ← m.load l (m.pointer p - 1)
  ((m.setPointer p (m.pointer p - 1)).setReg r val).next l 2

/-- A store with a pointer and a displacement -/
def storeIndirect (p : Fin 32) (r q : Int) : Option Cpu := do
  guard ((m.pointer p).toNat + q < 2 ^ 16)
  let m' ← m.store l (m.pointer p + .ofInt 16 q) (m.reg r)
  m'.next l 2

/-- A store with a pointer that is incremented after it -/
def storeIncr (p : Fin 32) (r : Int) : Option Cpu := do
  guard (r ≠ p.val ∧ r ≠ p.val + 1)
  let m' ← m.store l (m.pointer p) (m.reg r)
  (m'.setPointer p (m.pointer p + 1)).next l 2

/-- A store with a pointer that is decremented before it -/
def storeDecr (p : Fin 32) (r : Int) : Option Cpu := do
  guard (r ≠ p.val ∧ r ≠ p.val + 1)
  let m₁ := m.setPointer p (m.pointer p - 1)
  let m' ← m₁.store l (m.pointer p - 1) (m₁.reg r)
  m'.next l 2

/-- A skip of the next instruction, which has one word or two -/
def skip (next : Option Instr) (cond : Bool) : Option Cpu := do
  let words := (← next).encode.length
  if cond then
    m.goto l (m.pc + 1 + words) (1 + words)
  else
    m.next l 1

/-- A load of a byte of the program -/
def lpm (code : List Word) (r : Int) : Option Cpu := do
  let data ← code[(m.pointer 30).toNat / 2]?
  (m.setReg r (selectByte data ((m.pointer 30).getLsbD 0))).next l 3

/-- The effect of an instruction of a program, of which `arg1` and `arg2` are the operands and
`second` is the second word -/
def exec (prog : List Instr) (func : OpcodeName) (arg1 arg2 : Int) (second : Option Word) :
    Option Cpu :=
  if func ∈ aluOpcodes then
    m.alu l func arg1 arg2
  else
    match func with
    | .NOP => m.next l 1
    | .RJMP => m.goto l (m.pc + arg1 + 1) 2
    | .IJMP => m.goto l (m.pointer 30).toNat 2
    | .JMP => do m.goto l (arg1 * 2 ^ 16 + (← second).toNat) 3
    | .BRBC => m.branch l arg1 arg2 false
    | .BRBS => m.branch l arg1 arg2 true
    | .CPSE => m.skip l (instrAt prog (m.pc + 1)) (m.reg arg1 = m.reg arg2)
    | .SBRC => m.skip l (instrAt prog (m.pc + 1)) ((m.reg arg1).getLsbD arg2.toNat = false)
    | .SBRS => m.skip l (instrAt prog (m.pc + 1)) ((m.reg arg1).getLsbD arg2.toNat = true)
    | .RCALL => do
      let m' ← m.pushWord l (.ofNat 16 (m.pc + 1))
      m'.goto l (m'.pc + arg1 + 1) 3
    | .ICALL => do
      let m' ← m.pushWord l (.ofNat 16 (m.pc + 1))
      m'.goto l (m.pointer 30).toNat 3
    | .CALL => do
      guard (arg1 = 0)
      let m' ← m.pushWord l (.ofNat 16 (m.pc + 2))
      m'.goto l (← second).toNat 4
    | .RET => do
      let (target, m') ← m.popWord l
      m'.goto l target.toNat 4
    | .PUSH => do
      let m' ← m.push l (m.reg arg1)
      m'.next l 2
    | .POP => do
      let (val, m') ← m.pop l
      (m'.setReg arg1 val).next l 2
    | .OUT => do
      let m' ← m.out arg2 (m.reg arg1)
      m'.next l 1
    | .IN => do
      let val ← m.input arg2
      (m.setReg arg1 val).next l 1
    | .LDS => do
      let val ← m.load l (← second)
      (m.setReg arg1 val).goto l (m.pc + 2) 2
    | .STS => do
      let m' ← m.store l (← second) (m.reg arg1)
      m'.goto l (m'.pc + 2) 2
    | .LPM => m.lpm l (encodeProgram prog) 0
    | .LPM_Z => m.lpm l (encodeProgram prog) arg1
    | .LD_X => m.loadIndirect l 26 arg1 0
    | .LDD_Y => m.loadIndirect l 28 arg1 arg2
    | .LDD_Z => m.loadIndirect l 30 arg1 arg2
    | .LD_X_incr => m.loadIncr l 26 arg1
    | .LD_Y_incr => m.loadIncr l 28 arg1
    | .LD_Z_incr => m.loadIncr l 30 arg1
    | .LD_X_decr => m.loadDecr l 26 arg1
    | .LD_Y_decr => m.loadDecr l 28 arg1
    | .LD_Z_decr => m.loadDecr l 30 arg1
    | .ST_X => m.storeIndirect l 26 arg1 0
    | .STD_Y => m.storeIndirect l 28 arg1 arg2
    | .STD_Z => m.storeIndirect l 30 arg1 arg2
    | .ST_X_incr => m.storeIncr l 26 arg1
    | .ST_Y_incr => m.storeIncr l 28 arg1
    | .ST_Z_incr => m.storeIncr l 30 arg1
    | .ST_X_decr => m.storeDecr l 26 arg1
    | .ST_Y_decr => m.storeDecr l 28 arg1
    | .ST_Z_decr => m.storeDecr l 30 arg1
    | _ => none

end

end Cpu

/-- A step of the program from address 0 on -/
def Cpu.step (l : Layout) (prog : List Instr) (m : Cpu) : Option Cpu := do
  let i ← instrAt prog m.pc
  m.exec l prog i.func i.operands.arg1 i.operands.arg2 i.operands.second

end SimulAvr
