import SimulAvr.Lib.Program
import SimulAvr.Lib.UniqueList
import SimulAvr.Storage

/-!
# The core

The state `AvrCore δ` of the simulated CPU, over a type `δ` of states of the
peripherals, with the methods by which the instruction handlers access it: program
counter, status register, working registers, flash, and clock counters.  A method that
can abort is a program of type `CoreM δ α`.
-/

namespace SimulAvr

/-! ### The parts of a core -/

/-- `IrqCtrlBit` -/
structure IrqCtrlBit where
  /-- Address of the register which controls whether the interrupt is enabled. -/
  addr : Int
  /-- The bit (or bits) in the register to consider. -/
  mask : Byte
  deriving DecidableEq

/-- `IntVect` -/
structure IntVect where
  /-- The name of the interrupt, `none` for a slot the device does not support. -/
  name : Option String
  /-- Where to vector to when the interrupt occurs. -/
  addr : Int
  /-- The sleep modes from which the interrupt wakes the processor. -/
  canWake : BitVec 32
  enable : IrqCtrlBit
  flag : IrqCtrlBit
  deriving DecidableEq

/-- `BreakPt` -/
structure BreakPt where
  pc : Int
  opcode : Word
  deriving DecidableEq

/-- The classes of virtual devices that can be attached to a memory cell.  The class
`io` stands for the peripherals, whose state is in the field `dev` of the core. -/
inductive VDevice where
  | gpwr
  | sreg
  | stackPointer
  | rampz
  | sram
  | spm
  | io
  deriving DecidableEq

/-- `MemoryCell` -/
structure MemoryCell where
  vdev : Option VDevice
  rdMask : Byte
  wrMask : Byte
  deriving DecidableEq

/-- `Memory` -/
structure Memory where
  /-- Usually 0x1f. -/
  gpwrEnd : Int
  /-- Usually 0x5f or 0xff. -/
  ioRegEnd : Int
  /-- The last address of the array of cells. -/
  xramEnd : Int
  cell : Int → MemoryCell

/-- `StackPointer` -/
structure StackPointer where
  splAddr : Int
  /-- Low byte of stack pointer -/
  spl : Byte
  /-- High byte of stack pointer -/
  sph : Byte

/-- `Stack`: a hardware stack of a fixed depth, or a stack in data memory. -/
inductive Stack where
  | hw (depth : Nat) (stack : Nat → BitVec 32)
  | mem

/-- `SPMhelper`, with the address `SPMdata.addr` of its register -/
structure SPMhelper where
  addr : Int
  pageBuffer : Int → Byte
  spmcsr : Byte

/-- `AvrCore` -/
structure AvrCore (δ : Type) where
  /-- What state is the device in -/
  state : StateType
  /-- If in sleep state, what mode (one bit set)? -/
  sleepMode : BitVec 32
  /-- Program Counter -/
  pc : Int
  /-- size of Program Counter in bytes -/
  pcSize : Int
  /-- flash size in words -/
  pcMax : Int
  /-- Status Register -/
  sreg : Byte
  /-- General Purpose Working Registers -/
  gpwr : Fin 32 → Byte
  /-- flash program memory -/
  flash : Flash
  /-- internal sram memory -/
  sram : Storage
  /-- memory space -/
  mem : Memory
  sp : StackPointer
  stack : Stack
  spmhelper : SPMhelper
  /-- list of active breakpoints -/
  breakpoints : UniqueList BreakPt.pc
  /-- list of pending interrupts -/
  irqPending : UniqueList IntVect.addr
  /-- interrupt vector table array -/
  irqVtable : Nat → IntVect
  irqOffset : Int
  /-- number of clock cycles that have occurred -/
  ck : Nat
  /-- number of clocks the previously executed instruction took -/
  instCKS : Int
  /-- whether `core->rampz` is not `NULL` -/
  hasRampz : Bool
  rampz : Byte
  eind : Byte
  /-- the messages sent to the display, oldest first -/
  display : List DisplayMsg
  /-- the peripherals -/
  dev : δ

/-- A program of the core. -/
abbrev CoreM (δ α : Type) : Type :=
  Program (AvrCore δ) AvrError α

/-- `avr_error` -/
def avrError {δ α : Type} (fmt : String) (args : List Int) : CoreM δ α :=
  throw (.message fmt args)

/-- `if (c) avr_error (fmt, args)` -/
def avrErrorIf {δ : Type} (c : Prop) [Decidable c] (fmt : String) (args : List Int) :
    CoreM δ Unit :=
  if c then avrError fmt args else pure ()

/-- Run a program that only may abort. -/
def liftExcept {δ α : Type} (x : Except AvrError α) : CoreM δ α :=
  fun c => x.map (fun a => (a, c))

/-- The part of a core that an access method reads. -/
def gets {δ α : Type} (f : AvrCore δ → α) : CoreM δ α :=
  fun c => .ok (f c, c)

/-- An access method that changes the core and cannot abort. -/
def update {δ : Type} (f : AvrCore δ → AvrCore δ) : CoreM δ Unit :=
  modify f

section Runs

variable {δ α : Type}

@[simp]
theorem run_avrError
    (fmt : String) (args : List Int) (c : AvrCore δ) :
  (avrError fmt args : CoreM δ α).run c = .error (.message fmt args)
  := rfl

@[simp]
theorem run_gets
    (f : AvrCore δ → α) (c : AvrCore δ) :
  (gets f).run c = .ok (f c, c)
  := rfl

@[simp]
theorem run_update
    (f : AvrCore δ → AvrCore δ) (c : AvrCore δ) :
  (update f).run c = .ok ((), f c)
  := rfl

theorem run_liftExcept_ok
    {x : Except AvrError α} {a : α} (h : x = .ok a) (c : AvrCore δ) :
  (liftExcept x).run c = .ok (a, c)
  := by
  rw [h]
  rfl

theorem run_liftExcept_error
    {x : Except AvrError α} {e : AvrError} (h : x = .error e) (c : AvrCore δ) :
  (liftExcept x : CoreM δ α).run c = .error e
  := by
  rw [h]
  rfl

theorem run_avrErrorIf_neg
    {p : Prop} [Decidable p] (h : ¬ p) (fmt : String) (args : List Int) (c : AvrCore δ) :
  (avrErrorIf p fmt args).run c = .ok ((), c)
  := by
  rw [avrErrorIf, if_neg h]
  rfl

theorem run_avrErrorIf_pos
    {p : Prop} [Decidable p] (h : p) (fmt : String) (args : List Int) (c : AvrCore δ) :
  (avrErrorIf p fmt args).run c = .error (.message fmt args)
  := by
  rw [avrErrorIf, if_pos h]
  rfl

end Runs

section Respects

variable {δ α : Type} {R : AvrCore δ → AvrCore δ → Prop}

/-- A program that only may abort does the same in both cores. -/
theorem liftExcept_respects
    (x : Except AvrError α) :
  Program.Respects R (liftExcept x : CoreM δ α)
  := by
  intro c d h
  cases x with
  | error e => exact rfl
  | ok a => exact ⟨rfl, h⟩

theorem avrErrorIf_respects
    (p : Prop) [Decidable p] (fmt : String) (args : List Int) :
  Program.Respects R (avrErrorIf p fmt args : CoreM δ Unit)
  := by
  apply Program.Respects.ite
  · intro _ c d _
    rfl
  · intro _
    apply Program.Respects.pure

/-- A part that is the same in both cores. -/
theorem gets_respects
    {f : AvrCore δ → α} (hf : ∀ c d, R c d → f c = f d) :
  Program.Respects R (gets f)
  := by
  intro c d h
  exact ⟨hf c d h, h⟩

theorem update_respects
    {f : AvrCore δ → AvrCore δ} (hf : ∀ c d, R c d → R (f c) (f d)) :
  Program.Respects R (update f)
  := by
  intro c d h
  exact ⟨rfl, hf c d h⟩

end Respects

namespace AvrCore

variable {δ : Type}

/-- Send a message to the display. -/
def displaySend (c : AvrCore δ) (msg : DisplayMsg) : AvrCore δ :=
  { c with display := c.display ++ [msg] }

/-- `_adjust_PC_to_max`: a counter below zero is moved up by `PC_max`, and then one
that is not below `PC_max` is moved down by it. -/
def adjustPCToMax (pcMax pc : Int) : Int :=
  let pc := if pc < 0 then pcMax + pc else pc
  if pc ≥ pcMax then pc - pcMax else pc

/-- `avr_core_PC_set` -/
def pcSet (c : AvrCore δ) (val : Int) : AvrCore δ :=
  let pc := adjustPCToMax c.pcMax val
  { c with pc := pc }.displaySend (.pc pc)

/-- `avr_core_PC_incr` -/
def pcIncr (c : AvrCore δ) (val : Int) : AvrCore δ :=
  let pc := adjustPCToMax c.pcMax (c.pc + val)
  { c with pc := pc }.displaySend (.pc pc)

/-- `sreg_set` -/
def sregSet (c : AvrCore δ) (val : Byte) : AvrCore δ :=
  { c with sreg := val }.displaySend (.ioReg sregIoReg val)

/-- `sreg_get_bit` -/
def sregGetBit (c : AvrCore δ) (bit : Nat) : Bool :=
  c.sreg.getLsbD bit

/-- `sreg_set_bit` -/
def sregSetBit (c : AvrCore δ) (bit : Nat) (val : Bool) : AvrCore δ :=
  c.sregSet (setBitInByte c.sreg bit val)

/-- `gpwr_set` at a register of the file -/
def gpwrSet (c : AvrCore δ) (reg : Fin 32) (val : Byte) : AvrCore δ :=
  { c with gpwr := Function.update c.gpwr reg val }.displaySend (.reg reg.val val)

/-- `avr_core_rampz_get` -/
def rampzGet (c : AvrCore δ) : Byte :=
  if c.hasRampz then c.rampz else 0

/-- `avr_core_rampz_set` -/
def rampzSet (c : AvrCore δ) (val : Byte) : AvrCore δ :=
  if c.hasRampz then { c with rampz := val } else c

/-- `sp_get` -/
def spGet (c : AvrCore δ) : Word :=
  c.sp.sph ++ c.sp.spl

/-- `sp_set` -/
def spSet (c : AvrCore δ) (val : Word) : AvrCore δ :=
  let spl := val.extractLsb' 0 8
  let sph := val.extractLsb' 8 8
  ({ c with sp := { c.sp with spl := spl, sph := sph } }.displaySend
    (.ioReg splIoReg spl)).displaySend (.ioReg sphIoReg sph)

end AvrCore

section Methods

variable {δ : Type}

/-- `avr_core_PC_get` -/
def avrCorePCGet : CoreM δ Int :=
  gets AvrCore.pc

/-- `avr_core_PC_size` -/
def avrCorePCSize : CoreM δ Int :=
  gets AvrCore.pcSize

/-- `avr_core_PC_set` -/
def avrCorePCSet (val : Int) : CoreM δ Unit :=
  update (fun c => c.pcSet val)

/-- `avr_core_PC_incr` -/
def avrCorePCIncr (val : Int) : CoreM δ Unit :=
  update (fun c => c.pcIncr val)

/-- `avr_core_inst_CKS_set` -/
def avrCoreInstCKSSet (val : Int) : CoreM δ Unit :=
  update (fun c => { c with instCKS := val })

/-- `avr_core_sreg_get` -/
def avrCoreSregGet : CoreM δ Byte :=
  gets AvrCore.sreg

/-- `avr_core_sreg_set` -/
def avrCoreSregSet (v : Byte) : CoreM δ Unit :=
  update (fun c => c.sregSet v)

/-- `avr_core_sreg_get_bit` -/
def avrCoreSregGetBit (b : Nat) : CoreM δ Bool :=
  gets (fun c => c.sregGetBit b)

/-- `avr_core_sreg_set_bit` -/
def avrCoreSregSetBit (b : Nat) (v : Bool) : CoreM δ Unit :=
  update (fun c => c.sregSetBit b v)

/-- `avr_core_rampz_get` -/
def avrCoreRampzGet : CoreM δ Byte :=
  gets AvrCore.rampzGet

/-- `avr_core_rampz_set` -/
def avrCoreRampzSet (v : Byte) : CoreM δ Unit :=
  update (fun c => c.rampzSet v)

/-- `avr_core_gpwr_get`, where `reg` indexes an array of 32 bytes unchecked -/
def avrCoreGpwrGet (reg : Int) : CoreM δ Byte :=
  fun c =>
    if h : 0 ≤ reg ∧ reg < 32 then .ok (c.gpwr ⟨reg.toNat, by omega⟩, c)
    else .error (.registerOutOfBounds reg)

/-- `avr_core_gpwr_set` -/
def avrCoreGpwrSet (reg : Int) (val : Byte) : CoreM δ Unit :=
  fun c =>
    if h : 0 ≤ reg ∧ reg < 32 then .ok ((), c.gpwrSet ⟨reg.toNat, by omega⟩ val)
    else .error (.registerOutOfBounds reg)

/-- `avr_core_flash_read` -/
def avrCoreFlashRead (addr : Int) : CoreM δ Word :=
  fun c => (flashRead c.flash addr).map (fun w => (w, c))

/-- `flash_write` -/
def avrCoreFlashWrite (addr : Int) (val : Word) : CoreM δ Unit :=
  fun c => (storageWritew c.flash (addr * 2) val).map
    (fun flash => ((), { c with flash := flash }.displaySend (.flash addr [val])))

end Methods

/-! ### Runs of the access methods -/

section Runs

variable {δ : Type} (c : AvrCore δ)

@[simp]
theorem run_avrCorePCGet :
  avrCorePCGet.run c = .ok (c.pc, c)
  := rfl

@[simp]
theorem run_avrCorePCSize :
  avrCorePCSize.run c = .ok (c.pcSize, c)
  := rfl

@[simp]
theorem run_avrCorePCSet
    (val : Int) :
  (avrCorePCSet val).run c = .ok ((), c.pcSet val)
  := rfl

@[simp]
theorem run_avrCorePCIncr
    (val : Int) :
  (avrCorePCIncr val).run c = .ok ((), c.pcIncr val)
  := rfl

@[simp]
theorem run_avrCoreInstCKSSet
    (val : Int) :
  (avrCoreInstCKSSet val).run c = .ok ((), { c with instCKS := val })
  := rfl

@[simp]
theorem run_avrCoreSregGet :
  avrCoreSregGet.run c = .ok (c.sreg, c)
  := rfl

@[simp]
theorem run_avrCoreSregSet
    (v : Byte) :
  (avrCoreSregSet v).run c = .ok ((), c.sregSet v)
  := rfl

@[simp]
theorem run_avrCoreSregGetBit
    (b : Nat) :
  (avrCoreSregGetBit b).run c = .ok (c.sregGetBit b, c)
  := rfl

@[simp]
theorem run_avrCoreSregSetBit
    (b : Nat) (v : Bool) :
  (avrCoreSregSetBit b v).run c = .ok ((), c.sregSetBit b v)
  := rfl

@[simp]
theorem run_avrCoreGpwrGet
    (r : Fin 32) :
  (avrCoreGpwrGet (r.val : Int)).run c = .ok (c.gpwr r, c)
  := by
  have h : 0 ≤ (r.val : Int) ∧ (r.val : Int) < 32 := by omega
  change dite _ _ _ = _
  rw [dif_pos h]
  simp

@[simp]
theorem run_avrCoreGpwrSet
    (r : Fin 32) (val : Byte) :
  (avrCoreGpwrSet (r.val : Int) val).run c = .ok ((), c.gpwrSet r val)
  := by
  have h : 0 ≤ (r.val : Int) ∧ (r.val : Int) < 32 := by omega
  change dite _ _ _ = _
  rw [dif_pos h]
  simp

theorem run_avrCoreFlashRead
    (addr : Int) :
  (avrCoreFlashRead addr).run c = (flashRead c.flash addr).map (fun w => (w, c))
  := rfl

theorem run_avrCoreFlashWrite
    (addr : Int) (val : Word) :
  (avrCoreFlashWrite addr val).run c = (storageWritew c.flash (addr * 2) val).map
    (fun flash => ((), { c with flash := flash }.displaySend (.flash addr [val])))
  := rfl

/-- A register number of the file, as an element of `Fin 32`. -/
theorem exists_fin_of_mem
    {reg : Int} (h : 0 ≤ reg ∧ reg < 32) :
  ∃ r : Fin 32, (r.val : Int) = reg
  := by
  use ⟨reg.toNat, by omega⟩
  simp
  omega

end Runs

end SimulAvr
