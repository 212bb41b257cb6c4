import SimulAvr.Core

/-!
# Data memory

The data space as an array of cells, each with the virtual device attached to it: the
working registers, SREG, the stack pointer, RAMPZ, the internal SRAM, SPMCSR, and the
peripherals behind the interface `IoDevices`.
-/

namespace SimulAvr

/-- What a callback of a peripheral does to the core. -/
inductive DevEvent where
  /-- `avr_core_irq_raise (core, irq)` -/
  | irqRaise (irq : Nat)

/-- The arguments of a call of `avr_error` by a peripheral. -/
structure DevError where
  fmt : String
  args : List Int

/-- The peripherals of a device: the `vdev_read`, `vdev_write` and `vdev_reset` methods of
those attached to the data space, by address, the access of the debugger to the EEPROM, and
the passes over the lists of clock and asynchronous callbacks, which they install and which
act on the core by events. -/
class IoDevices (δ : Type) where
  read : Int → δ → Except DevError (Byte × δ)
  write : Int → Byte → δ → Except DevError δ
  reset : Int → δ → δ
  /-- `gdb_ee_read` -/
  gdbEeRead : Int → δ → Byte
  /-- `gdb_ee_write` -/
  gdbEeWrite : Int → Byte → δ → δ
  /-- `callback_list_execute_all (core->clk_cb, CK)` -/
  clkCbExec : Nat → δ → Except DevError (δ × List DevEvent)
  /-- `callback_list_execute_all (core->async_cb, get_program_time ())` -/
  asyncCbExec : δ → Except DevError (δ × List DevEvent)

/-- Run a method of a peripheral. -/
def liftDev {δ α : Type} (x : Except DevError α) : CoreM δ α :=
  liftExcept (x.mapError fun e => .message e.fmt e.args)

section

variable {δ : Type} [IoDevices δ]

/-- `sp_read` -/
def spRead (addr : Int) : CoreM δ Byte := do
  let sp ← gets AvrCore.sp
  if addr = sp.splAddr then
    return sp.spl
  else if addr = sp.splAddr + 1 then
    return sp.sph
  else
    avrError "Bad address: 0x%04x" [addr]

/-- `sp_write` -/
def spWrite (addr : Int) (val : Byte) : CoreM δ Unit := do
  let sp ← gets AvrCore.sp
  if addr = sp.splAddr then
    update (fun c => { c with sp := { sp with spl := val } })
  else if addr = sp.splAddr + 1 then
    update (fun c => { c with sp := { sp with sph := val } })
  else
    avrError "Bad address: 0x%04x" [addr]

/-- `sram_read` -/
def sramRead (addr : Int) : CoreM δ Byte := do
  let stor ← gets AvrCore.sram
  liftExcept (storageReadb stor addr)

/-- `sram_write` -/
def sramWrite (addr : Int) (val : Byte) : CoreM δ Unit := do
  update (fun c => c.displaySend (.sram addr [val]))
  let stor ← gets AvrCore.sram
  let stor ← liftExcept (storageWriteb stor addr val)
  update (fun c => { c with sram := stor })

/-- `spm_read` -/
def spmRead (addr : Int) : CoreM δ Byte := do
  let spm ← gets AvrCore.spmhelper
  if addr = spm.addr then
    return spm.spmcsr
  else
    avrError "Bad address: 0x%04x" [addr]

/-- `spm_write` -/
def spmWrite (addr : Int) (val : Byte) : CoreM δ Unit := do
  let spm ← gets AvrCore.spmhelper
  avrErrorIf (val &&& 0x80 ≠ 0) "SPMCSR does not support SPMIE bit 0x%02x" [val.toNat]
  avrErrorIf (val &&& 0x20 ≠ 0) "SPMCSR not used bit 0x%02x" [val.toNat]
  avrErrorIf (val &&& 0x08 ≠ 0) "SPMCSR not support BLBSET bit 0x%02x" [val.toNat]
  avrErrorIf (val ∉ [0x01#8, 0x11#8, 0x09#8, 0x05#8, 0x03#8])
    "SPMCSR operation without any effect\n" []
  avrErrorIf (addr ≠ spm.addr) "Bad address: 0x%04x" [addr]
  update (fun c => { c with spmhelper := { spm with spmcsr := val } })

/-- `vdev_read` of a peripheral -/
def ioRead (addr : Int) : CoreM δ Byte := do
  let dev ← gets AvrCore.dev
  let (val, dev) ← liftDev (IoDevices.read addr dev)
  update (fun c => { c with dev := dev })
  return val

/-- `vdev_write` of a peripheral -/
def ioWrite (addr : Int) (val : Byte) : CoreM δ Unit := do
  let dev ← gets AvrCore.dev
  let dev ← liftDev (IoDevices.write addr val dev)
  update (fun c => { c with dev := dev })

/-- `vdev_read` -/
def vdevRead : VDevice → Int → CoreM δ Byte
  | .gpwr, addr => avrCoreGpwrGet addr
  | .sreg, _ => avrCoreSregGet
  | .stackPointer, addr => spRead addr
  | .rampz, _ => gets AvrCore.rampz
  | .sram, addr => sramRead addr
  | .spm, addr => spmRead addr
  | .io, addr => ioRead addr

/-- `vdev_write` -/
def vdevWrite : VDevice → Int → Byte → CoreM δ Unit
  | .gpwr, addr, val => avrCoreGpwrSet addr val
  | .sreg, _, val => avrCoreSregSet val
  | .stackPointer, addr, val => spWrite addr val
  | .rampz, _, val => update (fun c => { c with rampz := val })
  | .sram, addr, val => sramWrite addr val
  | .spm, addr, val => spmWrite addr val
  | .io, addr, val => ioWrite addr val

/-- `vdev_reset` of the device attached at `addr` -/
def AvrCore.vdevReset (c : AvrCore δ) (addr : Int) : VDevice → AvrCore δ
  | .gpwr => (List.finRange 32).foldl (fun c i => c.gpwrSet i 0) c
  | .sreg => { c.displaySend (.ioReg sregIoReg 0) with sreg := 0 }
  | .stackPointer =>
    ({ c with sp := { c.sp with spl := 0, sph := 0 } }.displaySend
      (.ioReg splIoReg 0)).displaySend (.ioReg sphIoReg 0)
  | .rampz => { c.displaySend (.ioReg rampzIoReg 0) with rampz := 0 }
  | .sram => c
  | .spm => c
  | .io => { c with dev := IoDevices.reset addr c.dev }

/-- `mem_get_cell` -/
def memGetCell (addr : Int) : CoreM δ MemoryCell :=
  fun c =>
    if 0 ≤ addr ∧ addr ≤ c.mem.xramEnd then .ok (c.mem.cell addr, c)
    else .error (.cellOutOfBounds addr)

/-- `mem_is_io_reg` -/
def memIsIoReg (mem : Memory) (addr : Int) : Prop :=
  addr > mem.gpwrEnd ∧ addr ≤ mem.ioRegEnd

instance (mem : Memory) (addr : Int) : Decidable (memIsIoReg mem addr) :=
  inferInstanceAs (Decidable (_ ∧ _))

/-- `mem_read` -/
def memRead (addr : Int) : CoreM δ Byte := do
  let cell ← memGetCell addr
  match cell.vdev with
  | none => return 0
  | some vdev =>
    let val ← vdevRead vdev addr
    return val &&& cell.rdMask

/-- `mem_write` -/
def memWrite (addr : Int) (val : Byte) : CoreM δ Unit := do
  let cell ← memGetCell addr
  match cell.vdev with
  | none => return ()
  | some vdev =>
    update (fun c =>
      if memIsIoReg c.mem addr then
        c.displaySend (.ioReg (addr - (c.mem.gpwrEnd + 1)) (val &&& cell.wrMask))
      else c)
    vdevWrite vdev addr (val &&& cell.wrMask)

/-- The loop of `mem_reset`, over the cells `i, i + 1, …` of which `n` are left. -/
def AvrCore.memResetFrom (c : AvrCore δ) : Nat → Nat → AvrCore δ
  | _, 0 => c
  | i, n + 1 =>
    match (c.mem.cell i).vdev with
    | none => c.memResetFrom (i + 1) n
    | some vdev => (c.vdevReset i vdev).memResetFrom (i + 1) n

/-- `mem_reset` -/
def AvrCore.memReset (c : AvrCore δ) : AvrCore δ :=
  c.memResetFrom 0 c.mem.xramEnd.toNat

/-- `avr_core_io_read` -/
def avrCoreIoRead (reg : Int) : CoreM δ Byte :=
  memRead (reg + ioRegAddrBegin)

/-- `avr_core_io_write` -/
def avrCoreIoWrite (reg : Int) (val : Byte) : CoreM δ Unit :=
  memWrite (reg + ioRegAddrBegin) val

/-! ### Runs of the accesses to data memory -/

variable (c : AvrCore δ) (addr : Int)

omit [IoDevices δ] in
theorem run_memGetCell
    (h : 0 ≤ addr ∧ addr ≤ c.mem.xramEnd) :
  (memGetCell addr).run c = .ok (c.mem.cell addr, c)
  := if_pos h

omit [IoDevices δ] in
theorem run_memGetCell_error
    (h : ¬ (0 ≤ addr ∧ addr ≤ c.mem.xramEnd)) :
  (memGetCell addr).run c = .error (.cellOutOfBounds addr)
  := if_neg h

omit [IoDevices δ] in
theorem run_sramRead :
  (sramRead addr).run c = (storageReadb c.sram addr).map (fun val => (val, c))
  := by
  simp only [sramRead, StateT.run_bind, run_gets, Program.ok_bind]
  cases storageReadb c.sram addr <;> rfl

omit [IoDevices δ] in
theorem run_sramWrite
    (val : Byte) :
  (sramWrite addr val).run c = (storageWriteb c.sram addr val).map
    (fun stor => ((), { c.displaySend (.sram addr [val]) with sram := stor }))
  := by
  simp only [sramWrite, StateT.run_bind, run_gets, run_update, Program.ok_bind]
  rw [show (c.displaySend (.sram addr [val])).sram = c.sram from rfl]
  cases storageWriteb c.sram addr val <;> rfl

end

end SimulAvr
