import SimulAvr.Memory

/-!
# Devices

The definitions of the supported devices, as far as the core depends on them, and the
core that `avr_core_construct` makes of a definition.
-/

namespace SimulAvr

/-- `struct io_reg_defn`, for a register with a virtual device: its address, the class of
the device that `vdev_create` makes or `ref_addr` refers to, and its masks -/
structure IoRegDefn where
  addr : Int
  vdev : VDevice
  rdMask : Byte := 0xff
  wrMask : Byte := 0xff

/-- `DevSuppDefn` -/
structure DevSuppDefn where
  /-- does the device have extended IO registers -/
  hasExtIoReg : Bool := false
  /-- the interrupt vector table that `irq_vect_idx` selects -/
  irqVtable : Nat → IntVect
  /-- width of program counter -/
  pc : Int := 2
  /-- depth of stack (only used by hardware stack) -/
  stack : Nat := 0
  /-- bytes of flash memory -/
  flash : Int
  /-- bytes of sram memory -/
  sram : Int
  ioReg : List IoRegDefn

namespace DevSuppDefn

/-- `SRAM_EXTENDED_IO_BASE` or `SRAM_BASE` -/
def sramBase (dev : DevSuppDefn) : Int :=
  if dev.hasExtIoReg then 0x100 else 0x60

/-- The cell at an address after the working registers, the IO registers and the internal
SRAM are attached, in this order. -/
def cell (dev : DevSuppDefn) (addr : Int) : MemoryCell :=
  if dev.sramBase ≤ addr ∧ addr < dev.sramBase + dev.sram then
    { vdev := some .sram, rdMask := 0xff, wrMask := 0xff }
  else
    match dev.ioReg.find? (fun reg => reg.addr = addr) with
    | some reg => { vdev := some reg.vdev, rdMask := reg.rdMask, wrMask := reg.wrMask }
    | none =>
      if 0 ≤ addr ∧ addr < 0x20 then
        { vdev := some .gpwr, rdMask := 0xff, wrMask := 0xff }
      else
        { vdev := none, rdMask := 0, wrMask := 0 }

/-- The first address of a class of devices. -/
def addrOf (dev : DevSuppDefn) (vdev : VDevice) : Int :=
  ((dev.ioReg.find? fun reg => reg.vdev = vdev).map IoRegDefn.addr).getD 0

end DevSuppDefn

/-- `avr_core_construct`, with the peripherals `io` -/
def AvrCore.construct {δ : Type} (dev : DevSuppDefn) (io : δ) : AvrCore δ where
  state := .stopped
  sleepMode := 0
  pc := 0
  pcSize := dev.pc
  pcMax := dev.flash / 2
  sreg := 0
  gpwr := fun _ => 0
  flash := { base := 0, size := dev.flash, data := fun _ => 0xff }
  sram := { base := dev.sramBase, size := dev.sram, data := fun _ => 0 }
  mem := {
    gpwrEnd := 0x1f
    ioRegEnd := if dev.hasExtIoReg then 0xff else 0x5f
    xramEnd := 0xffff
    cell := dev.cell }
  sp := { splAddr := dev.addrOf .stackPointer, spl := 0, sph := 0 }
  stack := if dev.stack = 0 then .mem else .hw dev.stack (fun _ => 0)
  spmhelper := { addr := dev.addrOf .spm, pageBuffer := fun _ => 0, spmcsr := 0 }
  breakpoints := .nil
  irqPending := .nil
  irqVtable := dev.irqVtable
  irqOffset := 0
  ck := 0
  instCKS := 0
  hasRampz := (dev.cell 0x5b).vdev.isSome
  rampz := 0
  eind := 0
  display := []
  dev := io

/-! ### The at90s2313, the at90s8515 and the OsEID128 -/

/-- `NO_BIT` -/
def noBit : IrqCtrlBit :=
  { addr := 0, mask := 0 }

/-- A slot of a vector table that the device does not support. -/
def noVect : IntVect :=
  { name := none, addr := 0, canWake := 0, enable := noBit, flag := noBit }

/-- A vector of a table that does not wake the processor. -/
def intVect (name : String) (addr : Int) (enable flag : IrqCtrlBit) : IntVect :=
  { name := some name, addr := addr, canWake := 0, enable := enable, flag := flag }

/-- The slots of `IntVectTable` -/
inductive IntVectTable where
  | RESET | INT0 | INT1 | INT2 | INT3 | INT4 | INT5 | INT6 | INT7 | TIMER0_COMP | TIMER0_OVF
  | TIMER1_CAPT | TIMER1_COMPA | TIMER1_COMPB | TIMER1_COMPC | TIMER1_OVF | TIMER2_COMP
  | TIMER2_OVF | TIMER3_CAPT | TIMER3_COMPA | TIMER3_COMPB | TIMER3_COMPC | TIMER3_OVF
  | SPI_STC | TWI | UART_RX | UART_UDRE | UART_TX | USART0_RX | USART0_UDRE | USART0_TX
  | USART1_RX | USART1_UDRE | USART1_TX | ADC | ANA_COMP | EE_READY | SPM_READY | USB_HW
  deriving DecidableEq, Inhabited

/-- `irq_vect_table_index` -/
def irqVectTableIndex : IntVectTable → Nat
  | .RESET => 0
  | .INT0 => 1
  | .INT1 => 2
  | .INT2 => 3
  | .INT3 => 4
  | .INT4 => 5
  | .INT5 => 6
  | .INT6 => 7
  | .INT7 => 8
  | .TIMER0_COMP => 9
  | .TIMER0_OVF => 10
  | .TIMER1_CAPT => 11
  | .TIMER1_COMPA => 12
  | .TIMER1_COMPB => 13
  | .TIMER1_COMPC => 14
  | .TIMER1_OVF => 15
  | .TIMER2_COMP => 16
  | .TIMER2_OVF => 17
  | .TIMER3_CAPT => 18
  | .TIMER3_COMPA => 19
  | .TIMER3_COMPB => 20
  | .TIMER3_COMPC => 21
  | .TIMER3_OVF => 22
  | .SPI_STC => 23
  | .TWI => 24
  | .UART_RX => 25
  | .UART_UDRE => 26
  | .UART_TX => 27
  | .USART0_RX => 28
  | .USART0_UDRE => 29
  | .USART0_TX => 30
  | .USART1_RX => 31
  | .USART1_UDRE => 32
  | .USART1_TX => 33
  | .ADC => 34
  | .ANA_COMP => 35
  | .EE_READY => 36
  | .SPM_READY => 37
  | .USB_HW => 38

/-- The table with the given vectors in its slots. -/
def vtable (vects : List (IntVectTable × IntVect)) (irq : Nat) : IntVect :=
  ((vects.find? fun entry => irqVectTableIndex entry.1 = irq).map Prod.snd).getD noVect

/-- `vtab_at90s2313` -/
def vtabAt90s2313 : Nat → IntVect :=
  vtable [
    (.RESET, intVect "IRQ_RESET" 0x00 noBit noBit),
    (.INT0, intVect "IRQ_INT0" 0x01 ⟨0x5b, 0x40⟩ ⟨0x5a, 0x40⟩),
    (.INT1, intVect "IRQ_INT1" 0x02 ⟨0x5b, 0x80⟩ ⟨0x5a, 0x80⟩),
    (.TIMER1_CAPT, intVect "IRQ_TIMER1_CAPT" 0x03 ⟨0x59, 0x08⟩ ⟨0x58, 0x08⟩),
    (.TIMER1_COMPA, intVect "IRQ_TIMER1_COMPA" 0x04 ⟨0x59, 0x40⟩ ⟨0x58, 0x40⟩),
    (.TIMER1_OVF, intVect "IRQ_TIMER1_OVF" 0x05 ⟨0x59, 0x80⟩ ⟨0x58, 0x80⟩),
    (.TIMER0_OVF, intVect "IRQ_TIMER0_OVF" 0x06 ⟨0x59, 0x02⟩ ⟨0x58, 0x02⟩),
    (.UART_RX, intVect "IRQ_UART_RX" 0x07 ⟨0x2a, 0x80⟩ ⟨0x2b, 0x80⟩),
    (.UART_UDRE, intVect "IRQ_UART_UDRE" 0x08 ⟨0x2a, 0x20⟩ ⟨0x2b, 0x20⟩),
    (.UART_TX, intVect "IRQ_UART_TX" 0x09 ⟨0x2a, 0x40⟩ ⟨0x2b, 0x40⟩),
    (.ANA_COMP, intVect "IRQ_ANA_COMP" 0x0a ⟨0x28, 0x08⟩ ⟨0x28, 0x10⟩)]

/-- `defn_at90s2313` -/
def defnAt90s2313 : DevSuppDefn where
  irqVtable := vtabAt90s2313
  flash := 2 * 1024
  sram := 128
  ioReg := [
    { addr := 0x30, vdev := .io, rdMask := 0x7f, wrMask := 0x7f },
    { addr := 0x31, vdev := .io, rdMask := 0x7f, wrMask := 0x7f },
    { addr := 0x32, vdev := .io, rdMask := 0x7f, wrMask := 0x7f },
    { addr := 0x36, vdev := .io },
    { addr := 0x37, vdev := .io },
    { addr := 0x38, vdev := .io },
    { addr := 0x5d, vdev := .stackPointer },
    { addr := 0x5f, vdev := .sreg }]

/-- `vtab_at90s4414` -/
def vtabAt90s4414 : Nat → IntVect :=
  vtable [
    (.RESET, intVect "IRQ_RESET" 0x00 noBit noBit),
    (.INT0, intVect "IRQ_INT0" 0x01 ⟨0x5b, 0x40⟩ ⟨0x5a, 0x40⟩),
    (.INT1, intVect "IRQ_INT1" 0x02 ⟨0x5b, 0x80⟩ ⟨0x5a, 0x80⟩),
    (.TIMER1_CAPT, intVect "IRQ_TIMER1_CAPT" 0x03 ⟨0x59, 0x08⟩ ⟨0x58, 0x08⟩),
    (.TIMER1_COMPA, intVect "IRQ_TIMER1_COMPA" 0x04 ⟨0x59, 0x40⟩ ⟨0x58, 0x40⟩),
    (.TIMER1_COMPB, intVect "IRQ_TIMER1_COMPB" 0x05 ⟨0x59, 0x20⟩ ⟨0x58, 0x20⟩),
    (.TIMER1_OVF, intVect "IRQ_TIMER1_OVF" 0x06 ⟨0x59, 0x80⟩ ⟨0x58, 0x80⟩),
    (.TIMER0_OVF, intVect "IRQ_TIMER0_OVF" 0x07 ⟨0x59, 0x02⟩ ⟨0x58, 0x02⟩),
    (.SPI_STC, intVect "IRQ_SPI_STC" 0x08 ⟨0x2d, 0x80⟩ noBit),
    (.UART_RX, intVect "IRQ_UART_RX" 0x09 ⟨0x2a, 0x80⟩ ⟨0x2b, 0x80⟩),
    (.UART_UDRE, intVect "IRQ_UART_UDRE" 0x0a ⟨0x2a, 0x20⟩ ⟨0x2b, 0x20⟩),
    (.UART_TX, intVect "IRQ_UART_TX" 0x0b ⟨0x2a, 0x40⟩ ⟨0x2b, 0x40⟩),
    (.ANA_COMP, intVect "IRQ_ANA_COMP" 0x0c ⟨0x28, 0x08⟩ ⟨0x28, 0x10⟩)]

/-- `defn_at90s8515` -/
def defnAt90s8515 : DevSuppDefn where
  irqVtable := vtabAt90s4414
  flash := 8 * 1024
  sram := 512
  ioReg := [
    { addr := 0x30, vdev := .io },
    { addr := 0x31, vdev := .io },
    { addr := 0x32, vdev := .io },
    { addr := 0x33, vdev := .io },
    { addr := 0x34, vdev := .io },
    { addr := 0x35, vdev := .io },
    { addr := 0x36, vdev := .io },
    { addr := 0x37, vdev := .io },
    { addr := 0x38, vdev := .io },
    { addr := 0x39, vdev := .io },
    { addr := 0x3a, vdev := .io },
    { addr := 0x3b, vdev := .io },
    { addr := 0x5d, vdev := .stackPointer },
    { addr := 0x5e, vdev := .stackPointer },
    { addr := 0x5f, vdev := .sreg }]

/-- `vtab_atmega128` -/
def vtabAtmega128 : Nat → IntVect :=
  vtable [
    (.RESET, intVect "IRQ_RESET" 0x00 noBit noBit),
    (.INT0, intVect "IRQ_INT0" 0x02 ⟨0x59, 0x80⟩ ⟨0x58, 0x80⟩),
    (.INT1, intVect "IRQ_INT1" 0x04 ⟨0x59, 0x40⟩ ⟨0x58, 0x40⟩),
    (.INT2, intVect "IRQ_INT2" 0x06 ⟨0x59, 0x20⟩ ⟨0x58, 0x20⟩),
    (.INT3, intVect "IRQ_INT3" 0x08 ⟨0x59, 0x10⟩ ⟨0x58, 0x10⟩),
    (.INT4, intVect "IRQ_INT4" 0x0a ⟨0x59, 0x08⟩ ⟨0x58, 0x08⟩),
    (.INT5, intVect "IRQ_INT5" 0x0c ⟨0x59, 0x04⟩ ⟨0x58, 0x04⟩),
    (.INT6, intVect "IRQ_INT6" 0x0e ⟨0x59, 0x02⟩ ⟨0x58, 0x02⟩),
    (.INT7, intVect "IRQ_INT7" 0x10 ⟨0x59, 0x01⟩ ⟨0x58, 0x01⟩),
    (.TIMER2_COMP, intVect "IRQ_TIMER2_COMP" 0x12 ⟨0x57, 0x80⟩ ⟨0x56, 0x80⟩),
    (.TIMER2_OVF, intVect "IRQ_TIMER2_OVF" 0x14 ⟨0x57, 0x40⟩ ⟨0x56, 0x40⟩),
    (.TIMER1_CAPT, intVect "IRQ_TIMER1_CAPT" 0x16 ⟨0x57, 0x20⟩ ⟨0x56, 0x20⟩),
    (.TIMER1_COMPA, intVect "IRQ_TIMER1_COMPA" 0x18 ⟨0x57, 0x10⟩ ⟨0x56, 0x10⟩),
    (.TIMER1_COMPB, intVect "IRQ_TIMER1_COMPB" 0x1a ⟨0x57, 0x08⟩ ⟨0x56, 0x08⟩),
    (.TIMER1_OVF, intVect "IRQ_TIMER1_OVF" 0x1c ⟨0x57, 0x04⟩ ⟨0x56, 0x04⟩),
    (.TIMER0_COMP, intVect "IRQ_TIMER0_COMP" 0x1e ⟨0x57, 0x02⟩ ⟨0x56, 0x02⟩),
    (.TIMER0_OVF, intVect "IRQ_TIMER0_OVF" 0x20 ⟨0x57, 0x01⟩ ⟨0x56, 0x01⟩),
    (.SPI_STC, intVect "IRQ_SPI_STC" 0x22 ⟨0x2d, 0x80⟩ noBit),
    (.USART0_RX, intVect "IRQ_USART0_RX" 0x24 ⟨0x2a, 0x80⟩ ⟨0x2b, 0x80⟩),
    (.USART0_UDRE, intVect "IRQ_USART0_UDRE" 0x26 ⟨0x2a, 0x20⟩ ⟨0x2b, 0x20⟩),
    (.USART0_TX, intVect "IRQ_USART0_TX" 0x28 ⟨0x2a, 0x40⟩ ⟨0x2b, 0x40⟩),
    (.ADC, intVect "IRQ_ADC" 0x2a ⟨0x26, 0x08⟩ ⟨0x26, 0x10⟩),
    (.EE_READY, intVect "IRQ_EE_READY" 0x2c ⟨0x3c, 0x08⟩ noBit),
    (.ANA_COMP, intVect "IRQ_ANA_COMP" 0x2e ⟨0x28, 0x08⟩ ⟨0x28, 0x10⟩),
    (.TIMER1_COMPC, intVect "IRQ_TIMER1_COMPC" 0x30 ⟨0x7d, 0x01⟩ ⟨0x7c, 0x01⟩),
    (.TIMER3_CAPT, intVect "IRQ_TIMER3_CAPT" 0x32 ⟨0x7d, 0x20⟩ ⟨0x7c, 0x20⟩),
    (.TIMER3_COMPA, intVect "IRQ_TIMER3_COMPA" 0x34 ⟨0x7d, 0x10⟩ ⟨0x7c, 0x10⟩),
    (.TIMER3_COMPB, intVect "IRQ_TIMER3_COMPB" 0x36 ⟨0x7d, 0x08⟩ ⟨0x7c, 0x08⟩),
    (.TIMER3_COMPC, intVect "IRQ_TIMER3_COMPC" 0x38 ⟨0x7d, 0x02⟩ ⟨0x7c, 0x02⟩),
    (.TIMER3_OVF, intVect "IRQ_TIMER3_OVF" 0x3a ⟨0x7d, 0x04⟩ ⟨0x7c, 0x04⟩),
    (.USART1_RX, intVect "IRQ_USART1_RX" 0x3c ⟨0x9a, 0x80⟩ ⟨0x9b, 0x80⟩),
    (.USART1_UDRE, intVect "IRQ_USART1_UDRE" 0x3e ⟨0x9a, 0x20⟩ ⟨0x9b, 0x20⟩),
    (.USART1_TX, intVect "IRQ_USART1_TX" 0x40 ⟨0x9a, 0x40⟩ ⟨0x9b, 0x40⟩),
    (.TWI, intVect "IRQ_TWI" 0x42 ⟨0x74, 0x01⟩ ⟨0x74, 0x80⟩),
    (.SPM_READY, intVect "IRQ_SPM_READY" 0x44 ⟨0x68, 0x80⟩ noBit)]

/-- `defn_OsEID128` -/
def defnOsEID128 : DevSuppDefn where
  hasExtIoReg := true
  irqVtable := vtabAtmega128
  flash := 128 * 1024
  sram := 16 * 1024
  ioReg := [
    { addr := 0x20, vdev := .io },
    { addr := 0x21, vdev := .io },
    { addr := 0x22, vdev := .io },
    { addr := 0x23, vdev := .io },
    { addr := 0x30, vdev := .io },
    { addr := 0x31, vdev := .io },
    { addr := 0x32, vdev := .io },
    { addr := 0x33, vdev := .io },
    { addr := 0x34, vdev := .io },
    { addr := 0x35, vdev := .io },
    { addr := 0x36, vdev := .io },
    { addr := 0x37, vdev := .io },
    { addr := 0x38, vdev := .io },
    { addr := 0x39, vdev := .io },
    { addr := 0x3a, vdev := .io },
    { addr := 0x3b, vdev := .io },
    { addr := 0x3c, vdev := .io },
    { addr := 0x3d, vdev := .io },
    { addr := 0x3e, vdev := .io },
    { addr := 0x3f, vdev := .io },
    { addr := 0x5b, vdev := .rampz, wrMask := 0x01 },
    { addr := 0x5d, vdev := .stackPointer },
    { addr := 0x5e, vdev := .stackPointer },
    { addr := 0x5f, vdev := .sreg },
    { addr := 0x61, vdev := .io },
    { addr := 0x62, vdev := .io },
    { addr := 0x63, vdev := .io, rdMask := 0x1f, wrMask := 0x1f },
    { addr := 0x64, vdev := .io, rdMask := 0x1f, wrMask := 0x1f },
    { addr := 0x65, vdev := .io, rdMask := 0x1f, wrMask := 0x1f },
    { addr := 0x68, vdev := .spm },
    { addr := 0xfe, vdev := .io },
    { addr := 0xff, vdev := .io }]

/-- Peripherals that read as zero and ignore writes, with no callbacks and no EEPROM. -/
instance : IoDevices Unit where
  read _ io := .ok (0, io)
  write _ _ io := .ok io
  reset _ io := io
  gdbEeRead _ _ := 0
  gdbEeWrite _ _ io := io
  clkCbExec _ io := .ok (io, [])
  asyncCbExec io := .ok (io, [])

/-- A flash of which every word is `opcode`. -/
def Flash.filled (words : Int) (opcode : Word) : Flash where
  base := 0
  size := 2 * words
  data i := if i % 2 = 0 then opcode.extractLsb' 8 8 else opcode.extractLsb' 0 8

/-- A running at90s2313 without peripherals, with its stack at the end of the SRAM. -/
def AvrCore.at90s2313 : AvrCore Unit :=
  let c := AvrCore.construct defnAt90s2313 ()
  { c with state := .running, sp := { c.sp with spl := 0xdf } }

/-- The at90s2313 at `pc`, with `opcode` in every word of its flash. -/
def AvrCore.atOpcode (pc : Int) (opcode : Word) : AvrCore Unit :=
  { AvrCore.at90s2313 with pc := pc, flash := .filled 1024 opcode }

end SimulAvr
