import SimulAvr.Device
import SimulAvr.Storage
import Mathlib.Data.Stream.Init

/-!
# The peripherals

The virtual devices of timers, SPI, UART, A/D converter, watchdog, EEPROM, ports, USB and the FIFO
of the OsEID, as the definitions of the devices attach them: one of each class, several ports and
output compare registers.  A device that refers to another one by the address `related_addr` refers
to the one of that class; that of ADCL is not initialised by the definitions of the at43usb351 and
the at43usb353.  A field for the address of a register that is not attached is never compared with
an address that reaches the device.
-/

namespace SimulAvr

/-! ### Callbacks -/

/-- `CallBack_FP`: the functions of callbacks, each of one device -/
inductive CallBackFP where
  | timerIntrCb
  | timer0ClkIncrCb
  | timer16ClkIncrCb
  | spiIntrCb
  | spiClkIncrCb
  | uartIntrCb
  | uartClkIncrCb
  | adcIntrCb
  | adcClkIncrCb
  | wdtcrTimerCb
  | wdtcrToeClrCb
  | eepromWrOpCb
  | eepromMweClrCb
  deriving DecidableEq

/-- `enum _cb_ret_codes` -/
inductive CbRet where
  /-- Give the callback in the list and run it again -/
  | retain
  /-- Remove callback from list -/
  | remove
  deriving DecidableEq

/-- The callback is installed by `avr_core_clk_cb_add`, not by `avr_core_async_cb_add`. -/
def CallBackFP.isClk : CallBackFP → Bool
  | timer0ClkIncrCb | timer16ClkIncrCb | spiClkIncrCb | uartClkIncrCb | adcClkIncrCb
  | wdtcrToeClrCb | eepromMweClrCb => true
  | timerIntrCb | spiIntrCb | uartIntrCb | adcIntrCb | wdtcrTimerCb | eepromWrOpCb => false

/-- The lists of callbacks of the core, a callback given by its function, and the pointers by
which the devices hold their callbacks. -/
structure CallBacks where
  /-- `core->clk_cb` -/
  clkCb : List CallBackFP
  /-- `core->async_cb` -/
  asyncCb : List CallBackFP
  /-- whether the pointer of the device to its callback is not `NULL` -/
  held : CallBackFP → Bool
  deriving Inhabited

namespace CallBacks

/-- A new callback, put into its list and held by its device. -/
def install (cbs : CallBacks) (f : CallBackFP) : CallBacks where
  clkCb := if f.isClk then cbs.clkCb ++ [f] else cbs.clkCb
  asyncCb := if f.isClk then cbs.asyncCb else cbs.asyncCb ++ [f]
  held := Function.update cbs.held f true

/-- The device sets its pointer to `NULL`, which tells the callback to remove itself. -/
def withdraw (cbs : CallBacks) (f : CallBackFP) : CallBacks :=
  { cbs with held := Function.update cbs.held f false }

/-- A new callback, unless the device holds one. -/
def ensure (cbs : CallBacks) (f : CallBackFP) : CallBacks :=
  if cbs.held f then cbs else cbs.install f

end CallBacks

/-! ### Timers -/

/-- `TimerIntr_T` -/
structure TimerIntr where
  timskAddr : Int
  /-- Timer/counter interrupt mask register -/
  timsk : Byte
  tifrAddr : Int
  /-- Timer/counter interrupt flag register -/
  tifr : Byte
  /-- mask of available register functions -/
  funcMask : Byte
  deriving Inhabited

/-- `Timer0_T` -/
structure Timer0 where
  tccrAddr : Int
  /-- control register -/
  tccr : Byte
  tcntAddr : Int
  /-- Timer/Counter up-counter register -/
  tcnt : Byte
  /-- clock divisor -/
  divisor : Int
  deriving Inhabited

/-- `OCReg16_T` -/
structure OCReg16 where
  /-- output compare register -/
  ocr : Word
  ocrlAddr : Int
  ocrhAddr : Int
  /-- TEMP register for read and write -/
  temp : Byte
  deriving Inhabited

/-- `Timer16_T`, whose output compare registers are `NULL` or those with a number -/
structure Timer16 where
  tccra : Byte
  tccraAddr : Int
  tccrb : Byte
  tccrbAddr : Int
  tccrc : Byte
  tccrcAddr : Int
  /-- Timer/Counter up-counter register -/
  tcnt : Word
  tcntlAddr : Int
  tcnthAddr : Int
  /-- clock divisor -/
  divisor : Int
  /-- TEMP register for read and write -/
  temp : Byte
  ocra : Option Nat
  ocrb : Option Nat
  deriving Inhabited

/-! ### Serial interfaces -/

/-- `SPIIntr_T` -/
structure SPIIntr where
  spcrAddr : Int
  spcr : Byte
  spsrAddr : Int
  spsr : Byte
  /-- SPCR read occured with SPIF set -/
  spsrRead : Byte
  deriving Inhabited

/-- `SPI_T` -/
structure SPI where
  spdrAddr : Int
  /-- data register -/
  spdr : Byte
  /-- new data register -/
  spdrIn : Byte
  /-- SPI timer up-counter register -/
  tcnt : Byte
  /-- clock divisor -/
  divisor : Byte
  /-- the bytes that `spi_port_wr` has been told, which no method looks at -/
  portWr : List Byte
  deriving Inhabited

/-- `UARTIntr_T`, with the interrupts of its `Int_Table` -/
structure UARTIntr where
  /-- uart BAUD Rate register -/
  ubrr : Word
  ubrrTemp : Byte
  ubrrlAddr : Int
  ubrrhAddr : Int
  /-- uart status register -/
  usr : Byte
  usrAddr : Int
  /-- uart control register -/
  ucr : Byte
  ucrAddr : Int
  /-- shadow uart status register -/
  usrShadow : Byte
  urx : IntVectTable
  uudre : IntVectTable
  utx : IntVectTable
  deriving Inhabited

/-- `UART_T` -/
structure UART where
  /-- receive data register -/
  udrRx : Byte
  /-- transmit data register -/
  udrTx : Byte
  udrAddr : Int
  /-- uart timer up-counter register -/
  tcnt : Word
  /-- clock divisor -/
  divisor : Word
  deriving Inhabited

/-! ### A/D converter, watchdog, EEPROM and ports -/

/-- `ADCIntr_T` -/
structure ADCIntr where
  adcsrAddr : Int
  admuxAddr : Int
  /-- ADC Interrupt control and status register -/
  adcsr : Byte
  /-- ADC Multiplexer Select register -/
  admux : Byte
  deriving Inhabited

/-- `ADC_T` -/
structure ADC where
  adclAddr : Int
  adcl : Byte
  adchAddr : Int
  adch : Byte
  /-- 16 bit count register -/
  adcCount : Word
  /-- new data register -/
  adcIn : Word
  /-- clock divisor -/
  divisor : Word
  /-- extra usb clock divisor -/
  uDivisor : Byte
  deriving Inhabited

/-- `WDTCR` -/
structure WDTCR where
  wdtcr : Byte
  funcMask : Byte
  lastWDR : BitVec 64
  toeClk : Int
  deriving Inhabited

/-- `EEProm` -/
structure EEProm where
  /-- storage for eeprom memory -/
  stor : Storage
  /-- eeprom control register -/
  eecr : Byte
  /-- mask of bits available for device -/
  eecrMask : Byte
  /-- eeprom data register -/
  eedr : Byte
  /-- eeprom address register low byte -/
  eearl : Byte
  /-- eeprom address register high byte -/
  eearh : Byte
  /-- clock counter for write to eeprom operation -/
  wrOpClk : Int
  /-- clock counter for hw clearing of MWE bit -/
  mweClk : Int
  deriving Inhabited

/-- `Port`, without external hardware -/
structure Port where
  portAddr : Int
  ddrAddr : Int
  pinAddr : Int
  port : Byte
  ddr : Byte
  deriving Inhabited

/-! ### USB -/

/-- The registers of `USBInter_T` -/
inductive USBIntrReg where
  | uier
  | uiar
  | uimsk
  | uisr
  | sprsmsk
  | sprsie
  | sprsr
  | glbState
  | frmNumL
  | frmNumH
  deriving DecidableEq

/-- `USBInter_T` -/
structure USBInter where
  /-- the register at an address -/
  regAt : Int → Option USBIntrReg
  reg : USBIntrReg → Byte
  deriving Inhabited

/-- The registers of `USB_T` -/
inductive USBReg where
  | fcar (n : Fin 6)
  | hcar0
  | pstate (n : Fin 8)
  | hpscr (n : Fin 8)
  | hpstat (n : Fin 8)
  | hpcon
  | hstr
  | fbyteCnt (n : Fin 6)
  | hbyteCnt0
  | fdr (n : Fin 6)
  | hdr0
  | fcsr (n : Fin 6)
  | hcsr0
  | fendpCntr (n : Fin 6)
  | hendpCntr (n : Fin 2)
  | faddr
  | haddr
  | iscr
  | uovcer
  deriving DecidableEq

/-- `USB_T` -/
structure USB where
  /-- the register at an address -/
  regAt : Int → Option USBReg
  reg : USBReg → Byte
  deriving Inhabited

/-! ### The FIFO of the OsEID -/

/-- `FIFO_LEN` -/
abbrev fifoLen : Nat := 266

/-- `Oseid` -/
structure Oseid where
  addr : Int
  /-- the bytes from the start of `fifo` on, those beyond `FIFO_LEN` never read back -/
  fifo : Nat → Byte
  flen : Word
  protocol : Byte
  deriving Inhabited

/-! ### The outside world -/

/-- What the terminal enters for a read of a line by the OsEID: the protocol that the lines
before the data select, if they select one, and the bytes of the line with the data. -/
structure OseidLine where
  protocol : Option Byte
  bytes : List Byte
  deriving Inhabited

/-- What the devices read from the outside world. -/
structure World where
  /-- `spi_port_rd` -/
  spiPortRd : Stream' Byte
  /-- `uart_port_rd` -/
  uartPortRd : Stream' Word
  /-- `adc_port_rd` -/
  adcPortRd : Stream' Word
  /-- `usb_port_rd` -/
  usbPortRd : Stream' Byte
  /-- `stdin`, as the OsEID reads it -/
  oseidLine : Stream' OseidLine
  /-- `/dev/urandom` -/
  urandom : Stream' Byte
  /-- `get_program_time` -/
  programTime : Stream' (BitVec 64)
  deriving Inhabited

/-! ### The state of the peripherals -/

/-- The virtual devices of the peripherals. -/
inductive IoVDev where
  | timerIntr
  | timer0
  | timer16
  | ocreg16 (n : Nat)
  | spiIntr
  | spi
  | uartIntr
  | uart
  | adcIntr
  | adc
  | wdtcr
  | eeprom
  | port (n : Nat)
  | usbIntr
  | usb
  | oseid
  deriving DecidableEq

/-- An access of the core to a register of a peripheral -/
inductive DevAccess where
  | read (addr : Int)
  | write (addr : Int) (val : Byte)
  | reset (addr : Int)
  deriving DecidableEq

/-- The peripherals of a device. -/
structure Peripherals where
  /-- the virtual device that is attached to an address -/
  vdevAt : Int → Option IoVDev
  timerIntr : TimerIntr
  timer0 : Timer0
  timer16 : Timer16
  ocreg16 : Nat → OCReg16
  spiIntr : SPIIntr
  spi : SPI
  uartIntr : UARTIntr
  uart : UART
  adcIntr : ADCIntr
  adc : ADC
  wdtcr : WDTCR
  eeprom : EEProm
  port : Nat → Port
  usbIntr : USBInter
  usb : USB
  oseid : Oseid
  cbs : CallBacks
  world : World
  /-- the accesses so far, which no method looks at -/
  history : List DevAccess
  deriving Inhabited

/-- A program of the peripherals. -/
abbrev DevM (α : Type) : Type :=
  Program Peripherals DevError α

/-- `avr_error`, called by a peripheral -/
def devError {α : Type} (fmt : String) (args : List Int) : DevM α :=
  throw { fmt := fmt, args := args }

/-- The part of the peripherals that a method reads. -/
def getDev {α : Type} (f : Peripherals → α) : DevM α :=
  fun p => .ok (f p, p)

/-- A change of the peripherals that cannot abort. -/
def setDev (f : Peripherals → Peripherals) : DevM Unit :=
  modify f

/-- A change of the lists and pointers of callbacks. -/
def setCbs (f : CallBacks → CallBacks) : DevM Unit :=
  setDev fun p => { p with cbs := f p.cbs }

/-- A statement `if (c) x;` -/
def devIf (c : Prop) [Decidable c] (x : DevM Unit) : DevM Unit :=
  if c then x else return ()

/-- A read from the outside world. -/
def worldRead {α : Type} (next : World → Stream' α) (drop : World → Stream' α → World) : DevM α :=
  fun p => .ok ((next p.world).head, { p with world := drop p.world (next p.world).tail })

/-- `spi_port_rd` -/
def spiPortRd : DevM Byte :=
  worldRead World.spiPortRd fun w s => { w with spiPortRd := s }

/-- `uart_port_rd` -/
def uartPortRd : DevM Word := do
  let data ← worldRead World.uartPortRd fun w s => { w with uartPortRd := s }
  return data &&& 0x1ff

/-- `adc_port_rd` -/
def adcPortRd : DevM Word := do
  let data ← worldRead World.adcPortRd fun w s => { w with adcPortRd := s }
  return data &&& 0x3ff

/-- `usb_port_rd` -/
def usbPortRd : DevM Byte :=
  worldRead World.usbPortRd fun w s => { w with usbPortRd := s }

/-- `get_program_time` -/
def getProgramTime : DevM (BitVec 64) :=
  worldRead World.programTime fun w s => { w with programTime := s }

end SimulAvr
