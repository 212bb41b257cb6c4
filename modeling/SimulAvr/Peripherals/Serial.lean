import SimulAvr.Peripherals.Timers

/-!
# Serial interfaces

The methods and callbacks of the SPI and of the UART, each a device for the registers that
control its interrupts and one for its data register.
-/

namespace SimulAvr

/-! ### SPI interrupts -/

/-- `mask_SPE` -/
abbrev maskSPE : Byte := 0x40

/-- `mask_SPIE` -/
abbrev maskSPIE : Byte := 0x80

/-- `mask_WCOL` -/
abbrev maskWCOL : Byte := 0x40

/-- `mask_SPIF` -/
abbrev maskSPIF : Byte := 0x80

/-- A change of the SPI interrupts. -/
def setSPIIntr (f : SPIIntr → SPIIntr) : DevM Unit :=
  setDev fun p => { p with spiIntr := f p.spiIntr }

/-- `spi_intr_read` -/
def spiIntrRead (addr : Int) : DevM Byte := do
  let spi ← getDev Peripherals.spiIntr
  if addr = spi.spcrAddr then
    return spi.spcr
  else if addr = spi.spsrAddr then
    devIf (spi.spsr &&& maskSPIF ≠ 0)
      (setSPIIntr fun spi => { spi with spsrRead := spi.spsrRead ||| maskSPIF })
    devIf (spi.spsr &&& maskWCOL ≠ 0)
      (setSPIIntr fun spi => { spi with spsrRead := spi.spsrRead ||| maskWCOL })
    return spi.spsr
  else
    devError "Bad address: 0x%04x" [addr]

/-- `spi_intr_write` -/
def spiIntrWrite (addr : Int) (val : Byte) : DevM Unit := do
  let spi ← getDev Peripherals.spiIntr
  if addr = spi.spcrAddr then
    setSPIIntr fun spi => { spi with spcr := val }
    if val &&& maskSPE ≠ 0 then
      -- installed whether or not the device already holds a callback
      setCbs fun cbs => cbs.install .spiIntrCb
    else
      setCbs fun cbs => cbs.withdraw .spiIntrCb
  else
    devError "Bad address: 0x%04x" [addr]

/-- `spi_intr_reset` -/
def spiIntrReset (p : Peripherals) : Peripherals :=
  { p with
    cbs := p.cbs.withdraw .spiIntrCb
    spiIntr := { p.spiIntr with spcr := 0, spsr := 0, spsrRead := 0 } }

/-- `spi_intr_cb` -/
def spiIntrCb : DevM (CbRet × List DevEvent) := do
  let spi ← getDev Peripherals.spiIntr
  let cbs ← getDev Peripherals.cbs
  if ¬ cbs.held .spiIntrCb then
    return (.remove, [])
  else if spi.spcr &&& maskSPE ≠ 0 ∧ spi.spcr &&& maskSPIE ≠ 0 ∧ spi.spsr &&& maskSPIF ≠ 0 then
    setSPIIntr fun spi => { spi with spsr := 0 }
    return (.retain, [.irqRaise (irqVectTableIndex .SPI_STC)])
  else
    return (.retain, [])

/-! ### SPI -/

/-- A change of the SPI. -/
def setSPI (f : SPI → SPI) : DevM Unit :=
  setDev fun p => { p with spi := f p.spi }

/-- The flags that were seen set are cleared by an access to the data register. -/
def spiClearSeen : DevM Unit :=
  setSPIIntr fun ti =>
    if ti.spsrRead ≠ 0 then { ti with spsr := ti.spsr &&& ~~~ti.spsrRead, spsrRead := 0 } else ti

/-- `spi_read` -/
def spiRead (addr : Int) : DevM Byte := do
  let spi ← getDev Peripherals.spi
  if addr = spi.spdrAddr then
    spiClearSeen
    return spi.spdr
  else
    devError "Bad address: 0x%04x" [addr]

/-- The divisor that the clock rate bits of the control register choose. -/
def spiDivisor (spcr : Byte) : Byte :=
  if spcr &&& 0x03 = 0x00 then 4
  else if spcr &&& 0x03 = 0x01 then 16
  else if spcr &&& 0x03 = 0x02 then 64
  else 128

/-- `spi_write` -/
def spiWrite (addr : Int) (val : Byte) : DevM Unit := do
  let spi ← getDev Peripherals.spi
  if addr = spi.spdrAddr then
    spiClearSeen
    devIf (spi.tcnt ≠ 0) (setSPIIntr fun ti => { ti with spsr := ti.spsr ||| maskWCOL })
    let ti ← getDev Peripherals.spiIntr
    setSPI fun spi => { spi with spdr := val, divisor := spiDivisor ti.spcr }
    setCbs fun cbs => cbs.ensure .spiClkIncrCb
    let data ← spiPortRd
    setSPI fun spi => { spi with tcnt := 8, spdrIn := data }
  else
    devError "Bad address: 0x%04x" [addr]

/-- `spi_reset` -/
def spiReset (p : Peripherals) : Peripherals :=
  { p with
    cbs := p.cbs.withdraw .spiClkIncrCb
    spi := { p.spi with spdr := 0, tcnt := 0, divisor := 0 } }

/-- `spi_clk_incr_cb` -/
def spiClkIncrCb (ck : Nat) : DevM CbRet := do
  let spi ← getDev Peripherals.spi
  let cbs ← getDev Peripherals.cbs
  if ¬ cbs.held .spiClkIncrCb then
    return .remove
  else if spi.divisor = 0 then
    devError "Bad divisor value: %d" [spi.divisor.toNat]
  else
    let tcnt := if isMultipleOf ck spi.divisor.toNat then spi.tcnt - 1 else spi.tcnt
    setSPI fun spi => { spi with tcnt := tcnt }
    if tcnt ≠ spi.tcnt ∧ tcnt = 0 then
      setSPIIntr fun ti => { ti with spsr := ti.spsr ||| maskSPIF }
      -- tell what we wrote, and update spdr to what we read
      setSPI fun spi => { spi with portWr := spi.portWr ++ [spi.spdr], spdr := spi.spdrIn }
      setCbs fun cbs => cbs.withdraw .spiClkIncrCb
      return .remove
    else
      return .retain

/-! ### UART interrupts -/

/-- `mask_UDRE` -/
abbrev maskUDRE : Byte := 0x20

/-- `mask_TXC` -/
abbrev maskTXC : Byte := 0x40

/-- `mask_RXC` -/
abbrev maskRXC : Byte := 0x80

/-- `mask_RXB8` -/
abbrev maskRXB8 : Byte := 0x02

/-- `mask_CHR9` -/
abbrev maskCHR9 : Byte := 0x04

/-- `mask_TXEN` -/
abbrev maskTXEN : Byte := 0x08

/-- `mask_RXEN` -/
abbrev maskRXEN : Byte := 0x10

/-- `mask_UDRIE` -/
abbrev maskUDRIE : Byte := 0x20

/-- `mask_TXCIE` -/
abbrev maskTXCIE : Byte := 0x40

/-- `mask_RXCIE` -/
abbrev maskRXCIE : Byte := 0x80

/-- A change of the UART interrupts. -/
def setUARTIntr (f : UARTIntr → UARTIntr) : DevM Unit :=
  setDev fun p => { p with uartIntr := f p.uartIntr }

/-- `uart_intr_read` -/
def uartIntrRead (addr : Int) : DevM Byte := do
  let uart ← getDev Peripherals.uartIntr
  if addr = uart.ubrrlAddr then
    return uart.ubrr.extractLsb' 0 8
  else if addr = uart.ubrrhAddr then
    return uart.ubrr.extractLsb' 8 8
  else if addr = uart.ucrAddr then
    return uart.ucr
  else if addr = uart.usrAddr then
    return uart.usr
  else
    devError "Bad address: 0x%04x" [addr]

/-- The control register enables an interrupt. -/
def UARTIntr.Enabled (ucr : Byte) : Prop :=
  (ucr &&& maskTXEN ≠ 0 ∧ ucr &&& maskTXCIE ≠ 0) ∨ (ucr &&& maskRXEN ≠ 0 ∧ ucr &&& maskRXCIE ≠ 0) ∨
    ucr &&& maskUDRIE ≠ 0

instance (ucr : Byte) : Decidable (UARTIntr.Enabled ucr) :=
  inferInstanceAs (Decidable (_ ∨ _ ∨ _))

/-- `uart_intr_write` -/
def uartIntrWrite (addr : Int) (val : Byte) : DevM Unit := do
  let uart ← getDev Peripherals.uartIntr
  if addr = uart.ubrrlAddr then
    setUARTIntr fun uart => { uart with ubrr := uart.ubrrTemp ++ val }
  else if addr = uart.ubrrhAddr then
    setUARTIntr fun uart => { uart with ubrrTemp := val }
  else if addr = uart.usr.toNat then
    -- the comparison is with the value of the status register, not with its address
    devIf (val &&& maskTXC ≠ 0)
      (setUARTIntr fun uart => { uart with usr := uart.usr &&& ~~~maskTXC })
  else if addr = uart.ucrAddr then
    setUARTIntr fun uart => { uart with ucr := val }
    if UARTIntr.Enabled val then
      setCbs fun cbs => cbs.ensure .uartIntrCb
    else
      setCbs fun cbs => cbs.withdraw .uartIntrCb
  else
    devError "Bad address: 0x%04x" [addr]

/-- `uart_intr_reset` -/
def uartIntrReset (p : Peripherals) : Peripherals :=
  { p with
    cbs := p.cbs.withdraw .uartIntrCb
    uartIntr := { p.uartIntr with ubrr := 0, usr := 0, ucr := 0, usrShadow := 0 } }

/-- The change by `uart_intr_cb` of the UART interrupts: a raised interrupt for a byte sent or
for an empty data register is not raised again. -/
def UARTIntr.raised (uart : UARTIntr) : UARTIntr :=
  { uart with
    usr := if uart.ucr &&& maskTXCIE ≠ 0 then uart.usr &&& ~~~maskTXC else uart.usr
    usrShadow := if uart.ucr &&& maskUDRIE ≠ 0 ∧ uart.usr &&& maskUDRE ≠ 0 then
      uart.usrShadow &&& ~~~maskUDRE else uart.usrShadow }

/-- The interrupts that `uart_intr_cb` raises, in order. -/
def UARTIntr.raises (uart : UARTIntr) : List DevEvent :=
  (if uart.ucr &&& maskRXCIE ≠ 0 ∧ uart.usr &&& maskRXC ≠ 0 then
    [.irqRaise (irqVectTableIndex uart.urx)] else []) ++
  (if uart.ucr &&& maskTXCIE ≠ 0 ∧ uart.usr &&& maskTXC ≠ 0 then
    [.irqRaise (irqVectTableIndex uart.utx)] else []) ++
  (if uart.ucr &&& maskUDRIE ≠ 0 ∧ uart.usr &&& maskUDRE ≠ 0 ∧ uart.usrShadow &&& maskUDRE ≠ 0 then
    [.irqRaise (irqVectTableIndex uart.uudre)] else [])

/-- `uart_intr_cb` -/
def uartIntrCb : DevM (CbRet × List DevEvent) := do
  let uart ← getDev Peripherals.uartIntr
  let cbs ← getDev Peripherals.cbs
  if ¬ cbs.held .uartIntrCb then
    return (.remove, [])
  else
    setUARTIntr UARTIntr.raised
    return (.retain, uart.raises)

/-! ### UART -/

/-- A change of the UART. -/
def setUART (f : UART → UART) : DevM Unit :=
  setDev fun p => { p with uart := f p.uart }

/-- The reception of 8 or 9 bits by `uart_read` -/
def uartReceive : DevM Unit := do
  let udrTemp ← uartPortRd
  setUART fun uart => { uart with udrRx := udrTemp.extractLsb' 0 8 }
  setUARTIntr fun ti =>
    if ti.ucr &&& maskCHR9 ≠ 0 ∧ udrTemp &&& 0x100 ≠ 0 then
      { ti with ucr := ti.ucr ||| maskRXB8 }
    else
      { ti with ucr := ti.ucr &&& ~~~maskRXB8 }

/-- `uart_read` -/
def uartRead (addr : Int) : DevM Byte := do
  let uart ← getDev Peripherals.uart
  let cbs ← getDev Peripherals.cbs
  if addr = uart.udrAddr then
    setUARTIntr fun ti => { ti with usr := ti.usr &&& ~~~maskRXC }
    devIf (cbs.held .uartClkIncrCb) uartReceive
    let uart ← getDev Peripherals.uart
    return uart.udrRx
  else
    devError "Bad address: 0x%04x" [addr]

/-- The clocks of a frame, with start and stop bits. -/
def uartFrame (ucr : Byte) : Word :=
  if ucr &&& maskCHR9 ≠ 0 then 11 else 10

/-- `uart_write` -/
def uartWrite (addr : Int) (val : Byte) : DevM Unit := do
  let uart ← getDev Peripherals.uart
  if addr = uart.udrAddr then
    setUARTIntr fun ti =>
      if ti.usr &&& maskUDRE ≠ 0 then
        { ti with usr := ti.usr &&& ~~~maskUDRE, usrShadow := ti.usrShadow &&& ~~~maskUDRE }
      else
        { ti with usr := ti.usr ||| maskUDRE, usrShadow := ti.usrShadow ||| maskUDRE }
    let ti ← getDev Peripherals.uartIntr
    setUART fun uart => { uart with udrTx := val, divisor := (ti.ubrr + 1) * 16 }
    setCbs fun cbs => cbs.ensure .uartClkIncrCb
    setUART fun uart => { uart with tcnt := uartFrame ti.ucr }
  else
    devError "Bad address: 0x%04x" [addr]

/-- `uart_reset` -/
def uartReset (p : Peripherals) : Peripherals :=
  { p with
    cbs := p.cbs.withdraw .uartClkIncrCb
    uart := { p.uart with udrRx := 0, udrTx := 0, tcnt := 0, divisor := 0 } }

/-- `(ck % divisor) == 0` -/
def isDivisibleBy (ck divisor : Nat) : Bool :=
  (BitVec.ofNat 64 ck).toNat % divisor = 0

/-- `uart_clk_incr_cb` -/
def uartClkIncrCb (ck : Nat) : DevM CbRet := do
  let uart ← getDev Peripherals.uart
  let ti ← getDev Peripherals.uartIntr
  let cbs ← getDev Peripherals.cbs
  if ¬ cbs.held .uartClkIncrCb then
    return .remove
  else if uart.divisor = 0 then
    devError "Bad divisor value: %d" [uart.divisor.toNat]
  else
    let tcnt := if isDivisibleBy ck uart.divisor.toNat then uart.tcnt - 1 else uart.tcnt
    setUART fun uart => { uart with tcnt := tcnt }
    -- `last` is a byte
    if tcnt ≠ (uart.tcnt.setWidth 8).setWidth 16 ∧ tcnt = 0 then
      if ti.usr &&& maskUDRE ≠ 0 then
        setUARTIntr fun ti => { ti with usr := ti.usr ||| maskTXC }
        setCbs fun cbs => cbs.withdraw .uartClkIncrCb
        return .remove
      else
        -- there's a byte waiting to go
        setUARTIntr fun ti =>
          { ti with usr := ti.usr ||| maskUDRE, usrShadow := ti.usrShadow ||| maskUDRE }
        setUART fun uart => { uart with tcnt := uartFrame ti.ucr }
        return .retain
    else
      return .retain

/-! ### What the methods change -/

section

variable {S : List IoVDev}

theorem setSPIIntr_touches
    (h : .spiIntr ∈ S) (f : SPIIntr → SPIIntr) :
  Touches S (setSPIIntr f)
  := .set (.spiIntr h f)

theorem setSPI_touches
    (h : .spi ∈ S) (f : SPI → SPI) :
  Touches S (setSPI f)
  := .set (.spi h f)

theorem setUARTIntr_touches
    (h : .uartIntr ∈ S) (f : UARTIntr → UARTIntr) :
  Touches S (setUARTIntr f)
  := .set (.uartIntr h f)

theorem setUART_touches
    (h : .uart ∈ S) (f : UART → UART) :
  Touches S (setUART f)
  := .set (.uart h f)

end

section

variable (addr : Int) (val : Byte)

theorem spiIntrRead_touches :
  Touches [.spiIntr] (spiIntrRead addr)
  := .get fun _ => .ite (.pure _) (.ite
    (.bind (.devIf (setSPIIntr_touches (.head _) _)) fun _ =>
      .bind (.devIf (setSPIIntr_touches (.head _) _)) fun _ => .pure _) (.error _ _))

theorem spiIntrWrite_touches :
  Touches [.spiIntr] (spiIntrWrite addr val)
  := .get fun _ => .ite (.bind (setSPIIntr_touches (.head _) _) fun _ =>
    .ite (.setCbs (.install .spiIntrCb (.head _))) (withdraw_touches (.head _))) (.error _ _)

theorem spiIntrCb_touches :
  Touches [.spiIntr] spiIntrCb
  := .get fun _ => .get fun _ => .ite (.pure _)
    (.ite (.bind (setSPIIntr_touches (.head _) _) fun _ => .pure _) (.pure _))

theorem spiRead_touches :
  Touches [.spi, .spiIntr] (spiRead addr)
  := .get fun _ => .ite (.bind (setSPIIntr_touches (.tail _ (.head _)) _) fun _ => .pure _)
    (.error _ _)

theorem spiWrite_touches :
  Touches [.spi, .spiIntr] (spiWrite addr val)
  := .get fun _ => .ite (.bind (setSPIIntr_touches (.tail _ (.head _)) _) fun _ =>
    .bind (.devIf (setSPIIntr_touches (.tail _ (.head _)) _)) fun _ => .get fun _ =>
    .bind (setSPI_touches (.head _) _) fun _ => .bind (ensure_touches (.head _)) fun _ =>
    .bind (.world _ _) fun _ => setSPI_touches (.head _) _) (.error _ _)

theorem spiClkIncrCb_touches
    (ck : Nat) :
  Touches [.spi, .spiIntr] (spiClkIncrCb ck)
  := .get fun _ => .get fun _ => .ite (.pure _) (.ite (.error _ _)
    (.bind (setSPI_touches (.head _) _) fun _ => .ite
      (.bind (setSPIIntr_touches (.tail _ (.head _)) _) fun _ =>
        .bind (setSPI_touches (.head _) _) fun _ => .bind (withdraw_touches (.head _)) fun _ =>
        .pure _) (.pure _)))

theorem uartIntrRead_touches :
  Touches [] (uartIntrRead addr)
  := .get fun _ => .ite (.pure _) (.ite (.pure _) (.ite (.pure _) (.ite (.pure _) (.error _ _))))

theorem uartIntrWrite_touches :
  Touches [.uartIntr] (uartIntrWrite addr val)
  := .get fun _ => .ite (setUARTIntr_touches (.head _) _) (.ite (setUARTIntr_touches (.head _) _)
    (.ite (.devIf (setUARTIntr_touches (.head _) _)) (.ite
      (.bind (setUARTIntr_touches (.head _) _) fun _ =>
        .ite (ensure_touches (.head _)) (withdraw_touches (.head _))) (.error _ _))))

theorem uartIntrCb_touches :
  Touches [.uartIntr] uartIntrCb
  := .get fun _ => .get fun _ => .ite (.pure _)
    (.bind (setUARTIntr_touches (.head _) _) fun _ => .pure _)

theorem uartReceive_touches :
  Touches [.uart, .uartIntr] uartReceive
  := .bind (.bind (.world _ _) fun _ => .pure _) fun _ =>
    .bind (setUART_touches (.head _) _) fun _ => setUARTIntr_touches (.tail _ (.head _)) _

theorem uartRead_touches :
  Touches [.uart, .uartIntr] (uartRead addr)
  := .get fun _ => .get fun _ => .ite
    (.bind (setUARTIntr_touches (.tail _ (.head _)) _) fun _ =>
      .bind (.devIf uartReceive_touches) fun _ => .get fun _ => .pure _) (.error _ _)

theorem uartWrite_touches :
  Touches [.uart, .uartIntr] (uartWrite addr val)
  := .get fun _ => .ite (.bind (setUARTIntr_touches (.tail _ (.head _)) _) fun _ =>
    .get fun _ => .bind (setUART_touches (.head _) _) fun _ =>
    .bind (ensure_touches (.head _)) fun _ => setUART_touches (.head _) _) (.error _ _)

theorem uartClkIncrCb_touches
    (ck : Nat) :
  Touches [.uart, .uartIntr] (uartClkIncrCb ck)
  := .get fun _ => .get fun _ => .get fun _ => .ite (.pure _) (.ite (.error _ _)
    (.bind (setUART_touches (.head _) _) fun _ => .ite
      (.ite
        (.bind (setUARTIntr_touches (.tail _ (.head _)) _) fun _ =>
          .bind (withdraw_touches (.head _)) fun _ => .pure _)
        (.bind (setUARTIntr_touches (.tail _ (.head _)) _) fun _ =>
          .bind (setUART_touches (.head _) _) fun _ => .pure _)) (.pure _)))

end

/-! ### What the resets change -/

theorem spiIntrReset_change :
  Change [.spiIntr] spiIntrReset
  := (Change.comp (S := [.spiIntr]) (.withdraw .spiIntrCb (.head _))
    (.spiIntr (.head _) fun spi => { spi with spcr := 0, spsr := 0, spsrRead := 0 }) :)

theorem spiReset_change :
  Change [.spi] spiReset
  := (Change.comp (S := [.spi]) (.withdraw .spiClkIncrCb (.head _))
    (.spi (.head _) fun spi => { spi with spdr := 0, tcnt := 0, divisor := 0 }) :)

theorem uartIntrReset_change :
  Change [.uartIntr] uartIntrReset
  := (Change.comp (S := [.uartIntr]) (.withdraw .uartIntrCb (.head _))
    (.uartIntr (.head _) fun uart =>
      { uart with ubrr := 0, usr := 0, ucr := 0, usrShadow := 0 }) :)

theorem uartReset_change :
  Change [.uart] uartReset
  := (Change.comp (S := [.uart]) (.withdraw .uartClkIncrCb (.head _))
    (.uart (.head _) fun uart =>
      { uart with udrRx := 0, udrTx := 0, tcnt := 0, divisor := 0 }) :)

end SimulAvr
