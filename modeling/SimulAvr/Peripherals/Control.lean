import SimulAvr.Peripherals.Serial

/-!
# A/D converter, watchdog and EEPROM

The methods and callbacks of the A/D converter, of the watchdog timer control register and of
the EEPROM.
-/

namespace SimulAvr

/-! ### A/D converter interrupts -/

/-- `mask_ADIE` -/
abbrev maskADIE : Byte := 0x08

/-- `mask_ADIF` -/
abbrev maskADIF : Byte := 0x10

/-- `mask_ADFR` -/
abbrev maskADFR : Byte := 0x20

/-- `mask_ADSC` -/
abbrev maskADSC : Byte := 0x40

/-- `mask_ADEN` -/
abbrev maskADEN : Byte := 0x80

/-- A change of the A/D converter interrupts. -/
def setADCIntr (f : ADCIntr → ADCIntr) : DevM Unit :=
  setDev fun p => { p with adcIntr := f p.adcIntr }

/-- A change of the A/D converter. -/
def setADC (f : ADC → ADC) : DevM Unit :=
  setDev fun p => { p with adc := f p.adc }

/-- `adc_intr_read` -/
def adcIntrRead (addr : Int) : DevM Byte := do
  let adc ← getDev Peripherals.adcIntr
  if addr = adc.adcsrAddr then
    return adc.adcsr
  else if addr = adc.admuxAddr then
    return adc.admux
  else
    devError "Bad address: 0x%04x" [addr]

/-- The divisor that the prescaler bits of the control register choose. -/
def adcDivisor (adcsr : Byte) : Word :=
  if adcsr &&& 0x07 = 0 ∨ adcsr &&& 0x07 = 1 then 2
  else if adcsr &&& 0x07 = 2 then 4
  else if adcsr &&& 0x07 = 3 then 8
  else if adcsr &&& 0x07 = 4 then 16
  else if adcsr &&& 0x07 = 5 then 32
  else if adcsr &&& 0x07 = 6 then 64
  else 128

/-- `adc_intr_write` -/
def adcIntrWrite (addr : Int) (val : Byte) : DevM Unit := do
  let adc ← getDev Peripherals.adcIntr
  if addr = adc.adcsrAddr then
    setADCIntr fun adc =>
      { adc with adcsr := if val &&& maskADIF ≠ 0 then val &&& ~~~maskADIF else val }
    if val &&& maskADSC ≠ 0 ∧ val &&& maskADEN ≠ 0 then
      setCbs fun cbs => cbs.ensure .adcIntrCb
      setCbs fun cbs => cbs.ensure .adcClkIncrCb
      setADC fun adc => { adc with adcCount := 13, divisor := adcDivisor val }
    else
      -- no interrupt are enabled, remove the callback
      setCbs fun cbs => cbs.withdraw .adcIntrCb
  else if addr = adc.admuxAddr then
    setADCIntr fun adc => { adc with admux := val }
  else
    devError "Bad address: 0x%04x" [addr]

/-- `adc_intr_reset` -/
def adcIntrReset (p : Peripherals) : Peripherals :=
  { p with
    cbs := p.cbs.withdraw .adcIntrCb
    adcIntr := { p.adcIntr with adcsr := 0, admux := 0 } }

/-- `adc_intr_cb` -/
def adcIntrCb : DevM (CbRet × List DevEvent) := do
  let adc ← getDev Peripherals.adcIntr
  let cbs ← getDev Peripherals.cbs
  if ¬ cbs.held .adcIntrCb then
    return (.remove, [])
  else if adc.adcsr &&& maskADEN ≠ 0 ∧ adc.adcsr &&& maskADIE ≠ 0 ∧
      adc.adcsr &&& maskADIF ≠ 0 then
    setADCIntr fun adc => { adc with adcsr := adc.adcsr &&& ~~~maskADIF }
    return (.retain, [.irqRaise (irqVectTableIndex .ADC)])
  else
    return (.retain, [])

/-! ### A/D converter -/

/-- `adc_read` -/
def adcRead (addr : Int) : DevM Byte := do
  let adc ← getDev Peripherals.adc
  if addr = adc.adclAddr then
    return adc.adcl
  else if addr = adc.adchAddr then
    return adc.adch
  else
    devError "Bad address: 0x%04x" [addr]

/-- `adc_write` -/
def adcWrite (addr : Int) : DevM Unit :=
  devError "Bad ADC write address: 0x%04x" [addr]

/-- `adc_reset` -/
def adcReset (p : Peripherals) : Peripherals :=
  { p with
    cbs := p.cbs.withdraw .adcClkIncrCb
    adc := { p.adc with adcl := 0, adch := 0, adcCount := 0, adcIn := 0, divisor := 0 } }

/-- `adc_clk_incr_cb` -/
def adcClkIncrCb (ck : Nat) : DevM CbRet := do
  let adc ← getDev Peripherals.adc
  let cbs ← getDev Peripherals.cbs
  if ¬ cbs.held .adcClkIncrCb then
    return .remove
  else if adc.divisor = 0 then
    devError "Bad divisor value: %d" [adc.divisor.toNat]
  else
    let count := if isDivisibleBy ck (adc.divisor.toNat * adc.uDivisor.toNat) then
      adc.adcCount - 1 else adc.adcCount
    setADC fun adc => { adc with adcCount := count }
    -- `last` is a byte
    if count ≠ (adc.adcCount.setWidth 8).setWidth 16 ∧ count = 0 then
      setADCIntr fun ti => { ti with adcsr := (ti.adcsr ||| maskADIF) &&& ~~~maskADSC }
      let data ← adcPortRd
      setADC fun adc =>
        { adc with
          adcIn := data, adcl := data.extractLsb' 0 8, adch := data.extractLsb' 8 8 &&& 0x03 }
      let ti ← getDev Peripherals.adcIntr
      if ti.adcsr &&& maskADFR ≠ 0 then
        -- free running mode
        setADC fun adc => { adc with adcCount := 13 }
        return .retain
      else
        setCbs fun cbs => cbs.withdraw .adcClkIncrCb
        return .remove
    else
      return .retain

/-! ### Watchdog timer control register -/

/-- `mask_WDP` -/
abbrev maskWDP : Byte := 0x07

/-- `mask_WDE` -/
abbrev maskWDE : Byte := 0x08

/-- `mask_WDTOE` -/
abbrev maskWDTOE : Byte := 0x10

/-- `TOE_CLKS`: WDTOE is cleared by HW 4 cycles after being set -/
abbrev toeClks : Int := 4

/-- `TIMEOUT_BASE` -/
abbrev timeoutBase : Int := 30

/-- A change of the watchdog timer control register. -/
def setWDTCR (f : WDTCR → WDTCR) : DevM Unit :=
  setDev fun p => { p with wdtcr := f p.wdtcr }

/-- `wdtcr_read` -/
def wdtcrRead : DevM Byte := do
  let reg ← getDev Peripherals.wdtcr
  return reg.wdtcr &&& reg.funcMask

/-- The value that a write to WDTCR puts there, before the mask: WDE can not be cleared if WDTOE
is zero. -/
def wdtcrLocked (reg : WDTCR) (val : Byte) : Byte :=
  if reg.funcMask &&& maskWDTOE ≠ 0 ∧ reg.wdtcr &&& maskWDE ≠ 0 ∧ reg.wdtcr &&& maskWDTOE = 0 then
    val ||| maskWDE
  else
    val

/-- The window of `TOE_CLKS` clocks that `wdtcr_write` opens where the program has set WDTOE -/
def wdtcrOpenWindow : DevM Unit := do
  setWDTCR fun reg => { reg with toeClk := toeClks }
  setCbs fun cbs => cbs.ensure .wdtcrToeClrCb

/-- `wdtcr_write` -/
def wdtcrWrite (val : Byte) : DevM Unit := do
  let reg ← getDev Peripherals.wdtcr
  let val := wdtcrLocked reg val
  devIf (reg.funcMask &&& maskWDTOE ≠ 0 ∧ val &&& maskWDTOE ≠ 0) wdtcrOpenWindow
  setWDTCR fun reg => { reg with wdtcr := val &&& reg.funcMask }
  devIf (reg.wdtcr &&& maskWDE = 0 ∧ val &&& maskWDE ≠ 0)
    (setCbs fun cbs => cbs.ensure .wdtcrTimerCb)
  devIf (reg.wdtcr &&& maskWDE ≠ 0 ∧ val &&& maskWDE = 0)
    (setCbs fun cbs => cbs.withdraw .wdtcrTimerCb)

/-- `wdtcr_reset`, with the time at which it happens -/
def wdtcrReset (p : Peripherals) : Peripherals :=
  { p with
    cbs := (p.cbs.withdraw .wdtcrTimerCb).withdraw .wdtcrToeClrCb
    wdtcr := { p.wdtcr with wdtcr := 0, lastWDR := p.world.programTime.head, toeClk := toeClks }
    world := { p.world with programTime := p.world.programTime.tail } }

/-- `wdtcr_timer_cb` -/
def wdtcrTimerCb (time : BitVec 64) : DevM (CbRet × List DevEvent) := do
  let reg ← getDev Peripherals.wdtcr
  let cbs ← getDev Peripherals.cbs
  if ¬ cbs.held .wdtcrTimerCb then
    return (.remove, [])
  else
    let timeDiff := time - reg.lastWDR
    let timeOut := BitVec.ofInt 64 (timeoutBase * 2 ^ (reg.wdtcr &&& maskWDP).toNat)
    if timeOut < timeDiff then
      -- reset the device, we timed out
      return (.retain, [.irqRaise (irqVectTableIndex .RESET)])
    else
      return (.retain, [])

/-- `wdtcr_toe_clr_cb` -/
def wdtcrToeClrCb : DevM CbRet := do
  let reg ← getDev Peripherals.wdtcr
  let cbs ← getDev Peripherals.cbs
  if ¬ cbs.held .wdtcrToeClrCb then
    return .remove
  else if reg.toeClk > 0 then
    setWDTCR fun reg => { reg with toeClk := reg.toeClk - 1 }
    return .retain
  else
    setWDTCR fun reg => { reg with wdtcr := reg.wdtcr &&& ~~~maskWDTOE &&& reg.funcMask }
    -- So we know that cb is not installed
    setCbs fun cbs => cbs.withdraw .wdtcrToeClrCb
    return .remove

/-! ### EEPROM -/

/-- `mask_EERE` -/
abbrev maskEERE : Byte := 0x01

/-- `mask_EEWE` -/
abbrev maskEEWE : Byte := 0x02

/-- `mask_EEMWE` -/
abbrev maskEEMWE : Byte := 0x04

/-- `EECR_ADDR` -/
abbrev eecrAddr : Int := 0x3c

/-- `EEDR_ADDR` -/
abbrev eedrAddr : Int := 0x3d

/-- `EEARL_ADDR` -/
abbrev eearlAddr : Int := 0x3e

/-- `EEARH_ADDR` -/
abbrev eearhAddr : Int := 0x3f

/-- `EEPROM_WR_OP_CLKS` -/
abbrev eepromWrOpClks : Int := 2500

/-- `EEPROM_MWE_CLKS` -/
abbrev eepromMweClks : Int := 4

/-- A change of the EEPROM. -/
def setEEProm (f : EEProm → EEProm) : DevM Unit :=
  setDev fun p => { p with eeprom := f p.eeprom }

/-- `(ee->eearh << 8) | ee->eearl` -/
def EEProm.addr (ee : EEProm) : Int :=
  (ee.eearh ++ ee.eearl : Word).toNat

/-- The call of `avr_error` of a method of the storage, whose errors are all calls of it -/
def AvrError.call : AvrError → DevError
  | .message fmt args => { fmt := fmt, args := args }
  | _ => { fmt := "", args := [] }

/-- A method of the storage of the EEPROM, which may abort. -/
def liftStorage {α : Type} (x : Except AvrError α) : DevM α :=
  liftDevError (x.mapError AvrError.call)

/-- `eeprom_reg_read` -/
def eepromRegRead (addr : Int) : DevM Byte := do
  let ee ← getDev Peripherals.eeprom
  if addr = eecrAddr then
    return ee.eecr
  else if addr = eedrAddr then
    return ee.eedr
  else if addr = eearlAddr then
    return ee.eearl
  else if addr = eearhAddr then
    return ee.eearh
  else
    devError "Bad address: %d" [addr]

/-- The start of a write operation by `eeprom_wr_eecr`, if the device has no MWE function or the
MWE bit is set. -/
def eepromStartWrite : DevM Unit := do
  let ee ← getDev Peripherals.eeprom
  if ee.eecrMask &&& maskEEMWE = 0 ∨ ee.eecr &&& ee.eecrMask &&& maskEEMWE ≠ 0 then
    setEEProm fun ee => { ee with eecr := ee.eecr ||| maskEEWE, wrOpClk := eepromWrOpClks }
    setCbs fun cbs => cbs.ensure .eepromWrOpCb
  else
    return ()

/-- `eeprom_wr_eecr` -/
def eepromWrEecr (val : Byte) : DevM Unit := do
  let ee ← getDev Peripherals.eeprom
  if val &&& ee.eecrMask = maskEERE then
    -- the EERE bit is never set
    let data ← liftStorage (storageReadb ee.stor ee.addr)
    setEEProm fun ee => { ee with eedr := data }
  else if val &&& ee.eecrMask = maskEEWE then
    eepromStartWrite
  else if val &&& ee.eecrMask = maskEEMWE then
    setEEProm fun ee => { ee with eecr := ee.eecr ||| maskEEMWE, mweClk := eepromMweClks }
    setCbs fun cbs => cbs.ensure .eepromMweClrCb
  else if val &&& ee.eecrMask = maskEEMWE ||| maskEEWE then
    -- the function calls itself, without EEMWE
    eepromStartWrite
  else
    devError "Unknown eeprom control register write operation: 0x%02x" [val.toNat]

/-- `eeprom_reg_write` -/
def eepromRegWrite (addr : Int) (val : Byte) : DevM Unit := do
  let ee ← getDev Peripherals.eeprom
  if ee.eecr &&& maskEEWE ≠ 0 then
    devError "Attempt to write to EEPROM I/O reg during write operation" []
  else if addr = eecrAddr then
    eepromWrEecr val
  else if addr = eedrAddr then
    setEEProm fun ee => { ee with eedr := val }
  else if addr = eearlAddr then
    setEEProm fun ee => { ee with eearl := val }
  else if addr = eearhAddr then
    setEEProm fun ee => { ee with eearh := val }
  else
    devError "Bad address: %d" [addr]

/-- `eeprom_reg_reset` -/
def eepromRegReset (p : Peripherals) : Peripherals :=
  { p with
    cbs := (p.cbs.withdraw .eepromWrOpCb).withdraw .eepromMweClrCb
    eeprom := { p.eeprom with
      wrOpClk := 0, mweClk := 0, eecr := 0, eedr := 0, eearl := 0, eearh := 0 } }

/-- `eeprom_wr_op_cb` -/
def eepromWrOpCb : DevM (CbRet × List DevEvent) := do
  let ee ← getDev Peripherals.eeprom
  if ee.wrOpClk > 0 then
    -- write is not complete yet
    setEEProm fun ee => { ee with wrOpClk := ee.wrOpClk - 1 }
    return (.retain, [])
  else
    let stor ← liftStorage (storageWriteb ee.stor ee.addr ee.eedr)
    setEEProm fun ee => { ee with stor := stor, eecr := ee.eecr &&& ~~~maskEEWE }
    setCbs fun cbs => cbs.withdraw .eepromWrOpCb
    return (.remove, [])

/-- `eeprom_mwe_clr_cb` -/
def eepromMweClrCb : DevM CbRet := do
  let ee ← getDev Peripherals.eeprom
  if ee.mweClk > 0 then
    setEEProm fun ee => { ee with mweClk := ee.mweClk - 1 }
    return .retain
  else
    setEEProm fun ee => { ee with eecr := ee.eecr &&& ~~~maskEEMWE }
    setCbs fun cbs => cbs.withdraw .eepromMweClrCb
    return .remove

/-! ### What the methods change -/

section

variable {S : List IoVDev}

theorem setADCIntr_touches
    (h : .adcIntr ∈ S) (f : ADCIntr → ADCIntr) :
  Touches S (setADCIntr f)
  := .set (.adcIntr h f)

theorem setADC_touches
    (h : .adc ∈ S) (f : ADC → ADC) :
  Touches S (setADC f)
  := .set (.adc h f)

theorem setWDTCR_touches
    (h : .wdtcr ∈ S) (f : WDTCR → WDTCR) :
  Touches S (setWDTCR f)
  := .set (.wdtcr h fun p => f p.wdtcr)

theorem setEEProm_touches
    (h : .eeprom ∈ S) (f : EEProm → EEProm) :
  Touches S (setEEProm f)
  := .set (.eeprom h f)

end

section

variable (addr : Int) (val : Byte)

theorem adcIntrRead_touches :
  Touches [] (adcIntrRead addr)
  := .get fun _ => .ite (.pure _) (.ite (.pure _) (.error _ _))

theorem adcIntrWrite_touches :
  Touches [.adcIntr, .adc] (adcIntrWrite addr val)
  := .get fun _ => .ite
    (.bind (setADCIntr_touches (.head _) _) fun _ => .ite
      (.bind (ensure_touches (.head _)) fun _ => .bind (ensure_touches (.tail _ (.head _))) fun _ =>
        setADC_touches (.tail _ (.head _)) _)
      (withdraw_touches (.head _)))
    (.ite (setADCIntr_touches (.head _) _) (.error _ _))

theorem adcIntrCb_touches :
  Touches [.adcIntr] adcIntrCb
  := .get fun _ => .get fun _ => .ite (.pure _)
    (.ite (.bind (setADCIntr_touches (.head _) _) fun _ => .pure _) (.pure _))

theorem adcRead_touches :
  Touches [] (adcRead addr)
  := .get fun _ => .ite (.pure _) (.ite (.pure _) (.error _ _))

theorem adcWrite_touches :
  Touches [.adc] (adcWrite addr)
  := .error _ _

theorem adcClkIncrCb_touches
    (ck : Nat) :
  Touches [.adc, .adcIntr] (adcClkIncrCb ck)
  := .get fun _ => .get fun _ => .ite (.pure _) (.ite (.error _ _)
    (.bind (setADC_touches (.head _) _) fun _ => .ite
      (.bind (setADCIntr_touches (.tail _ (.head _)) _) fun _ =>
        .bind (.bind (.world _ _) fun _ => .pure _) fun _ =>
        .bind (setADC_touches (.head _) _) fun _ => .get fun _ => .ite
          (.bind (setADC_touches (.head _) _) fun _ => .pure _)
          (.bind (withdraw_touches (.head _)) fun _ => .pure _)) (.pure _)))

theorem wdtcrRead_touches :
  Touches [] wdtcrRead
  := .get fun _ => .pure _

theorem wdtcrOpenWindow_touches :
  Touches [.wdtcr] wdtcrOpenWindow
  := .bind (setWDTCR_touches (.head _) _) fun _ => ensure_touches (.head _)

theorem wdtcrWrite_touches :
  Touches [.wdtcr] (wdtcrWrite val)
  := .get fun _ => .bind (.devIf wdtcrOpenWindow_touches) fun _ =>
    .bind (setWDTCR_touches (.head _) _) fun _ =>
    .bind (.devIf (ensure_touches (.head _))) fun _ => .devIf (withdraw_touches (.head _))

theorem wdtcrTimerCb_touches
    (time : BitVec 64) :
  Touches [] (wdtcrTimerCb time)
  := .get fun _ => .get fun _ => .ite (.pure _) (.ite (.pure _) (.pure _))

theorem wdtcrToeClrCb_touches :
  Touches [.wdtcr] wdtcrToeClrCb
  := .get fun _ => .get fun _ => .ite (.pure _) (.ite
    (.bind (setWDTCR_touches (.head _) _) fun _ => .pure _)
    (.bind (setWDTCR_touches (.head _) _) fun _ => .bind (withdraw_touches (.head _)) fun _ =>
      .pure _))

theorem eepromRegRead_touches :
  Touches [] (eepromRegRead addr)
  := .get fun _ => .ite (.pure _) (.ite (.pure _) (.ite (.pure _) (.ite (.pure _) (.error _ _))))

theorem eepromStartWrite_touches :
  Touches [.eeprom] eepromStartWrite
  := .get fun _ => .ite (.bind (setEEProm_touches (.head _) _) fun _ => ensure_touches (.head _))
    (.pure _)

theorem eepromWrEecr_touches :
  Touches [.eeprom] (eepromWrEecr val)
  := .get fun _ => .ite
    (.bind (liftDevError_touches _) fun _ => setEEProm_touches (.head _) _)
    (.ite eepromStartWrite_touches (.ite
      (.bind (setEEProm_touches (.head _) _) fun _ => ensure_touches (.head _))
      (.ite eepromStartWrite_touches (.error _ _))))

theorem eepromRegWrite_touches :
  Touches [.eeprom] (eepromRegWrite addr val)
  := .get fun _ => .ite (.error _ _) (.ite (eepromWrEecr_touches val)
    (.ite (setEEProm_touches (.head _) _) (.ite (setEEProm_touches (.head _) _)
      (.ite (setEEProm_touches (.head _) _) (.error _ _)))))

theorem eepromWrOpCb_touches :
  Touches [.eeprom] eepromWrOpCb
  := .get fun _ => .ite (.bind (setEEProm_touches (.head _) _) fun _ => .pure _)
    (.bind (liftDevError_touches _) fun _ => .bind (setEEProm_touches (.head _) _) fun _ =>
      .bind (withdraw_touches (.head _)) fun _ => .pure _)

theorem eepromMweClrCb_touches :
  Touches [.eeprom] eepromMweClrCb
  := .get fun _ => .ite (.bind (setEEProm_touches (.head _) _) fun _ => .pure _)
    (.bind (setEEProm_touches (.head _) _) fun _ => .bind (withdraw_touches (.head _)) fun _ =>
      .pure _)

end

/-! ### What the resets change -/

theorem adcIntrReset_change :
  Change [.adcIntr] adcIntrReset
  := (Change.comp (S := [.adcIntr]) (.withdraw .adcIntrCb (.head _))
    (.adcIntr (.head _) fun adc => { adc with adcsr := 0, admux := 0 }) :)

theorem adcReset_change :
  Change [.adc] adcReset
  := (Change.comp (S := [.adc]) (.withdraw .adcClkIncrCb (.head _))
    (.adc (.head _) fun adc =>
      { adc with adcl := 0, adch := 0, adcCount := 0, adcIn := 0, divisor := 0 }) :)

theorem wdtcrReset_change :
  Change [.wdtcr] wdtcrReset
  := (Change.comp (S := [.wdtcr])
    (.comp (.withdraw .wdtcrTimerCb (.head _)) (.withdraw .wdtcrToeClrCb (.head _)))
    (.comp (.wdtcr (.head _) fun p =>
        { p.wdtcr with wdtcr := 0, lastWDR := p.world.programTime.head, toeClk := toeClks })
      (.world fun p => { p.world with programTime := p.world.programTime.tail })) :)

theorem eepromRegReset_change :
  Change [.eeprom] eepromRegReset
  := (Change.comp (S := [.eeprom])
    (.comp (.withdraw .eepromWrOpCb (.head _)) (.withdraw .eepromMweClrCb (.head _)))
    (.eeprom (.head _) fun ee =>
      { ee with wrOpClk := 0, mweClk := 0, eecr := 0, eedr := 0, eearl := 0, eearh := 0 }) :)

end SimulAvr
