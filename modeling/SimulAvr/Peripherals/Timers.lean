import SimulAvr.Lib.BitMask
import SimulAvr.Peripherals.Touches

/-!
# Timers

The methods and callbacks of the timer interrupts, timer/counter 0, the 16-bit timer/counter and
its output compare registers.
-/

namespace SimulAvr

/-! ### Timer interrupts -/

/-- `mask_TOV0` -/
abbrev maskTOV0 : Byte := 0x02

/-- `mask_ICF1` -/
abbrev maskICF1 : Byte := 0x08

/-- `mask_OCF1B` -/
abbrev maskOCF1B : Byte := 0x20

/-- `mask_OCF1A` -/
abbrev maskOCF1A : Byte := 0x40

/-- `mask_TOV1` -/
abbrev maskTOV1 : Byte := 0x80

/-- A change of the timer interrupts. -/
def setTimerIntr (f : TimerIntr → TimerIntr) : DevM Unit :=
  setDev fun p => { p with timerIntr := f p.timerIntr }

/-- `timer_intr_read` -/
def timerIntrRead (addr : Int) : DevM Byte := do
  let ti ← getDev Peripherals.timerIntr
  if addr = ti.timskAddr then
    return ti.timsk &&& ti.funcMask
  else if addr = ti.tifrAddr then
    return ti.tifr &&& ti.funcMask
  else
    devError "Bad address: 0x%04x" [addr]

/-- `timer_intr_write` -/
def timerIntrWrite (addr : Int) (val : Byte) : DevM Unit := do
  let ti ← getDev Peripherals.timerIntr
  if addr = ti.timskAddr then
    setTimerIntr fun ti => { ti with timsk := val &&& ti.funcMask }
    if val &&& ti.funcMask = 0 then
      -- no interrupt are enabled, remove the callback
      setCbs fun cbs => cbs.withdraw .timerIntrCb
    else
      setCbs fun cbs => cbs.ensure .timerIntrCb
  else if addr = ti.tifrAddr then
    setTimerIntr fun ti => { ti with tifr := ti.tifr &&& ~~~(val &&& ti.funcMask) }
  else
    devError "Bad address: 0x%04x" [addr]

/-- `timer_intr_reset` -/
def timerIntrReset (p : Peripherals) : Peripherals :=
  { p with
    cbs := p.cbs.withdraw .timerIntrCb
    timerIntr := { p.timerIntr with timsk := 0, tifr := 0 } }

/-- An interrupt that a callback raises once, clearing its flag. -/
def timerIntrRaise (vect : IntVectTable) (mask : Byte) : DevM (CbRet × List DevEvent) := do
  setTimerIntr fun ti => { ti with tifr := ti.tifr &&& ~~~mask }
  return (.retain, [.irqRaise (irqVectTableIndex vect)])

/-- `timer_intr_cb` -/
def timerIntrCb : DevM (CbRet × List DevEvent) := do
  let ti ← getDev Peripherals.timerIntr
  let cbs ← getDev Peripherals.cbs
  let intrs := ti.timsk &&& ti.tifr &&& ti.funcMask
  if ¬ cbs.held .timerIntrCb then
    return (.remove, [])
  else if intrs = 0 then
    return (.retain, [])
  else if intrs &&& maskTOV0 ≠ 0 then
    timerIntrRaise .TIMER0_OVF maskTOV0
  else if intrs &&& maskICF1 ≠ 0 then
    timerIntrRaise .TIMER1_CAPT maskICF1
  else if intrs &&& maskOCF1B ≠ 0 then
    timerIntrRaise .TIMER1_COMPB maskOCF1B
  else if intrs &&& maskOCF1A ≠ 0 then
    timerIntrRaise .TIMER1_COMPA maskOCF1A
  else if intrs &&& maskTOV1 ≠ 0 then
    timerIntrRaise .TIMER1_OVF maskTOV1
  else
    devError "An invalid interrupt was flagged" []

/-- `timer_intr_set_flag` -/
def timerIntrSetFlag (bitnr : Byte) : DevM Unit :=
  setTimerIntr fun ti => { ti with tifr := ti.tifr ||| bitnr }

/-! ### The clock select bits -/

/-- The divisor that the clock select bits of a control register choose, `none` for
`CS_STOP`, with the text of the error for an external source. -/
def csDivisor (cs : Byte) (text : String) : Except DevError (Option Int) :=
  if cs = 0 then
    .ok none
  else if cs = 6 ∨ cs = 7 then
    .error { fmt := text, args := [] }
  else if cs = 1 then
    .ok (some 1)
  else if cs = 2 then
    .ok (some 8)
  else if cs = 3 then
    .ok (some 64)
  else if cs = 4 then
    .ok (some 256)
  else if cs = 5 then
    .ok (some 1024)
  else
    .error { fmt := "The impossible happened!", args := [] }

/-- `(ck & (divisor - 1)) == 0` -/
def isMultipleOf (ck : Nat) (divisor : Int) : Bool :=
  BitVec.ofNat 64 ck &&& BitVec.ofInt 64 (divisor - 1) = 0

/-- The test by the mask, for a power of two -/
theorem isMultipleOf_two_pow
    {k : Nat} (hk : k ≤ 64) (ck : Nat) :
  isMultipleOf ck (2 ^ k : Nat) = decide (2 ^ k ∣ ck)
  := by
  have hmask : BitVec.ofInt 64 ((2 ^ k : Nat) - 1) = BitVec.ofNat 64 (2 ^ k - 1) := by
    have hpos := Nat.two_pow_pos k
    rw [show ((2 ^ k : Nat) : Int) - 1 = (2 ^ k - 1 : Nat) by omega]
    exact BitVec.ofInt_natCast 64 _
  rw [isMultipleOf, hmask, decide_eq_decide]
  exact BitMask.ofNat_and_two_pow_sub_one_eq_zero_iff hk ck

/-- Run a computation that only may abort. -/
def liftDevError {α : Type} (x : Except DevError α) : DevM α :=
  fun p => x.map fun a => (a, p)

/-! ### Timer/Counter 0 -/

/-- A change of timer/counter 0. -/
def setTimer0 (f : Timer0 → Timer0) : DevM Unit :=
  setDev fun p => { p with timer0 := f p.timer0 }

/-- `timer0_read` -/
def timer0Read (addr : Int) : DevM Byte := do
  let timer ← getDev Peripherals.timer0
  if addr = timer.tcntAddr then
    return timer.tcnt
  else if addr = timer.tccrAddr then
    return timer.tccr
  else
    devError "Bad address: 0x%04x" [addr]

/-- `timer0_write`, where no external incrementor is ever installed -/
def timer0Write (addr : Int) (val : Byte) : DevM Unit := do
  let timer ← getDev Peripherals.timer0
  if addr = timer.tcntAddr then
    setTimer0 fun timer => { timer with tcnt := val }
  else if addr = timer.tccrAddr then
    setTimer0 fun timer => { timer with tccr := val &&& 0x07 }
    let divisor ← liftDevError
      (csDivisor (val &&& 0x07) "external timer/counter sources is not implemented yet")
    match divisor with
    | none =>
      setCbs fun cbs => cbs.withdraw .timer0ClkIncrCb
      setTimer0 fun timer => { timer with divisor := 0 }
    | some divisor =>
      setTimer0 fun timer => { timer with divisor := divisor }
      setCbs fun cbs => cbs.ensure .timer0ClkIncrCb
  else
    devError "Bad address: 0x%04x" [addr]

/-- `timer0_reset` -/
def timer0Reset (p : Peripherals) : Peripherals :=
  { p with
    cbs := p.cbs.withdraw .timer0ClkIncrCb
    timer0 := { p.timer0 with tccr := 0, tcnt := 0, divisor := 0 } }

/-- `timer0_clk_incr_cb` -/
def timer0ClkIncrCb (ck : Nat) : DevM CbRet := do
  let timer ← getDev Peripherals.timer0
  let cbs ← getDev Peripherals.cbs
  if ¬ cbs.held .timer0ClkIncrCb then
    return .remove
  else if timer.divisor ≤ 0 then
    devError "Bad divisor value: %d" [timer.divisor]
  else
    let tcnt := if isMultipleOf ck timer.divisor then timer.tcnt + 1 else timer.tcnt
    setTimer0 fun timer => { timer with tcnt := tcnt }
    devIf (tcnt = 0 ∧ tcnt ≠ timer.tcnt) (timerIntrSetFlag maskTOV0)
    return .retain

/-! ### Timer/Counter 1/3 (16 bit) -/

/-- A change of the 16-bit timer/counter. -/
def setTimer16 (f : Timer16 → Timer16) : DevM Unit :=
  setDev fun p => { p with timer16 := f p.timer16 }

/-- `timer16_read` -/
def timer16Read (addr : Int) : DevM Byte := do
  let timer ← getDev Peripherals.timer16
  if addr = timer.tcntlAddr then
    setTimer16 fun timer => { timer with temp := timer.tcnt.extractLsb' 8 8 }
    return timer.tcnt.extractLsb' 0 8
  else if addr = timer.tcnthAddr then
    return timer.temp
  else if addr = timer.tccraAddr then
    return timer.tccra
  else if addr = timer.tccrbAddr then
    return timer.tccrb
  else if addr = timer.tccrcAddr then
    return timer.tccrc
  else
    devError "Bad address: 0x%04x" [addr]

/-- `timer16_handle_tccr_write`, where no external incrementor is ever installed -/
def timer16HandleTccrWrite : DevM Unit := do
  let timer ← getDev Peripherals.timer16
  let divisor ← liftDevError
    (csDivisor (timer.tccrb &&& 0x07) "external timer/counter sources is not implementedyet")
  match divisor with
  | none =>
    setCbs fun cbs => cbs.withdraw .timer16ClkIncrCb
    setTimer16 fun timer => { timer with divisor := 0 }
  | some divisor =>
    setTimer16 fun timer => { timer with divisor := divisor }
    setCbs fun cbs => cbs.ensure .timer16ClkIncrCb

/-- `timer16_write` -/
def timer16Write (addr : Int) (val : Byte) : DevM Unit := do
  let timer ← getDev Peripherals.timer16
  if addr = timer.tcntlAddr then
    setTimer16 fun timer => { timer with tcnt := timer.temp ++ val }
  else if addr = timer.tcnthAddr then
    setTimer16 fun timer => { timer with temp := val }
  else if addr = timer.tccraAddr then
    setTimer16 fun timer => { timer with tccra := val }
    timer16HandleTccrWrite
  else if addr = timer.tccrbAddr then
    setTimer16 fun timer => { timer with tccrb := val }
    timer16HandleTccrWrite
  else if addr = timer.tccrcAddr then
    setTimer16 fun timer => { timer with tccrc := val }
    timer16HandleTccrWrite
  else
    devError "Bad address: 0x%04x" [addr]

/-- `timer16_reset` -/
def timer16Reset (p : Peripherals) : Peripherals :=
  { p with
    cbs := p.cbs.withdraw .timer16ClkIncrCb
    timer16 := { p.timer16 with tccra := 0, tccrb := 0, tccrc := 0, tcnt := 0, divisor := 0 } }

/-- The test of `timer16_clk_incr_cb` for an output compare register. -/
def timer16Compare (ocr : Option Nat) (tcnt : Word) (mask : Byte) : DevM Unit := do
  let ocreg16 ← getDev Peripherals.ocreg16
  match ocr with
  | none => return ()
  | some n => devIf (tcnt = (ocreg16 n).ocr) (timerIntrSetFlag mask)

/-- The flags that `timer16_clk_incr_cb` sets where it has changed the counter -/
def timer16Flags (timer : Timer16) (tcnt : Word) : DevM Unit := do
  devIf (tcnt = 0) (timerIntrSetFlag maskTOV1)
  timer16Compare timer.ocra tcnt maskOCF1A
  timer16Compare timer.ocrb tcnt maskOCF1B

/-- `timer16_clk_incr_cb` -/
def timer16ClkIncrCb (ck : Nat) : DevM CbRet := do
  let timer ← getDev Peripherals.timer16
  let cbs ← getDev Peripherals.cbs
  if ¬ cbs.held .timer16ClkIncrCb then
    return .remove
  else
    let tcnt := if isMultipleOf ck timer.divisor then timer.tcnt + 1 else timer.tcnt
    setTimer16 fun timer => { timer with tcnt := tcnt }
    if timer.divisor ≤ 0 then
      devError "Bad divisor value: %d" [timer.divisor]
    else
      devIf (tcnt ≠ timer.tcnt) (timer16Flags timer tcnt)
      return .retain

/-! ### Output compare registers -/

/-- A change of an output compare register. -/
def setOCReg16 (n : Nat) (f : OCReg16 → OCReg16) : DevM Unit :=
  setDev fun p => { p with ocreg16 := Function.update p.ocreg16 n (f (p.ocreg16 n)) }

/-- `ocreg16_read` -/
def ocreg16Read (n : Nat) (addr : Int) : DevM Byte := do
  let ocreg16 ← getDev Peripherals.ocreg16
  if addr = (ocreg16 n).ocrlAddr then
    return (ocreg16 n).ocr.extractLsb' 0 8
  else if addr = (ocreg16 n).ocrhAddr then
    return (ocreg16 n).ocr.extractLsb' 8 8
  else
    devError "Bad address: 0x%04x" [addr]

/-- `ocreg16_write` -/
def ocreg16Write (n : Nat) (addr : Int) (val : Byte) : DevM Unit := do
  let ocreg16 ← getDev Peripherals.ocreg16
  if addr = (ocreg16 n).ocrlAddr then
    setOCReg16 n fun ocreg => { ocreg with ocr := ocreg.temp ++ val }
  else if addr = (ocreg16 n).ocrhAddr then
    setOCReg16 n fun ocreg => { ocreg with temp := val }
  else
    devError "Bad address: 0x%04x" [addr]

/-- `ocreg16_reset` -/
def ocreg16Reset (n : Nat) (p : Peripherals) : Peripherals :=
  { p with ocreg16 := Function.update p.ocreg16 n { p.ocreg16 n with ocr := 0 } }

/-! ### What the methods change -/

section

variable {S : List IoVDev}

theorem setTimerIntr_touches
    (h : .timerIntr ∈ S) (f : TimerIntr → TimerIntr) :
  Touches S (setTimerIntr f)
  := .set (.timerIntr h f)

theorem setTimer0_touches
    (h : .timer0 ∈ S) (f : Timer0 → Timer0) :
  Touches S (setTimer0 f)
  := .set (.timer0 h f)

theorem setTimer16_touches
    (h : .timer16 ∈ S) (f : Timer16 → Timer16) :
  Touches S (setTimer16 f)
  := .set (.timer16 h f)

theorem setOCReg16_touches
    {n : Nat} (h : .ocreg16 n ∈ S) (f : OCReg16 → OCReg16) :
  Touches S (setOCReg16 n f)
  := .set (.ocreg16 h f)

/-- A device holds a callback, or none. -/
theorem ensure_touches
    {f : CallBackFP} (h : f.owner ∈ S) :
  Touches S (setCbs fun cbs => cbs.ensure f)
  := .setCbs (.ensure f h)

theorem withdraw_touches
    {f : CallBackFP} (h : f.owner ∈ S) :
  Touches S (setCbs fun cbs => cbs.withdraw f)
  := .setCbs (.withdraw f h)

theorem liftDevError_touches
    {α : Type} (x : Except DevError α) :
  Touches S (liftDevError x)
  := .lift x

end

section

variable (addr : Int) (val : Byte)

theorem timerIntrRead_touches :
  Touches [] (timerIntrRead addr)
  := .get fun _ => .ite (.pure _) (.ite (.pure _) (.error _ _))

theorem timerIntrWrite_touches :
  Touches [.timerIntr] (timerIntrWrite addr val)
  := .get fun _ => .ite
    (.bind (setTimerIntr_touches (.head _) _) fun _ =>
      .ite (withdraw_touches (.head _)) (ensure_touches (.head _)))
    (.ite (setTimerIntr_touches (.head _) _) (.error _ _))

theorem timerIntrRaise_touches
    (vect : IntVectTable) (mask : Byte) :
  Touches [.timerIntr] (timerIntrRaise vect mask)
  := .bind (setTimerIntr_touches (.head _) _) fun _ => .pure _

theorem timerIntrCb_touches :
  Touches [.timerIntr] timerIntrCb
  := .get fun _ => .get fun _ => .ite (.pure _) (.ite (.pure _) (.ite (timerIntrRaise_touches _ _)
    (.ite (timerIntrRaise_touches _ _) (.ite (timerIntrRaise_touches _ _)
      (.ite (timerIntrRaise_touches _ _) (.ite (timerIntrRaise_touches _ _) (.error _ _)))))))

theorem timer0Read_touches :
  Touches [] (timer0Read addr)
  := .get fun _ => .ite (.pure _) (.ite (.pure _) (.error _ _))

theorem timer0Write_touches :
  Touches [.timer0] (timer0Write addr val)
  := by
  apply Touches.get
  intro timer
  apply Touches.ite (setTimer0_touches (.head _) _)
  apply Touches.ite
  · apply Touches.bind (setTimer0_touches (.head _) _)
    intro _
    apply Touches.bind (liftDevError_touches _)
    intro divisor
    cases divisor with
    | none =>
      exact .bind (withdraw_touches (.head _)) fun _ => setTimer0_touches (.head _) _
    | some divisor =>
      exact .bind (setTimer0_touches (.head _) _) fun _ => ensure_touches (.head _)
  · apply Touches.error

theorem timer0ClkIncrCb_touches
    (ck : Nat) :
  Touches [.timer0, .timerIntr] (timer0ClkIncrCb ck)
  := .get fun _ => .get fun _ => .ite (.pure _) (.ite (.error _ _)
    (.bind (setTimer0_touches (.head _) _) fun _ =>
      .bind (.devIf (setTimerIntr_touches (.tail _ (.head _)) _)) fun _ => .pure _))

theorem timer16Read_touches :
  Touches [.timer16] (timer16Read addr)
  := .get fun _ => .ite (.bind (setTimer16_touches (.head _) _) fun _ => .pure _)
    (.ite (.pure _) (.ite (.pure _) (.ite (.pure _) (.ite (.pure _) (.error _ _)))))

theorem timer16HandleTccrWrite_touches :
  Touches [.timer16] timer16HandleTccrWrite
  := by
  apply Touches.get
  intro timer
  apply Touches.bind (liftDevError_touches _)
  intro divisor
  cases divisor with
  | none =>
    exact .bind (withdraw_touches (.head _)) fun _ => setTimer16_touches (.head _) _
  | some divisor =>
    exact .bind (setTimer16_touches (.head _) _) fun _ => ensure_touches (.head _)

theorem timer16Write_touches :
  Touches [.timer16] (timer16Write addr val)
  := by
  have htccr (f : Timer16 → Timer16) :
      Touches [.timer16] (do setTimer16 f; timer16HandleTccrWrite) :=
    .bind (setTimer16_touches (.head _) _) fun _ => timer16HandleTccrWrite_touches
  exact .get fun _ => .ite (setTimer16_touches (.head _) _) (.ite (setTimer16_touches (.head _) _)
    (.ite (htccr _) (.ite (htccr _) (.ite (htccr _) (.error _ _)))))

theorem timer16Compare_touches
    (ocr : Option Nat) (tcnt : Word) (mask : Byte) :
  Touches [.timer16, .timerIntr] (timer16Compare ocr tcnt mask)
  := by
  apply Touches.get
  intro ocreg16
  cases ocr with
  | none => apply Touches.pure
  | some n => exact .devIf (setTimerIntr_touches (.tail _ (.head _)) _)

theorem timer16ClkIncrCb_touches
    (ck : Nat) :
  Touches [.timer16, .timerIntr] (timer16ClkIncrCb ck)
  := .get fun _ => .get fun _ => .ite (.pure _)
    (.bind (setTimer16_touches (.head _) _) fun _ => .ite (.error _ _)
      (.bind (.devIf (.bind (.devIf (setTimerIntr_touches (.tail _ (.head _)) _)) fun _ =>
        .bind (timer16Compare_touches _ _ _) fun _ => timer16Compare_touches _ _ _))
        fun _ => .pure _))

theorem ocreg16Read_touches
    (n : Nat) :
  Touches [] (ocreg16Read n addr)
  := .get fun _ => .ite (.pure _) (.ite (.pure _) (.error _ _))

theorem ocreg16Write_touches
    (n : Nat) :
  Touches [.ocreg16 n] (ocreg16Write n addr val)
  := .get fun _ => .ite (setOCReg16_touches (.head _) _)
    (.ite (setOCReg16_touches (.head _) _) (.error _ _))

end

/-! ### What the resets change -/

theorem timerIntrReset_change :
  Change [.timerIntr] timerIntrReset
  := (Change.comp (S := [.timerIntr]) (.withdraw .timerIntrCb (.head _))
    (.timerIntr (.head _) fun ti => { ti with timsk := 0, tifr := 0 }) :)

theorem timer0Reset_change :
  Change [.timer0] timer0Reset
  := (Change.comp (S := [.timer0]) (.withdraw .timer0ClkIncrCb (.head _))
    (.timer0 (.head _) fun timer => { timer with tccr := 0, tcnt := 0, divisor := 0 }) :)

theorem timer16Reset_change :
  Change [.timer16] timer16Reset
  := (Change.comp (S := [.timer16]) (.withdraw .timer16ClkIncrCb (.head _))
    (.timer16 (.head _) fun timer =>
      { timer with tccra := 0, tccrb := 0, tccrc := 0, tcnt := 0, divisor := 0 }) :)

theorem ocreg16Reset_change
    (n : Nat) :
  Change [.ocreg16 n] (ocreg16Reset n)
  := .ocreg16 (.head _) fun ocreg => { ocreg with ocr := 0 }

end SimulAvr
