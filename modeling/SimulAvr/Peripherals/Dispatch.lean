import SimulAvr.Lib.CallbackList
import SimulAvr.Lib.Runs
import SimulAvr.Peripherals.Control
import SimulAvr.Peripherals.Ports

/-!
# The peripherals of a core

The methods of the virtual device that is attached to an address, and the passes over the lists
of callbacks: the peripherals of a core.  A device reaches the devices that its methods and its
callbacks change (`IoVDev.read_touches`, `callbackExecute_touches`).
-/

namespace SimulAvr

open Program CallbackList

/-! ### Methods -/

/-- The access becomes part of the history. -/
def record (a : DevAccess) : DevM Unit :=
  setDev fun p => { p with history := p.history ++ [a] }

/-- The read method of a device -/
def IoVDev.read (d : IoVDev) (addr : Int) : DevM Byte :=
  match d with
  | timerIntr => timerIntrRead addr
  | timer0 => timer0Read addr
  | timer16 => timer16Read addr
  | ocreg16 n => ocreg16Read n addr
  | spiIntr => spiIntrRead addr
  | spi => spiRead addr
  | uartIntr => uartIntrRead addr
  | uart => uartRead addr
  | adcIntr => adcIntrRead addr
  | adc => adcRead addr
  | wdtcr => wdtcrRead
  | eeprom => eepromRegRead addr
  | port n => portRegRead n addr
  | usbIntr => usbIntrRead addr
  | usb => usbRead addr
  | oseid => oseidRead addr

/-- The write method of a device -/
def IoVDev.write (d : IoVDev) (addr : Int) (val : Byte) : DevM Unit :=
  match d with
  | timerIntr => timerIntrWrite addr val
  | timer0 => timer0Write addr val
  | timer16 => timer16Write addr val
  | ocreg16 n => ocreg16Write n addr val
  | spiIntr => spiIntrWrite addr val
  | spi => spiWrite addr val
  | uartIntr => uartIntrWrite addr val
  | uart => uartWrite addr val
  | adcIntr => adcIntrWrite addr val
  | adc => adcWrite addr
  | wdtcr => wdtcrWrite val
  | eeprom => eepromRegWrite addr val
  | port n => portRegWrite n addr val
  | usbIntr => usbIntrWrite addr val
  | usb => usbWrite addr val
  | oseid => oseidWrite addr val

/-- The reset method of a device -/
def IoVDev.reset : IoVDev → Peripherals → Peripherals
  | timerIntr => timerIntrReset
  | timer0 => timer0Reset
  | timer16 => timer16Reset
  | ocreg16 n => ocreg16Reset n
  | spiIntr => spiIntrReset
  | spi => spiReset
  | uartIntr => uartIntrReset
  | uart => uartReset
  | adcIntr => adcIntrReset
  | adc => adcReset
  | wdtcr => wdtcrReset
  | eeprom => eepromRegReset
  | port n => portReset n
  | usbIntr => usbIntrReset
  | usb => usbReset
  | oseid => oseidReset

/-- `vdev_read`, of the device at an address -/
def devRead (addr : Int) : DevM Byte := do
  record (.read addr)
  let vdevAt ← getDev Peripherals.vdevAt
  match vdevAt addr with
  | none => return 0
  | some d => d.read addr

/-- `vdev_write`, of the device at an address -/
def devWrite (addr : Int) (val : Byte) : DevM Unit := do
  record (.write addr val)
  let vdevAt ← getDev Peripherals.vdevAt
  match vdevAt addr with
  | none => return ()
  | some d => d.write addr val

/-- `vdev_reset`, of the device at an address -/
def devReset (addr : Int) (p : Peripherals) : Peripherals :=
  let p := { p with history := p.history ++ [DevAccess.reset addr] }
  match p.vdevAt addr with
  | none => p
  | some d => d.reset p

/-! ### Callbacks -/

/-- A callback of the clock raises no interrupt. -/
def clkCallback (x : DevM CbRet) : DevM (CbRet × List DevEvent) := do
  let ret ← x
  return (ret, [])

/-- The function of a callback -/
def CallBackFP.func (f : CallBackFP) (time : Nat) : DevM (CbRet × List DevEvent) :=
  match f with
  | timerIntrCb => SimulAvr.timerIntrCb
  | timer0ClkIncrCb => clkCallback (SimulAvr.timer0ClkIncrCb time)
  | timer16ClkIncrCb => clkCallback (SimulAvr.timer16ClkIncrCb time)
  | spiIntrCb => SimulAvr.spiIntrCb
  | spiClkIncrCb => clkCallback (SimulAvr.spiClkIncrCb time)
  | uartIntrCb => SimulAvr.uartIntrCb
  | uartClkIncrCb => clkCallback (SimulAvr.uartClkIncrCb time)
  | adcIntrCb => SimulAvr.adcIntrCb
  | adcClkIncrCb => clkCallback (SimulAvr.adcClkIncrCb time)
  | wdtcrTimerCb => SimulAvr.wdtcrTimerCb (.ofNat 64 time)
  | wdtcrToeClrCb => clkCallback SimulAvr.wdtcrToeClrCb
  | eepromWrOpCb => SimulAvr.eepromWrOpCb
  | eepromMweClrCb => clkCallback SimulAvr.eepromMweClrCb

/-- `callback_execute`, which says whether the callback is to be removed -/
def callbackExecute (time : Nat) (f : CallBackFP) : DevM (Bool × List DevEvent) := do
  let r ← f.func time
  return (decide (r.1 = .remove), r.2)

/-- A callback of the clock -/
theorem callbackExecute_clk
    {time : Nat} {f : CallBackFP} {x : DevM CbRet} {P : Peripherals → Prop}
    {Q : Bool → Peripherals → Prop} {E : DevError → Prop} (hf : f.func time = clkCallback x)
    (hx : Triple P x (fun ret => Q (decide (ret = .remove))) E) :
  Triple P (callbackExecute time f) (fun r => Q r.1) E
  := by
  rw [callbackExecute, hf, clkCallback]
  apply Triple.bind (Q := fun r => Q (decide (r.1 = .remove)))
  · apply Triple.bind hx
    intro ret
    exact Triple.pure fun _ h => h
  · intro r
    exact Triple.pure fun _ h => h

/-- `callback_list_execute_all` -/
def callbackListExecuteAll (time : Nat) (fs : List CallBackFP) :
    DevM (List CallBackFP × List DevEvent) :=
  pass (callbackExecute time) fs

/-- `avr_core_clk_cb_exec` -/
def clkCbExec (ck : Nat) : DevM (List DevEvent) := do
  let cbs ← getDev Peripherals.cbs
  let r ← callbackListExecuteAll ck cbs.clkCb
  setCbs fun cbs => { cbs with clkCb := r.1 }
  return r.2

/-- `avr_core_async_cb_exec` -/
def asyncCbExec : DevM (List DevEvent) := do
  let time ← getProgramTime
  let cbs ← getDev Peripherals.cbs
  let r ← callbackListExecuteAll time.toNat cbs.asyncCb
  setCbs fun cbs => { cbs with asyncCb := r.1 }
  return r.2

instance : IoDevices Peripherals where
  read addr p := (devRead addr).run p
  write addr val p := ((devWrite addr val).run p).map Prod.snd
  reset := devReset
  gdbEeRead _ _ := 0
  gdbEeWrite _ _ p := p
  clkCbExec ck p := ((clkCbExec ck).run p).map Prod.swap
  asyncCbExec p := (asyncCbExec.run p).map Prod.swap

/-! ### What a device reaches -/

/-- The devices that a read of a register changes -/
def IoVDev.readReach : IoVDev → List IoVDev
  | timer16 => [timer16]
  | spiIntr => [spiIntr]
  | spi => [spi, spiIntr]
  | uart => [uart, uartIntr]
  | usbIntr => [usbIntr]
  | usb => [usb]
  | oseid => [oseid]
  | _ => []

theorem IoVDev.read_touches
    (d : IoVDev) (addr : Int) :
  Touches d.readReach (d.read addr)
  := by
  cases d with
  | timerIntr => apply timerIntrRead_touches
  | timer0 => apply timer0Read_touches
  | timer16 => apply timer16Read_touches
  | ocreg16 n => apply ocreg16Read_touches
  | spiIntr => apply spiIntrRead_touches
  | spi => apply spiRead_touches
  | uartIntr => apply uartIntrRead_touches
  | uart => apply uartRead_touches
  | adcIntr => apply adcIntrRead_touches
  | adc => apply adcRead_touches
  | wdtcr => apply wdtcrRead_touches
  | eeprom => apply eepromRegRead_touches
  | port n => apply portRegRead_touches
  | usbIntr => apply usbIntrRead_touches
  | usb => apply usbRead_touches
  | oseid => apply oseidRead_touches

/-- The devices that a write to a register and a reset change -/
def IoVDev.reach : IoVDev → List IoVDev
  | spi => [spi, spiIntr]
  | uart => [uart, uartIntr]
  | adcIntr => [adcIntr, adc]
  | d => [d]

theorem IoVDev.write_touches
    (d : IoVDev) (addr : Int) (val : Byte) :
  Touches d.reach (d.write addr val)
  := by
  cases d with
  | timerIntr => apply timerIntrWrite_touches
  | timer0 => apply timer0Write_touches
  | timer16 => apply timer16Write_touches
  | ocreg16 n => apply ocreg16Write_touches
  | spiIntr => apply spiIntrWrite_touches
  | spi => apply spiWrite_touches
  | uartIntr => apply uartIntrWrite_touches
  | uart => apply uartWrite_touches
  | adcIntr => apply adcIntrWrite_touches
  | adc => apply adcWrite_touches
  | wdtcr => apply wdtcrWrite_touches
  | eeprom => apply eepromRegWrite_touches
  | port n => apply portRegWrite_touches
  | usbIntr => apply usbIntrWrite_touches
  | usb => apply usbWrite_touches
  | oseid => apply oseidWrite_touches

theorem IoVDev.reset_change
    (d : IoVDev) :
  Change d.reach d.reset
  := by
  cases d with
  | timerIntr => apply timerIntrReset_change
  | timer0 => apply timer0Reset_change
  | timer16 => apply timer16Reset_change
  | ocreg16 n => apply ocreg16Reset_change
  | spiIntr => apply spiIntrReset_change
  | spi => apply spiReset_change.mono (by simp [reach])
  | uartIntr => apply uartIntrReset_change
  | uart => apply uartReset_change.mono (by simp [reach])
  | adcIntr => apply adcIntrReset_change.mono (by simp [reach])
  | adc => apply adcReset_change
  | wdtcr => apply wdtcrReset_change
  | eeprom => apply eepromRegReset_change
  | port n => apply portReset_change
  | usbIntr => apply usbIntrReset_change
  | usb => apply usbReset_change
  | oseid => apply oseidReset_change

/-- The devices that a callback changes -/
def CallBackFP.reach : CallBackFP → List IoVDev
  | timer0ClkIncrCb => [.timer0, .timerIntr]
  | timer16ClkIncrCb => [.timer16, .timerIntr]
  | spiClkIncrCb => [.spi, .spiIntr]
  | uartClkIncrCb => [.uart, .uartIntr]
  | adcClkIncrCb => [.adc, .adcIntr]
  | wdtcrTimerCb => []
  | f => [f.owner]

theorem clkCallback_touches
    {S : List IoVDev} {x : DevM CbRet} (h : Touches S x) :
  Touches S (clkCallback x)
  := .bind h fun _ => .pure _

theorem callbackExecute_touches
    (time : Nat) (f : CallBackFP) :
  Touches f.reach (callbackExecute time f)
  := by
  apply Touches.bind _ fun _ => .pure _
  cases f with
  | timerIntrCb => apply timerIntrCb_touches
  | timer0ClkIncrCb => apply clkCallback_touches (timer0ClkIncrCb_touches time)
  | timer16ClkIncrCb => apply clkCallback_touches (timer16ClkIncrCb_touches time)
  | spiIntrCb => apply spiIntrCb_touches
  | spiClkIncrCb => apply clkCallback_touches (spiClkIncrCb_touches time)
  | uartIntrCb => apply uartIntrCb_touches
  | uartClkIncrCb => apply clkCallback_touches (uartClkIncrCb_touches time)
  | adcIntrCb => apply adcIntrCb_touches
  | adcClkIncrCb => apply clkCallback_touches (adcClkIncrCb_touches time)
  | wdtcrTimerCb => apply wdtcrTimerCb_touches
  | wdtcrToeClrCb => apply clkCallback_touches wdtcrToeClrCb_touches
  | eepromWrOpCb => apply eepromWrOpCb_touches
  | eepromMweClrCb => apply clkCallback_touches eepromMweClrCb_touches

/-! ### Runs -/

/-- What happens to the peripherals: accesses to the register at an address, resets of its
device, ticks of the clock and passes over the asynchronous callbacks -/
inductive IoEvent where
  | read (addr : Int)
  | write (addr : Int) (val : Byte)
  | reset (addr : Int)
  | tick (ck : Nat)
  | async

namespace IoEvent

/-- The event writes to a register of a device. -/
def writesTo (d : IoVDev) (p : Peripherals) : IoEvent → Bool
  | write addr _ => p.vdevAt addr = some d
  | _ => false

/-- The event resets a device. -/
def resets (d : IoVDev) (p : Peripherals) : IoEvent → Bool
  | reset addr => p.vdevAt addr = some d
  | _ => false

/-- The event is a tick of the clock. -/
def isTick : IoEvent → Bool
  | tick _ => true
  | _ => false

end IoEvent

/-- The steps of the peripherals; none where the simulator aborts -/
inductive IoStep : IoEvent → Peripherals → Peripherals → Prop where
  | read {addr : Int} {val : Byte} {p q : Peripherals} (h : (devRead addr).run p = .ok (val, q)) :
      IoStep (.read addr) p q
  | write {addr : Int} {val : Byte} {p q : Peripherals}
      (h : (devWrite addr val).run p = .ok ((), q)) : IoStep (.write addr val) p q
  | reset {addr : Int} {p : Peripherals} : IoStep (.reset addr) p (devReset addr p)
  | tick {ck : Nat} {events : List DevEvent} {p q : Peripherals}
      (h : (clkCbExec ck).run p = .ok (events, q)) : IoStep (.tick ck) p q
  | async {events : List DevEvent} {p q : Peripherals}
      (h : asyncCbExec.run p = .ok (events, q)) : IoStep .async p q

/-- The state after an event; none where the simulator aborts -/
def IoEvent.next (e : IoEvent) (p : Peripherals) : Option Peripherals :=
  match e with
  | read addr => ((devRead addr).run p).toOption.map Prod.snd
  | write addr val => ((devWrite addr val).run p).toOption.map Prod.snd
  | reset addr => some (devReset addr p)
  | tick ck => ((SimulAvr.clkCbExec ck).run p).toOption.map Prod.snd
  | async => (SimulAvr.asyncCbExec.run p).toOption.map Prod.snd

theorem IoStep.of_next
    (e : IoEvent) (p q : Peripherals) (h : e.next p = some q) :
  IoStep e p q
  := by
  have hrun {α : Type} {x : DevM α} (hx : (x.run p).toOption.map Prod.snd = some q) :
      ∃ a, x.run p = .ok (a, q) := by
    rcases hres : x.run p with e | ⟨a, s⟩
    · rw [hres] at hx
      contradiction
    · rw [hres] at hx
      cases hx
      use a
  cases e with
  | read addr =>
    obtain ⟨val, h⟩ := hrun h
    exact .read h
  | write addr val =>
    obtain ⟨_, h⟩ := hrun h
    exact .write h
  | reset addr =>
    cases h
    exact .reset
  | tick ck =>
    obtain ⟨events, h⟩ := hrun h
    exact .tick h
  | async =>
    obtain ⟨events, h⟩ := hrun h
    exact .async h

/-- A read at an address without a device -/
theorem devRead_none
    {addr : Int} {p : Peripherals} (hat : p.vdevAt addr = none) :
  (devRead addr).run p = .ok (0, { p with history := p.history ++ [.read addr] })
  := by
  rw [devRead, run_bind_of_ok rfl, run_bind_of_ok rfl]
  change StateT.run (match p.vdevAt addr with | none => _ | some d => _) _ = _
  rw [hat]
  rfl

/-- A write at an address without a device -/
theorem devWrite_none
    {addr : Int} {p : Peripherals} (hat : p.vdevAt addr = none) (val : Byte) :
  (devWrite addr val).run p = .ok ((), { p with history := p.history ++ [.write addr val] })
  := by
  rw [devWrite, run_bind_of_ok rfl, run_bind_of_ok rfl]
  change StateT.run (match p.vdevAt addr with | none => _ | some d => _) _ = _
  rw [hat]
  rfl

/-- A read of the register at the address of a device -/
theorem devRead_at
    {addr : Int} {d : IoVDev} {p : Peripherals} (hat : p.vdevAt addr = some d) :
  (devRead addr).run p = (d.read addr).run { p with history := p.history ++ [.read addr] }
  := by
  rw [devRead, run_bind_of_ok rfl, run_bind_of_ok rfl]
  change StateT.run (match p.vdevAt addr with | none => _ | some d => _) _ = _
  rw [hat]

/-- A write to the register at the address of a device -/
theorem devWrite_at
    {addr : Int} {d : IoVDev} {p : Peripherals} (hat : p.vdevAt addr = some d) (val : Byte) :
  (devWrite addr val).run p
    = (d.write addr val).run { p with history := p.history ++ [.write addr val] }
  := by
  rw [devWrite, run_bind_of_ok rfl, run_bind_of_ok rfl]
  change StateT.run (match p.vdevAt addr with | none => _ | some d => _) _ = _
  rw [hat]

/-- A reset at an address without a device -/
theorem devReset_none
    {addr : Int} {p : Peripherals} (hat : p.vdevAt addr = none) :
  devReset addr p = { p with history := p.history ++ [.reset addr] }
  := by
  rw [devReset]
  change (match p.vdevAt addr with | none => _ | some d => _) = _
  rw [hat]

/-- A reset of the device at an address -/
theorem devReset_at
    {addr : Int} {d : IoVDev} {p : Peripherals} (hat : p.vdevAt addr = some d) :
  devReset addr p = d.reset { p with history := p.history ++ [.reset addr] }
  := by
  rw [devReset]
  change (match p.vdevAt addr with | none => _ | some d => _) = _
  rw [hat]

/-- A tick of the clock is a pass over the callbacks of the clock. -/
theorem IoStep.tick_pass
    {ck : Nat} {p q : Peripherals} (h : IoStep (.tick ck) p q) :
  ∃ r s, (callbackListExecuteAll ck p.cbs.clkCb).run p = .ok (r, s)
    ∧ q = { s with cbs := { s.cbs with clkCb := r.1 } }
  := by
  cases h with
  | tick h =>
    rw [clkCbExec, run_bind_of_ok rfl, run_bind_eq_ok] at h
    obtain ⟨r, s, hpass, h⟩ := h
    cases h
    use r, s, hpass

/-- A pass over the asynchronous callbacks, before which the core reads the time -/
theorem asyncCbExec_pass
    {events : List DevEvent} {p q : Peripherals} (h : asyncCbExec.run p = .ok (events, q)) :
  ∃ time world r s,
    (callbackListExecuteAll time p.cbs.asyncCb).run { p with world := world } = .ok (r, s)
      ∧ r.2 = events ∧ q = { s with cbs := { s.cbs with asyncCb := r.1 } }
  := by
  rw [asyncCbExec, run_bind_of_ok rfl, run_bind_of_ok rfl, run_bind_eq_ok] at h
  obtain ⟨r, s, hpass, h⟩ := h
  cases h
  exact ⟨_, _, r, s, hpass, rfl, rfl⟩

theorem IoStep.async_pass
    {p q : Peripherals} (h : IoStep .async p q) :
  ∃ time world r s,
    (callbackListExecuteAll time p.cbs.asyncCb).run { p with world := world } = .ok (r, s)
      ∧ q = { s with cbs := { s.cbs with asyncCb := r.1 } }
  := by
  cases h with
  | async h =>
    obtain ⟨time, world, r, s, hpass, -, rfl⟩ := asyncCbExec_pass h
    exact ⟨time, world, r, s, hpass, rfl⟩

/-- The event is an access to a register. -/
def IoEvent.isAccess : IoEvent → Bool
  | .read _ | .write _ _ | .reset _ => true
  | .tick _ | .async => false

/-- An access keeps what the method it calls keeps. -/
theorem IoStep.access_keeps
    {I : Peripherals → Prop} {e : IoEvent} {p q : Peripherals} (hstep : IoStep e p q)
    (haccess : e.isAccess = true) (hghost : ∀ p history, I p → I { p with history := history })
    (hread : ∀ addr d, e = .read addr → p.vdevAt addr = some d →
      Keeps I (fun _ => True) (d.read addr))
    (hwrite : ∀ addr val d, e = .write addr val → p.vdevAt addr = some d →
      Keeps I (fun _ => True) (d.write addr val))
    (hreset : ∀ addr d, e = .reset addr → p.vdevAt addr = some d → ∀ p, I p → I (d.reset p))
    (hp : I p) :
  I q
  := by
  cases hstep with
  | @read addr val _ _ h =>
    cases hat : p.vdevAt addr with
    | none =>
      rw [devRead, run_bind_of_ok rfl, run_bind_of_ok rfl] at h
      change StateT.run (match p.vdevAt addr with | none => _ | some d => _) _ = _ at h
      rw [hat] at h
      cases h
      exact hghost p _ hp
    | some d =>
      rw [devRead_at hat] at h
      exact (hread addr d rfl hat).of_ok (hghost p _ hp) h
  | @write addr val _ _ h =>
    cases hat : p.vdevAt addr with
    | none =>
      rw [devWrite, run_bind_of_ok rfl, run_bind_of_ok rfl] at h
      change StateT.run (match p.vdevAt addr with | none => _ | some d => _) _ = _ at h
      rw [hat] at h
      cases h
      exact hghost p _ hp
    | some d =>
      rw [devWrite_at hat] at h
      exact (hwrite addr val d rfl hat).of_ok (hghost p _ hp) h
  | @reset addr =>
    cases hat : p.vdevAt addr with
    | none =>
      rw [devReset]
      change I (match p.vdevAt addr with | none => _ | some d => _)
      rw [hat]
      exact hghost p _ hp
    | some d =>
      rw [devReset_at hat]
      exact hreset addr d rfl hat _ (hghost p _ hp)
  | tick | async => contradiction

/-- An access leaves a part that the method it calls leaves. -/
theorem IoStep.access_leaves
    {β : Type} {part : Peripherals → β} {e : IoEvent} {p q : Peripherals} (hstep : IoStep e p q)
    (haccess : e.isAccess = true)
    (hghost : ∀ p history, part { p with history := history } = part p)
    (hread : ∀ addr d, e = .read addr → p.vdevAt addr = some d → Leaves part (d.read addr))
    (hwrite : ∀ addr val d, e = .write addr val → p.vdevAt addr = some d →
      Leaves part (d.write addr val))
    (hreset : ∀ addr d, e = .reset addr → p.vdevAt addr = some d → ∀ p, part (d.reset p) = part p) :
  part q = part p
  := by
  apply hstep.access_keeps (I := fun s => part s = part p) haccess _ _ _ _ rfl
  · exact fun s history hs => (hghost s history).trans hs
  · exact fun addr d he hat => hread addr d he hat _
  · exact fun addr val d he hat => hwrite addr val d he hat _
  · exact fun addr d he hat s hs => (hreset addr d he hat s).trans hs

/-- A tick keeps what the callbacks of its list keep, and drops callbacks only. -/
theorem IoStep.tick_keeps
    {I : Peripherals → Prop} {ck : Nat} {p q : Peripherals} (hstep : IoStep (.tick ck) p q)
    (hlist : ∀ p cbs, I p → I { p with cbs := { p.cbs with clkCb := cbs } })
    (hcallback : ∀ f ∈ p.cbs.clkCb, Keeps I (fun _ => True) (callbackExecute ck f)) (hp : I p) :
  I q ∧ q.cbs.clkCb.Sublist p.cbs.clkCb
  := by
  obtain ⟨r, s, hpass, rfl⟩ := hstep.tick_pass
  obtain ⟨hs, hsub⟩ := (pass_keeps hcallback).of_ok hp hpass
  exact ⟨hlist s r.1 hs, hsub⟩

/-- A tick leaves a part that the callbacks of its list leave. -/
theorem IoStep.tick_leaves
    {β : Type} {part : Peripherals → β} {ck : Nat} {p q : Peripherals}
    (hstep : IoStep (.tick ck) p q)
    (hlist : ∀ p cbs, part { p with cbs := { p.cbs with clkCb := cbs } } = part p)
    (hcallback : ∀ f ∈ p.cbs.clkCb, Leaves part (callbackExecute ck f)) :
  part q = part p ∧ q.cbs.clkCb.Sublist p.cbs.clkCb
  := hstep.tick_keeps (I := fun s => part s = part p) (fun s cbs hs => (hlist s cbs).trans hs)
    (fun f hf => hcallback f hf _) rfl

/-- A tick whose list has a callback once, among callbacks that leave a part, does to the part
what the callback does to it. -/
theorem IoStep.tick_once
    {β : Type} {part : Peripherals → β} {ck : Nat} {p q : Peripherals} {f : CallBackFP}
    {removed : Bool} {b : β} (hstep : IoStep (.tick ck) p q)
    (hlist : ∀ p cbs, part { p with cbs := { p.cbs with clkCb := cbs } } = part p)
    (hcallback : ∀ g ∈ p.cbs.clkCb, g ≠ f → Leaves part (callbackExecute ck g))
    (hf : Triple (fun s => part s = part p) (callbackExecute ck f)
      (fun r s => r.1 = removed ∧ part s = b) (fun _ => True))
    (hcount : p.cbs.clkCb.count f = 1) :
  part q = b ∧ q.cbs.clkCb.count f = if removed then 0 else 1
  := by
  obtain ⟨r, s, hpass, rfl⟩ := hstep.tick_pass
  rw [hlist]
  exact (pass_once_part (fun c g hmem hg => hcallback g hmem hg c) hf hcount).of_ok rfl hpass

/-- A pass over the other callbacks keeps what they keep, and drops callbacks only. -/
theorem IoStep.async_keeps
    {I : Peripherals → Prop} {p q : Peripherals} (hstep : IoStep .async p q)
    (hworld : ∀ p world, I p → I { p with world := world })
    (hlist : ∀ p cbs, I p → I { p with cbs := { p.cbs with asyncCb := cbs } })
    (hcallback : ∀ time, ∀ f ∈ p.cbs.asyncCb, Keeps I (fun _ => True) (callbackExecute time f))
    (hp : I p) :
  I q ∧ q.cbs.asyncCb.Sublist p.cbs.asyncCb
  := by
  obtain ⟨time, world, r, s, hpass, rfl⟩ := hstep.async_pass
  obtain ⟨hs, hsub⟩ := (pass_keeps (hcallback time)).of_ok (hworld p world hp) hpass
  exact ⟨hlist s r.1 hs, hsub⟩

/-- A pass over the other callbacks leaves a part that they leave. -/
theorem IoStep.async_leaves
    {β : Type} {part : Peripherals → β} {p q : Peripherals}
    (hstep : IoStep .async p q) (hworld : ∀ p world, part { p with world := world } = part p)
    (hlist : ∀ p cbs, part { p with cbs := { p.cbs with asyncCb := cbs } } = part p)
    (hcallback : ∀ time, ∀ f ∈ p.cbs.asyncCb, Leaves part (callbackExecute time f)) :
  part q = part p ∧ q.cbs.asyncCb.Sublist p.cbs.asyncCb
  := hstep.async_keeps (I := fun s => part s = part p) (fun s w hs => (hworld s w).trans hs)
    (fun s cbs hs => (hlist s cbs).trans hs) (fun time f hf => hcallback time f hf _) rfl

/-- A step leaves a part that the method it calls, or the callbacks, leave. -/
theorem IoStep.leaves
    {β : Type} {part : Peripherals → β} {e : IoEvent} {p q : Peripherals} (hstep : IoStep e p q)
    (hghost : ∀ p history world, part { p with history := history, world := world } = part p)
    (hcbs : ∀ p cbs, part { p with cbs := cbs } = part p)
    (hread : ∀ addr d, e = .read addr → p.vdevAt addr = some d → Leaves part (d.read addr))
    (hwrite : ∀ addr val d, e = .write addr val → p.vdevAt addr = some d →
      Leaves part (d.write addr val))
    (hreset : ∀ addr d, e = .reset addr → p.vdevAt addr = some d → ∀ p, part (d.reset p) = part p)
    (hcallback : ∀ time f, Leaves part (callbackExecute time f)) :
  part q = part p
  := by
  cases e with
  | tick ck => exact (hstep.tick_leaves (fun p _ => hcbs p _) fun f _ => hcallback ck f).1
  | async =>
    exact (hstep.async_leaves (fun p w => hghost p p.history w) (fun p _ => hcbs p _)
      fun time f _ => hcallback time f).1
  | _ => exact hstep.access_leaves rfl (fun p h => hghost p h p.world) hread hwrite hreset

/-- A callback leaves the registers of two devices and the hold of a callback that it does not
reach. -/
theorem callback_leaves_regs
    {d d' : IoVDev} {f g : CallBackFP} (hd : d ∉ g.reach) (hd' : d' ∉ g.reach)
    (hf : f.owner ∉ g.reach) (time : Nat) :
  Leaves (fun p => (d.regs p, d'.regs p, p.cbs.held f)) (callbackExecute time g)
  := by
  apply Leaves.of_touches (callbackExecute_touches time g)
  intro h p hh
  have hheld : (h p).cbs.held f = p.cbs.held f := congrArg Prod.fst (hh.view hf p)
  rw [hh.regs_eq hd p, hh.regs_eq hd' p, hheld]

/-- The devices stay attached where they are. -/
theorem IoStep.vdevAt_eq
    {e : IoEvent} {p q : Peripherals} (hstep : IoStep e p q) :
  q.vdevAt = p.vdevAt
  := by
  have hchange {S : List IoVDev} (f : Peripherals → Peripherals) (p : Peripherals)
      (hf : Change S f) : (f p).vdevAt = p.vdevAt := (hf.attached p).1
  apply hstep.leaves
  · exact fun _ _ _ => rfl
  · exact fun _ _ => rfl
  · exact fun addr d _ _ => .of_touches (d.read_touches addr) hchange
  · exact fun addr val d _ _ => .of_touches (d.write_touches addr val) hchange
  · exact fun _ d _ _ p => hchange _ p d.reset_change
  · exact fun time f => .of_touches (callbackExecute_touches time f) hchange

/-- A step keeps the lists apart. -/
theorem IoStep.separate
    {e : IoEvent} {p q : Peripherals} (hstep : IoStep e p q) (hp : p.cbs.Separate) :
  q.cbs.Separate
  := by
  have htouches {S : List IoVDev} {α : Type} {x : DevM α} (hx : Touches S x) :
      Keeps (fun p => p.cbs.Separate) (fun _ => True) x :=
    hx.keeps fun f p hf hp => hf.separate hp
  cases e with
  | tick ck =>
    obtain ⟨r, s, hpass, rfl⟩ := hstep.tick_pass
    obtain ⟨hs, hsub⟩ := (pass_keeps fun f _ => htouches (callbackExecute_touches _ f)).of_ok hp hpass
    exact ⟨fun f hf => hp.clk f (hsub.subset hf), hs.async⟩
  | async =>
    obtain ⟨time, world, r, s, hpass, rfl⟩ := hstep.async_pass
    obtain ⟨hs, hsub⟩ := (pass_keeps fun f _ => htouches (callbackExecute_touches _ f)).of_ok
      (s := { p with world := world }) hp hpass
    exact ⟨hs.clk, fun f hf => hp.async f (hsub.subset hf)⟩
  | _ =>
    apply hstep.access_keeps (I := fun p => p.cbs.Separate) rfl _ _ _ _ hp
    · exact fun _ _ hp => hp
    · exact fun addr d _ _ => htouches (d.read_touches addr)
    · exact fun addr val d _ _ => htouches (d.write_touches addr val)
    · exact fun _ d _ _ p hp => d.reset_change.separate hp

/-- What a device has: a part of the peripherals that the accesses to other devices leave -/
structure Part (d : IoVDev) {β : Type} (part : Peripherals → β) : Prop where
  change : ∀ S f p, Change S f → d ∉ S → part (f p) = part p
  history : ∀ p history, part { p with history := history } = part p

section

variable {d : IoVDev} {β : Type} {part : Peripherals → β} {p q : Peripherals} {addr : Int}

theorem Part.touches
    (h : Part d part) {S : List IoVDev} (hd : d ∉ S) {α : Type} {x : DevM α} {a : α}
    (hx : Touches S x) (hrun : x.run p = .ok (a, q)) :
  part q = part p
  := hx.leaves part (fun f p hf => h.change S f p hf hd) hrun

theorem Part.keeps
    (h : Part d part) {S : List IoVDev} (hd : d ∉ S) {α : Type} {x : DevM α} (hx : Touches S x)
    (b : β) :
  Keeps (fun q => part q = b) (fun _ => True) x
  := by
  apply hx.keeps
  intro f p hf hp
  rw [h.change S f p hf hd, hp]

theorem Part.read
    (h : Part d part) {val : Byte} (hd : ∀ d', p.vdevAt addr = some d' → d ∉ d'.readReach)
    (hrun : (devRead addr).run p = .ok (val, q)) :
  part q = part p
  := by
  rw [devRead, run_bind_of_ok rfl, run_bind_of_ok rfl] at hrun
  rw [← h.history p (p.history ++ [.read addr])]
  split at hrun
  · cases hrun
    rfl
  · next d' hat => exact h.touches (hd d' hat) (d'.read_touches addr) hrun

theorem Part.write
    (h : Part d part) {val : Byte} (hd : ∀ d', p.vdevAt addr = some d' → d ∉ d'.reach)
    (hrun : (devWrite addr val).run p = .ok ((), q)) :
  part q = part p
  := by
  rw [devWrite, run_bind_of_ok rfl, run_bind_of_ok rfl] at hrun
  rw [← h.history p (p.history ++ [.write addr val])]
  split at hrun
  · cases hrun
    rfl
  · next d' hat => exact h.touches (hd d' hat) (d'.write_touches addr val) hrun

theorem Part.reset
    (h : Part d part) (hd : ∀ d', p.vdevAt addr = some d' → d ∉ d'.reach) :
  part (devReset addr p) = part p
  := by
  rw [devReset, ← h.history p (p.history ++ [.reset addr])]
  split
  · rfl
  · next d' hat => exact h.change _ _ _ d'.reset_change (hd d' hat)

end

/-! ### Peripherals without callbacks -/

/-- No callback is in a list. -/
structure Peripherals.Quiet (p : Peripherals) : Prop where
  clk : p.cbs.clkCb = []
  async : p.cbs.asyncCb = []

namespace Peripherals.Quiet

variable {p : Peripherals}

/-- A pass over the callbacks of the clock does nothing. -/
theorem run_clkCbExec
    (h : p.Quiet) (ck : Nat) :
  ∃ q, (clkCbExec ck).run p = .ok ([], q) ∧ q.Quiet
  := by
  rw [clkCbExec, run_bind_of_ok rfl, h.clk]
  exact ⟨_, rfl, rfl, h.async⟩

/-- A pass over the asynchronous callbacks reads the time and does nothing else. -/
theorem run_asyncCbExec
    (h : p.Quiet) :
  ∃ q, asyncCbExec.run p = .ok ([], q) ∧ q.Quiet
  := by
  have hasync : ({ p with world := { p.world with
      programTime := p.world.programTime.tail } } : Peripherals).cbs.asyncCb = [] := h.async
  rw [asyncCbExec, run_bind_of_ok rfl, run_bind_of_ok rfl, hasync]
  exact ⟨_, rfl, h.clk, rfl⟩

/-- The reset of a device puts no callback into a list. -/
theorem reset
    (h : p.Quiet) (d : IoVDev) :
  (d.reset p).Quiet
  := by
  cases d <;> exact ⟨h.clk, h.async⟩

theorem devReset
    (h : p.Quiet) (addr : Int) :
  (SimulAvr.devReset addr p).Quiet
  := by
  have hrecorded : { p with history := p.history ++ [DevAccess.reset addr] }.Quiet :=
    ⟨h.clk, h.async⟩
  rw [SimulAvr.devReset]
  split
  · exact hrecorded
  · next d _ => exact hrecorded.reset d

end Peripherals.Quiet

/-- The peripherals of an at90s8515: its ports D, C, B and A, each with PIN, DDR and PORT -/
def Peripherals.at90s8515 : Peripherals :=
  { (default : Peripherals) with
    vdevAt := fun addr =>
      if 0x30 ≤ addr ∧ addr < 0x3c then some (.port ((addr - 0x30) / 3).toNat) else none
    port := fun n => { (default : Port) with
      pinAddr := 0x30 + 3 * n, ddrAddr := 0x31 + 3 * n, portAddr := 0x32 + 3 * n } }

theorem Peripherals.at90s8515_quiet :
  Peripherals.at90s8515.Quiet
  := ⟨rfl, rfl⟩

end SimulAvr
