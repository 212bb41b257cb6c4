import SimulAvr.Peripherals.AdcInterrupt
import SimulAvr.Peripherals.UartTransmit

/-!
# The sources of interrupts

An interrupt of the timers, the SPI, the UART or the A/D converter has an enable bit and a flag,
each in a register of a device.  The callbacks raise it only where both are set
(`pass_raises`), and leave the enable bits (`callback_enables`).  Accesses to registers clear an
enable bit (`IrqSource.ClearsEnable`) or a flag (`IrqSource.ClearsFlag`) in the ways listed
here and in no other (`IoStep.enabled`, `IoStep.flagged`).
-/

namespace SimulAvr

open Program CallbackList Transition

/-- The interrupts that a peripheral raises -/
inductive IrqSource where
  | timer0Ovf
  | timer1Capt
  | timer1CompB
  | timer1CompA
  | timer1Ovf
  | spiStc
  | uartRx
  | uartTx
  | uartUdre
  | adc
  deriving DecidableEq

namespace IrqSource

/-- The device with the enable bit and the flag -/
def device : IrqSource → IoVDev
  | timer0Ovf | timer1Capt | timer1CompB | timer1CompA | timer1Ovf => .timerIntr
  | spiStc => .spiIntr
  | uartRx | uartTx | uartUdre => .uartIntr
  | adc => .adcIntr

/-- The slot in the table of vectors -/
def vect (p : Peripherals) : IrqSource → IntVectTable
  | timer0Ovf => .TIMER0_OVF
  | timer1Capt => .TIMER1_CAPT
  | timer1CompB => .TIMER1_COMPB
  | timer1CompA => .TIMER1_COMPA
  | timer1Ovf => .TIMER1_OVF
  | spiStc => .SPI_STC
  | uartRx => p.uartIntr.urx
  | uartTx => p.uartIntr.utx
  | uartUdre => p.uartIntr.uudre
  | adc => .ADC

/-- The enable bit -/
def enableMask : IrqSource → Byte
  | timer0Ovf => maskTOV0
  | timer1Capt => maskICF1
  | timer1CompB => maskOCF1B
  | timer1CompA => maskOCF1A
  | timer1Ovf => maskTOV1
  | spiStc => maskSPIE
  | uartRx => maskRXCIE
  | uartTx => maskTXCIE
  | uartUdre => maskUDRIE
  | adc => maskADIE

/-- The flag -/
def flagMask : IrqSource → Byte
  | timer0Ovf => maskTOV0
  | timer1Capt => maskICF1
  | timer1CompB => maskOCF1B
  | timer1CompA => maskOCF1A
  | timer1Ovf => maskTOV1
  | spiStc => maskSPIF
  | uartRx => maskRXC
  | uartTx => maskTXC
  | uartUdre => maskUDRE
  | adc => maskADIF

/-- The register with the enable bit -/
def enableReg (p : Peripherals) : IrqSource → Byte
  | timer0Ovf | timer1Capt | timer1CompB | timer1CompA | timer1Ovf => p.timerIntr.timsk
  | spiStc => p.spiIntr.spcr
  | uartRx | uartTx | uartUdre => p.uartIntr.ucr
  | adc => p.adcIntr.adcsr

/-- The register with the flag -/
def flagReg (p : Peripherals) : IrqSource → Byte
  | timer0Ovf | timer1Capt | timer1CompB | timer1CompA | timer1Ovf => p.timerIntr.tifr
  | spiStc => p.spiIntr.spsr
  | uartRx | uartTx | uartUdre => p.uartIntr.usr
  | adc => p.adcIntr.adcsr

/-- The enable bit is set. -/
def Enabled (src : IrqSource) (p : Peripherals) : Prop :=
  src.enableReg p &&& src.enableMask ≠ 0

/-- The flag is set. -/
def Flagged (src : IrqSource) (p : Peripherals) : Prop :=
  src.flagReg p &&& src.flagMask ≠ 0

instance (src : IrqSource) (p : Peripherals) : Decidable (src.Enabled p) :=
  inferInstanceAs (Decidable (_ ≠ _))

instance (src : IrqSource) (p : Peripherals) : Decidable (src.Flagged p) :=
  inferInstanceAs (Decidable (_ ≠ _))

/-- The value that a write to a register of the device puts into the one with the enable bit -/
def enableWritten (p : Peripherals) (addr : Int) (val : Byte) : IrqSource → Option Byte
  | timer0Ovf | timer1Capt | timer1CompB | timer1CompA | timer1Ovf =>
    if addr = p.timerIntr.timskAddr then some (val &&& p.timerIntr.funcMask) else none
  | spiStc => if addr = p.spiIntr.spcrAddr then some val else none
  | uartRx | uartTx | uartUdre =>
    if addr = p.uartIntr.ubrrlAddr ∨ addr = p.uartIntr.ubrrhAddr ∨ addr = p.uartIntr.usr.toNat then
      none
    else if addr = p.uartIntr.ucrAddr then some val else none
  | adc => if addr = p.adcIntr.adcsrAddr then some val else none

/-- The event clears the enable bit: a write of the register without it, or a reset. -/
def ClearsEnable (src : IrqSource) (p : Peripherals) : IoEvent → Prop
  | .write addr val => p.vdevAt addr = some src.device
      ∧ ∃ v, src.enableWritten p addr val = some v ∧ v &&& src.enableMask = 0
  | .reset addr => p.vdevAt addr = some src.device
  | .read _ | .tick _ | .async => False

/-- A read of a register clears the flag: of SPDR after SPIF was seen, or of UDR. -/
def ReadClearsFlag (p : Peripherals) (addr : Int) : IrqSource → Prop
  | spiStc => p.vdevAt addr = some .spi ∧ addr = p.spi.spdrAddr ∧ p.spiIntr.spsrRead &&& maskSPIF ≠ 0
  | uartRx => p.vdevAt addr = some .uart ∧ addr = p.uart.udrAddr
  | _ => False

/-- A write to a register clears the flag. -/
def WriteClearsFlag (p : Peripherals) (addr : Int) (val : Byte) (src : IrqSource) : Prop :=
  match src with
  | timer0Ovf | timer1Capt | timer1CompB | timer1CompA | timer1Ovf =>
    p.vdevAt addr = some .timerIntr ∧ addr ≠ p.timerIntr.timskAddr ∧ addr = p.timerIntr.tifrAddr
      ∧ val &&& p.timerIntr.funcMask &&& src.flagMask ≠ 0
  | spiStc => p.vdevAt addr = some .spi ∧ addr = p.spi.spdrAddr ∧ p.spiIntr.spsrRead &&& maskSPIF ≠ 0
  | uartTx =>
    -- the status register is at the address of its value
    p.vdevAt addr = some .uartIntr ∧ addr ≠ p.uartIntr.ubrrlAddr ∧ addr ≠ p.uartIntr.ubrrhAddr
      ∧ addr = p.uartIntr.usr.toNat ∧ val &&& maskTXC ≠ 0
  | uartUdre => p.vdevAt addr = some .uart ∧ addr = p.uart.udrAddr ∧ p.uartIntr.usr &&& maskUDRE ≠ 0
  | uartRx => False
  | adc =>
    -- a write sets the register as a whole, and never sets the flag
    p.vdevAt addr = some .adcIntr ∧ addr = p.adcIntr.adcsrAddr
      ∧ (val &&& maskADIF ≠ 0 ∨ p.adcIntr.adcsr &&& maskADIF ≠ 0)

/-- The event is an access that clears the flag. -/
def ClearsFlag (src : IrqSource) (p : Peripherals) : IoEvent → Prop
  | .read addr => src.ReadClearsFlag p addr
  | .write addr val => src.WriteClearsFlag p addr val
  | .reset addr => p.vdevAt addr = some src.device
  | .tick _ | .async => False

end IrqSource

/-! ### The enable bits -/

/-- The registers with enable bits, without the bits that a peripheral changes itself -/
def enables (p : Peripherals) : Byte × Byte × Byte × Byte :=
  (p.timerIntr.timsk, p.spiIntr.spcr, p.uartIntr.ucr &&& ~~~maskRXB8, p.adcIntr.adcsr &&& maskADIE)

/-- The enable bit of a source among them -/
def IrqSource.enableOf (v : Byte × Byte × Byte × Byte) : IrqSource → Byte
  | timer0Ovf | timer1Capt | timer1CompB | timer1CompA | timer1Ovf => v.1
  | spiStc => v.2.1
  | uartRx | uartTx | uartUdre => v.2.2.1
  | adc => v.2.2.2

theorem IrqSource.enabled_iff
    {src : IrqSource} {p : Peripherals} :
  src.Enabled p ↔ src.enableOf (enables p) &&& src.enableMask ≠ 0
  := by
  have hmask (reg other mask : Byte) (h : other &&& mask = mask) :
      reg &&& mask ≠ 0 ↔ reg &&& other &&& mask ≠ 0 := by
    rw [BitVec.and_assoc, h]
  cases src with
  | uartRx | uartTx | uartUdre => exact hmask p.uartIntr.ucr _ _ rfl
  | adc => exact hmask p.adcIntr.adcsr _ _ rfl
  | _ => rfl

/-- The enable bits stay where the registers do. -/
theorem IrqSource.Enabled.of_enables
    {src : IrqSource} {p q : Peripherals} (h : src.Enabled p) (hq : enables q = enables p) :
  src.Enabled q
  := by
  rw [enabled_iff, hq]
  exact enabled_iff.mp h

/-- Other devices leave the registers. -/
theorem Change.enables_eq
    {S : List IoVDev} {f : Peripherals → Peripherals} (h : Change S f)
    (hS : ∀ src : IrqSource, src.device ∉ S) (p : Peripherals) :
  enables (f p) = enables p
  := by
  have htimer : (f p).timerIntr = p.timerIntr := h.regs_eq (hS .timer0Ovf) p
  have hspi : (f p).spiIntr = p.spiIntr := h.regs_eq (hS .spiStc) p
  have huart : (f p).uartIntr = p.uartIntr := h.regs_eq (hS .uartRx) p
  have hadc : (f p).adcIntr = p.adcIntr := h.regs_eq (hS .adc) p
  rw [enables, htimer, hspi, huart, hadc]
  rfl

/-- A change of the UART interrupts that leaves the enable bits -/
theorem setUARTIntr_enables
    {f : UARTIntr → UARTIntr}
    (h : ∀ ti, (f ti).ucr &&& ~~~maskRXB8 = ti.ucr &&& ~~~maskRXB8) :
  Leaves enables (setUARTIntr f)
  := .set fun p => congrArg (fun ucr => (p.timerIntr.timsk, p.spiIntr.spcr, ucr,
    p.adcIntr.adcsr &&& maskADIE)) (h p.uartIntr)

theorem spiClearSeen_enables :
  Leaves enables spiClearSeen
  := by
  apply Leaves.set
  intro p
  change (_, SPIIntr.spcr (if _ then _ else _), _) = _
  split <;> rfl

theorem uartReceive_enables :
  Leaves enables uartReceive
  := by
  refine .bind (.bind (.world fun _ _ => rfl) fun _ => .pure _) fun data =>
    .bind (.set fun _ => rfl) fun _ => setUARTIntr_enables fun ti => ?_
  split
  · change (ti.ucr ||| maskRXB8) &&& ~~~maskRXB8 = _
    rw [BitVec.and_or_distrib_right]
    exact BitVec.or_zero
  · change (ti.ucr &&& ~~~maskRXB8) &&& ~~~maskRXB8 = _
    rw [BitVec.and_assoc, BitVec.and_self]

/-- A read of a register leaves the enable bits. -/
theorem IoVDev.read_enables
    (d : IoVDev) (addr : Int) :
  Leaves enables (d.read addr)
  := by
  cases d with
  | spiIntr =>
    exact .get fun _ => .ite (.pure _) (.ite (.bind (.devIf (.set fun _ => rfl)) fun _ =>
      .bind (.devIf (.set fun _ => rfl)) fun _ => .pure _) (.error _ _))
  | spi => exact .get fun _ => .ite (.bind spiClearSeen_enables fun _ => .pure _) (.error _ _)
  | uart =>
    exact .get fun _ => .get fun _ => .ite (.bind (setUARTIntr_enables fun _ => rfl) fun _ =>
      .bind (.devIf uartReceive_enables) fun _ => .get fun _ => .pure _) (.error _ _)
  | _ =>
    apply Leaves.of_touches (IoVDev.read_touches _ addr)
    intro f p hf
    apply hf.enables_eq
    intro src
    cases src <;> simp [IoVDev.readReach, IrqSource.device]

/-- A write to a register without an enable bit leaves the enable bits. -/
theorem IoVDev.write_enables
    {d : IoVDev} (hd : ∀ src : IrqSource, src.device ≠ d) (addr : Int) (val : Byte) :
  Leaves enables (d.write addr val)
  := by
  cases d with
  | timerIntr => exact absurd rfl (hd .timer0Ovf)
  | spiIntr => exact absurd rfl (hd .spiStc)
  | uartIntr => exact absurd rfl (hd .uartRx)
  | adcIntr => exact absurd rfl (hd .adc)
  | spi =>
    exact .get fun _ => .ite (.bind spiClearSeen_enables fun _ => .bind (.devIf (.set fun _ => rfl))
      fun _ => .get fun _ => .bind (.set fun _ => rfl) fun _ => .bind (.set fun _ => rfl) fun _ =>
      .bind (.world fun _ _ => rfl) fun _ => .set fun _ => rfl) (.error _ _)
  | uart =>
    refine .get fun _ => .ite (.bind (setUARTIntr_enables fun ti => ?_) fun _ => .get fun _ =>
      .bind (.set fun _ => rfl) fun _ => .bind (.set fun _ => rfl) fun _ => .set fun _ => rfl)
      (.error _ _)
    split <;> rfl
  | _ =>
    apply Leaves.of_touches (IoVDev.write_touches _ addr val)
    intro f p hf
    apply hf.enables_eq
    intro src
    cases src <;> simp [IoVDev.reach, IrqSource.device]

/-- A reset of a register without an enable bit leaves the enable bits. -/
theorem IoVDev.reset_enables
    {d : IoVDev} (hd : ∀ src : IrqSource, src.device ≠ d) (p : Peripherals) :
  enables (d.reset p) = enables p
  := by
  cases d with
  | timerIntr => exact absurd rfl (hd .timer0Ovf)
  | spiIntr => exact absurd rfl (hd .spiStc)
  | uartIntr => exact absurd rfl (hd .uartRx)
  | adcIntr => exact absurd rfl (hd .adc)
  | _ => rfl

theorem timerIntrRaise_enables
    (vect : IntVectTable) (mask : Byte) :
  Leaves enables (timerIntrRaise vect mask)
  := .bind (.set fun _ => rfl) fun _ => .pure _

theorem timer16Compare_enables
    (ocr : Option Nat) (tcnt : Word) (mask : Byte) :
  Leaves enables (timer16Compare ocr tcnt mask)
  := by
  apply Leaves.get
  intro ocreg16
  cases ocr with
  | none => apply Leaves.pure
  | some n => exact .devIf (.set fun _ => rfl)

theorem clkCallback_leaves
    {β : Type} {part : Peripherals → β} {x : DevM CbRet} (h : Leaves part x) :
  Leaves part (clkCallback x)
  := .bind h fun _ => .pure _

/-- The callbacks leave the enable bits. -/
theorem callback_enables
    (time : Nat) (f : CallBackFP) :
  Leaves enables (callbackExecute time f)
  := by
  have hother (hf : ∀ src : IrqSource, src.device ∉ f.reach) :
      Leaves enables (callbackExecute time f) :=
    .of_touches (callbackExecute_touches time f) fun _ p hg => hg.enables_eq hf p
  cases f with
  | timerIntrCb =>
    exact .bind (.get fun _ => .get fun _ => .ite (.pure _) (.ite (.pure _)
      (.ite (timerIntrRaise_enables _ _) (.ite (timerIntrRaise_enables _ _)
        (.ite (timerIntrRaise_enables _ _) (.ite (timerIntrRaise_enables _ _)
          (.ite (timerIntrRaise_enables _ _) (.error _ _)))))))) fun _ => .pure _
  | timer0ClkIncrCb =>
    exact .bind (clkCallback_leaves (.get fun _ => .get fun _ => .ite (.pure _) (.ite (.error _ _)
      (.bind (.set fun _ => rfl) fun _ => .bind (.devIf (.set fun _ => rfl)) fun _ =>
        .pure _)))) fun _ => .pure _
  | timer16ClkIncrCb =>
    exact .bind (clkCallback_leaves (.get fun _ => .get fun _ => .ite (.pure _)
      (.bind (.set fun _ => rfl) fun _ => .ite (.error _ _) (.bind (.devIf
        (.bind (.devIf (.set fun _ => rfl)) fun _ => .bind (timer16Compare_enables _ _ _) fun _ =>
          timer16Compare_enables _ _ _)) fun _ => .pure _)))) fun _ => .pure _
  | spiIntrCb =>
    exact .bind (.get fun _ => .get fun _ => .ite (.pure _) (.ite
      (.bind (.set fun _ => rfl) fun _ => .pure _) (.pure _))) fun _ => .pure _
  | spiClkIncrCb =>
    exact .bind (clkCallback_leaves (.get fun _ => .get fun _ => .ite (.pure _) (.ite (.error _ _)
      (.bind (.set fun _ => rfl) fun _ => .ite (.bind (.set fun _ => rfl) fun _ =>
        .bind (.set fun _ => rfl) fun _ => .bind (.set fun _ => rfl) fun _ => .pure _)
        (.pure _))))) fun _ => .pure _
  | uartIntrCb =>
    exact .bind (.get fun _ => .get fun _ => .ite (.pure _)
      (.bind (setUARTIntr_enables fun _ => rfl) fun _ => .pure _)) fun _ => .pure _
  | uartClkIncrCb =>
    exact .bind (clkCallback_leaves (.get fun _ => .get fun _ => .get fun _ => .ite (.pure _)
      (.ite (.error _ _) (.bind (.set fun _ => rfl) fun _ => .ite (.ite
        (.bind (setUARTIntr_enables fun _ => rfl) fun _ => .bind (.set fun _ => rfl) fun _ =>
          .pure _)
        (.bind (setUARTIntr_enables fun _ => rfl) fun _ => .bind (.set fun _ => rfl) fun _ =>
          .pure _)) (.pure _))))) fun _ => .pure _
  | adcIntrCb =>
    refine .bind (.get fun _ => .get fun _ => .ite (.pure _) (.ite
      (.bind (.set fun p => ?_) fun _ => .pure _) (.pure _))) fun _ => .pure _
    exact congrArg (fun adcsr => (p.timerIntr.timsk, p.spiIntr.spcr,
      p.uartIntr.ucr &&& ~~~maskRXB8, adcsr)) (and_not_and rfl _)
  | adcClkIncrCb =>
    refine .bind (clkCallback_leaves (.get fun _ => .get fun _ => .ite (.pure _) (.ite (.error _ _)
      (.bind (.set fun _ => rfl) fun _ => .ite (.bind (.set fun p => ?_) fun _ =>
        .bind (.bind (.world fun _ _ => rfl) fun _ => .pure _) fun _ => .bind (.set fun _ => rfl)
        fun _ => .get fun _ => .ite (.bind (.set fun _ => rfl) fun _ => .pure _)
          (.bind (.set fun _ => rfl) fun _ => .pure _)) (.pure _))))) fun _ => .pure _
    exact congrArg (fun adcsr => (p.timerIntr.timsk, p.spiIntr.spcr,
      p.uartIntr.ucr &&& ~~~maskRXB8, adcsr)) (@completed_and maskADIE rfl rfl _)
  | _ =>
    apply hother
    intro src
    cases src <;> simp [CallBackFP.reach, CallBackFP.owner, IrqSource.device]

section

variable {src : IrqSource} {addr : Int} {val : Byte} {p q : Peripherals}

/-- Other devices leave the register with the enable bit. -/
theorem Change.enableReg_eq
    {S : List IoVDev} {f : Peripherals → Peripherals} (h : Change S f) (hS : src.device ∉ S)
    (p : Peripherals) :
  src.enableReg (f p) = src.enableReg p
  := by
  have hregs := h.regs_eq hS p
  cases src with
  | spiStc => exact congrArg SPIIntr.spcr hregs
  | uartRx | uartTx | uartUdre => exact congrArg UARTIntr.ucr hregs
  | adc => exact congrArg ADCIntr.adcsr hregs
  | _ => exact congrArg TimerIntr.timsk hregs

theorem timerIntrWrite_timsk
    (hrun : (timerIntrWrite addr val).run p = .ok ((), q)) :
  q.timerIntr.timsk
    = (IrqSource.timer0Ovf.enableWritten p addr val).getD p.timerIntr.timsk
  := by
  rw [timerIntrWrite, run_bind_of_ok rfl] at hrun
  change _ = (if _ then _ else _ : Option Byte).getD _
  split at hrun
  · next haddr =>
    rw [if_pos haddr]
    rw [run_bind_of_ok rfl] at hrun
    split at hrun <;> cases hrun <;> rfl
  · next haddr =>
    rw [if_neg haddr]
    split at hrun <;> cases hrun
    rfl

theorem spiIntrWrite_spcr
    (hrun : (spiIntrWrite addr val).run p = .ok ((), q)) :
  q.spiIntr.spcr = (IrqSource.spiStc.enableWritten p addr val).getD p.spiIntr.spcr
  := by
  rw [spiIntrWrite, run_bind_of_ok rfl] at hrun
  change _ = (if _ then _ else _ : Option Byte).getD _
  split at hrun
  · next haddr =>
    rw [if_pos haddr]
    rw [run_bind_of_ok rfl] at hrun
    split at hrun <;> cases hrun <;> rfl
  · cases hrun

theorem ucr_of_uartIntrWrite
    (hrun : (uartIntrWrite addr val).run p = .ok ((), q)) :
  q.uartIntr.ucr = (IrqSource.uartRx.enableWritten p addr val).getD p.uartIntr.ucr
  := by
  rw [uartIntrWrite, run_bind_of_ok rfl] at hrun
  change _ = (if _ then _ else if _ then _ else _ : Option Byte).getD _
  split at hrun
  · next haddr =>
    rw [if_pos (.inl haddr)]
    cases hrun
    rfl
  split at hrun
  · next haddr =>
    rw [if_pos (.inr (.inl haddr))]
    cases hrun
    rfl
  split at hrun
  · next haddr =>
    rw [if_pos (.inr (.inr haddr))]
    rw [devIf] at hrun
    split at hrun <;> cases hrun <;> rfl
  next hl hh hs =>
  rw [if_neg (by rintro (h | h | h) <;> contradiction)]
  split at hrun
  · next haddr =>
    rw [if_pos haddr]
    rw [run_bind_of_ok rfl] at hrun
    split at hrun <;> cases hrun <;> rfl
  · cases hrun

/-- A write to ADCSR leaves ADIE as it is in the value. -/
theorem adcIntrWrite_adie
    (hrun : (adcIntrWrite addr val).run p = .ok ((), q)) :
  q.adcIntr.adcsr &&& maskADIE
    = (IrqSource.adc.enableWritten p addr val).getD p.adcIntr.adcsr &&& maskADIE
  := by
  rw [adcIntrWrite, run_bind_of_ok rfl] at hrun
  change _ = (if _ then _ else _ : Option Byte).getD _ &&& _
  split at hrun
  · next haddr =>
    have hval : (if val &&& maskADIF ≠ 0 then val &&& ~~~maskADIF else val) &&& maskADIE
        = val &&& maskADIE := by
      split
      · exact and_not_and rfl val
      · rfl
    rw [if_pos haddr]
    rw [run_bind_of_ok rfl] at hrun
    split at hrun <;> cases hrun <;> exact hval
  · next haddr =>
    rw [if_neg haddr]
    split at hrun <;> cases hrun
    rfl

/-- A write to a register of the device with the enable bit -/
theorem IrqSource.write_enableReg
    (hrun : (src.device.write addr val).run p = .ok ((), q)) :
  src.enableReg q &&& src.enableMask
    = (src.enableWritten p addr val).getD (src.enableReg p) &&& src.enableMask
  := by
  cases src with
  | spiStc => exact congrArg (· &&& _) (spiIntrWrite_spcr hrun)
  | uartRx | uartTx | uartUdre => exact congrArg (· &&& _) (ucr_of_uartIntrWrite hrun)
  | adc => exact adcIntrWrite_adie hrun
  | _ => exact congrArg (· &&& _) (timerIntrWrite_timsk hrun)

/-- A write to the register of a device leaves the enable bit, unless it writes the register with
the bit without it. -/
theorem IoVDev.write_enabled
    {d : IoVDev} (hrun : (d.write addr val).run p = .ok ((), q)) (h : src.Enabled p)
    (hkeep : d = src.device → ∀ v, src.enableWritten p addr val = some v → v &&& src.enableMask ≠ 0) :
  src.Enabled q
  := by
  by_cases hd : d = src.device
  · subst hd
    rw [IrqSource.Enabled, IrqSource.write_enableReg hrun]
    cases hval : src.enableWritten p addr val with
    | none => exact h
    | some v => exact hkeep rfl v hval
  by_cases hother : ∃ src' : IrqSource, src'.device = d
  · obtain ⟨src', rfl⟩ := hother
    have hreach : src.device ∉ src'.device.reach := by
      cases src <;> cases src' <;> simp_all [IrqSource.device, IoVDev.reach]
    have hleaves : Leaves src.enableReg (src'.device.write addr val) :=
      .of_touches (src'.device.write_touches addr val) fun _ p hf => hf.enableReg_eq hreach p
    rw [IrqSource.Enabled, hleaves.run hrun]
    exact h
  · apply h.of_enables
    apply (IoVDev.write_enables (fun src' hsrc => hother ⟨src', hsrc⟩) addr val).run hrun

/-- A reset of a device leaves the enable bits of others. -/
theorem IoVDev.reset_enabled
    {d : IoVDev} (hd : d ≠ src.device) (h : src.Enabled p) :
  src.Enabled (d.reset p)
  := by
  by_cases hother : ∃ src' : IrqSource, src'.device = d
  · obtain ⟨src', rfl⟩ := hother
    have hreach : src.device ∉ src'.device.reach := by
      cases src <;> cases src' <;> simp_all [IrqSource.device, IoVDev.reach]
    rw [IrqSource.Enabled, src'.device.reset_change.enableReg_eq hreach p]
    exact h
  · apply h.of_enables
    apply IoVDev.reset_enables fun src' hsrc => hother ⟨src', hsrc⟩

/-- An event leaves an enable bit that it does not clear. -/
theorem IoStep.enabled
    {e : IoEvent} (hstep : IoStep e p q) (h : src.Enabled p) (hkeep : ¬ src.ClearsEnable p e) :
  src.Enabled q
  := by
  cases hstep with
  | @read addr val _ _ hrun =>
    apply h.of_enables
    apply (IoStep.read hrun).access_leaves rfl
    · exact fun _ _ => rfl
    · exact fun addr d _ _ => d.read_enables addr
    · nofun
    · nofun
  | @write addr val _ _ hrun =>
    cases hat : p.vdevAt addr with
    | none =>
      rw [devWrite_none hat] at hrun
      cases hrun
      exact h
    | some d =>
      rw [devWrite_at hat] at hrun
      apply IoVDev.write_enabled hrun h
      rintro rfl v hval hclear
      exact hkeep ⟨hat, v, hval, hclear⟩
  | @reset addr =>
    cases hat : p.vdevAt addr with
    | none =>
      rw [devReset_none hat]
      exact h
    | some d =>
      rw [devReset_at hat]
      have hother : d ≠ src.device := by
        rintro rfl
        exact hkeep hat
      exact IoVDev.reset_enabled (p := { p with history := _ }) hother h
  | @tick ck events _ _ hrun =>
    apply h.of_enables
    apply ((IoStep.tick hrun).tick_leaves (fun _ _ => rfl) fun f _ => callback_enables ck f).1
  | async hrun =>
    apply h.of_enables
    apply ((IoStep.async hrun).async_leaves (fun _ _ => rfl) (fun _ _ => rfl)
      fun time f _ => callback_enables time f).1

end

/-! ### The flags -/

section

variable {src : IrqSource} {d : IoVDev} {addr : Int} {val : Byte} {p q : Peripherals}

/-- Other devices leave the register with the flag. -/
theorem Change.flagReg_eq
    {S : List IoVDev} {f : Peripherals → Peripherals} (h : Change S f) (hS : src.device ∉ S)
    (p : Peripherals) :
  src.flagReg (f p) = src.flagReg p
  := by
  have hregs := h.regs_eq hS p
  cases src with
  | spiStc => exact congrArg SPIIntr.spsr hregs
  | uartRx | uartTx | uartUdre => exact congrArg UARTIntr.usr hregs
  | adc => exact congrArg ADCIntr.adcsr hregs
  | _ => exact congrArg TimerIntr.tifr hregs

/-- An access to the data register clears the flags that were seen. -/
theorem spiClearSeen_spif
    (hrun : spiClearSeen.run p = .ok ((), q)) (hseen : p.spiIntr.spsrRead &&& maskSPIF = 0) :
  q.spiIntr.spsr &&& maskSPIF = p.spiIntr.spsr &&& maskSPIF
  := by
  cases hrun
  change SPIIntr.spsr (if _ then _ else _) &&& _ = _
  split
  · exact and_not_and (BitMask.not_and_eq_self hseen) _
  · rfl

/-- A reception leaves the status register. -/
theorem uartReceive_usr :
  Leaves (fun p => p.uartIntr.usr) uartReceive
  := by
  refine .bind (.bind (.world fun _ _ => rfl) fun _ => .pure _) fun _ =>
    .bind (.set fun _ => rfl) fun _ => .set fun p => ?_
  change UARTIntr.usr (if _ then _ else _) = _
  split <;> rfl

/-- A read leaves a flag that it does not clear. -/
theorem IoVDev.read_flagged
    (hat : p.vdevAt addr = some d) (hrun : (d.read addr).run p = .ok (val, q)) (h : src.Flagged p)
    (hkeep : ¬ src.ReadClearsFlag p addr) :
  src.Flagged q
  := by
  by_cases hreach : src.device ∉ d.readReach
  · have hleaves : Leaves src.flagReg (d.read addr) :=
      .of_touches (d.read_touches addr) fun _ p hf => hf.flagReg_eq hreach p
    rw [IrqSource.Flagged, hleaves.run hrun]
    exact h
  cases d with
  | spiIntr =>
    obtain rfl : src = .spiStc := by
      cases src <;> simp [IrqSource.device, IoVDev.readReach] at hreach ⊢
    have hleaves : Leaves (fun p => p.spiIntr.spsr) (spiIntrRead addr) :=
      .get fun _ => .ite (.pure _) (.ite (.bind (.devIf (.set fun _ => rfl)) fun _ =>
        .bind (.devIf (.set fun _ => rfl)) fun _ => .pure _) (.error _ _))
    have hspsr := hleaves.run hrun
    change q.spiIntr.spsr &&& _ ≠ 0
    rw [hspsr]
    exact h
  | spi =>
    obtain rfl : src = .spiStc := by
      cases src <;> simp [IrqSource.device, IoVDev.readReach] at hreach ⊢
    change (spiRead addr).run p = _ at hrun
    rw [spiRead, run_bind_of_ok rfl] at hrun
    split at hrun
    · next haddr =>
      obtain ⟨_, s, hclear, hrun⟩ := run_bind_eq_ok.mp hrun
      cases hrun
      have hseen : p.spiIntr.spsrRead &&& maskSPIF = 0 := by
        by_contra hseen
        exact hkeep ⟨hat, haddr, hseen⟩
      exact (spiClearSeen_spif hclear hseen).trans_ne h
    · cases hrun
  | uart =>
    have hleaves {mask : Byte} (hmask : ~~~maskRXC &&& mask = mask) :
        Leaves (fun p => p.uartIntr.usr &&& mask) (uartRead addr) :=
      .get fun _ => .get fun _ => .ite (.bind (.set fun _ => and_not_and hmask _) fun _ =>
        .bind (.devIf (uartReceive_usr.map (· &&& mask))) fun _ => .get fun _ => .pure _)
        (.error _ _)
    cases src with
    | uartRx =>
      change (uartRead addr).run p = _ at hrun
      rw [uartRead, run_bind_of_ok rfl, run_bind_of_ok rfl] at hrun
      split at hrun
      · next haddr => exact absurd ⟨hat, haddr⟩ hkeep
      · cases hrun
    | uartTx => exact ((@hleaves maskTXC rfl).run hrun).trans_ne h
    | uartUdre => exact ((@hleaves maskUDRE rfl).run hrun).trans_ne h
    | _ => simp [IrqSource.device, IoVDev.readReach] at hreach
  | _ => cases src <;> simp [IrqSource.device, IoVDev.readReach] at hreach

theorem timerIntrWrite_tifr
    {mask : Byte} (hrun : (timerIntrWrite addr val).run p = .ok ((), q))
    (hkeep : addr ≠ p.timerIntr.timskAddr → addr = p.timerIntr.tifrAddr →
      val &&& p.timerIntr.funcMask &&& mask = 0) :
  q.timerIntr.tifr &&& mask = p.timerIntr.tifr &&& mask
  := by
  rw [timerIntrWrite, run_bind_of_ok rfl] at hrun
  split at hrun
  · rw [run_bind_of_ok rfl] at hrun
    split at hrun <;> cases hrun <;> rfl
  split at hrun
  · next hne haddr =>
    cases hrun
    exact and_not_and (BitMask.not_and_eq_self (hkeep hne haddr)) _
  · cases hrun

theorem spiWrite_spif
    (hrun : (spiWrite addr val).run p = .ok ((), q))
    (hkeep : addr = p.spi.spdrAddr → p.spiIntr.spsrRead &&& maskSPIF = 0) :
  q.spiIntr.spsr &&& maskSPIF = p.spiIntr.spsr &&& maskSPIF
  := by
  have hleaves : Leaves (fun p => p.spiIntr.spsr &&& maskSPIF)
      (devIf (p.spi.tcnt ≠ 0) (setSPIIntr fun ti => { ti with spsr := ti.spsr ||| maskWCOL })) := by
    apply Leaves.devIf (.set fun p => _)
    intro p
    change (p.spiIntr.spsr ||| maskWCOL) &&& maskSPIF = _
    rw [BitVec.and_or_distrib_right]
    exact BitVec.or_zero
  rw [spiWrite, run_bind_of_ok rfl] at hrun
  split at hrun
  · next haddr =>
    obtain ⟨_, s, hclear, hrun⟩ := run_bind_eq_ok.mp hrun
    obtain ⟨_, t, hwcol, hrun⟩ := run_bind_eq_ok.mp hrun
    cases hrun
    exact (hleaves.run hwcol).trans (spiClearSeen_spif hclear (hkeep haddr))
  · cases hrun

theorem usr_of_uartIntrWrite
    {mask : Byte} (hrun : (uartIntrWrite addr val).run p = .ok ((), q))
    (hkeep : addr ≠ p.uartIntr.ubrrlAddr → addr ≠ p.uartIntr.ubrrhAddr →
      addr = p.uartIntr.usr.toNat → val &&& maskTXC ≠ 0 → ~~~maskTXC &&& mask = mask) :
  q.uartIntr.usr &&& mask = p.uartIntr.usr &&& mask
  := by
  rw [uartIntrWrite, run_bind_of_ok rfl] at hrun
  split at hrun
  · cases hrun
    rfl
  split at hrun
  · cases hrun
    rfl
  split at hrun
  · next hl hh hs =>
    rw [devIf] at hrun
    split at hrun
    · next hval =>
      cases hrun
      exact and_not_and (hkeep hl hh hs hval) _
    · cases hrun
      rfl
  split at hrun
  · rw [run_bind_of_ok rfl] at hrun
    split at hrun <;> cases hrun <;> rfl
  · cases hrun

theorem uartWrite_usr
    {mask : Byte} (hrun : (uartWrite addr val).run p = .ok ((), q))
    (hkeep : addr = p.uart.udrAddr → p.uartIntr.usr &&& maskUDRE ≠ 0 → ~~~maskUDRE &&& mask = mask)
    (h : p.uartIntr.usr &&& mask ≠ 0) :
  q.uartIntr.usr &&& mask ≠ 0
  := by
  rw [uartWrite, run_bind_of_ok rfl] at hrun
  split at hrun
  · next haddr =>
    cases hrun
    change UARTIntr.usr (if _ then _ else _) &&& _ ≠ 0
    split
    · next hudre => exact (and_not_and (hkeep haddr hudre) _).trans_ne h
    · change (p.uartIntr.usr ||| maskUDRE) &&& mask ≠ 0
      intro hzero
      rw [BitVec.and_or_distrib_right] at hzero
      exact h (BitVec.or_eq_zero_iff.mp hzero).1
  · cases hrun

theorem adcIntrWrite_adif
    (hrun : (adcIntrWrite addr val).run p = .ok ((), q)) (hkeep : addr ≠ p.adcIntr.adcsrAddr) :
  q.adcIntr.adcsr = p.adcIntr.adcsr
  := by
  rw [adcIntrWrite, run_bind_of_ok rfl] at hrun
  change StateT.run (if _ then _ else _) _ = _ at hrun
  rw [if_neg hkeep] at hrun
  split at hrun <;> cases hrun
  rfl

/-- A write leaves a flag that it does not clear. -/
theorem IoVDev.write_flagged
    (hat : p.vdevAt addr = some d) (hrun : (d.write addr val).run p = .ok ((), q))
    (h : src.Flagged p) (hkeep : ¬ src.WriteClearsFlag p addr val) :
  src.Flagged q
  := by
  by_cases hreach : src.device ∉ d.reach
  · have hleaves : Leaves src.flagReg (d.write addr val) :=
      .of_touches (d.write_touches addr val) fun _ p hf => hf.flagReg_eq hreach p
    rw [IrqSource.Flagged, hleaves.run hrun]
    exact h
  cases d with
  | timerIntr =>
    cases src with
    | spiStc | uartRx | uartTx | uartUdre | adc =>
      simp [IrqSource.device, IoVDev.reach] at hreach
    | _ =>
      apply (timerIntrWrite_tifr hrun _).trans_ne h
      intro hne haddr
      by_contra hbits
      exact hkeep ⟨hat, hne, haddr, hbits⟩
  | spiIntr =>
    obtain rfl : src = .spiStc := by
      cases src <;> simp [IrqSource.device, IoVDev.reach] at hreach ⊢
    have hleaves : Leaves (fun p => p.spiIntr.spsr &&& maskSPIF) (spiIntrWrite addr val) :=
      .get fun _ => .ite (.bind (.set fun _ => rfl) fun _ => .ite (.set fun _ => rfl)
        (.set fun _ => rfl)) (.error _ _)
    exact (hleaves.run hrun).trans_ne h
  | spi =>
    obtain rfl : src = .spiStc := by
      cases src <;> simp [IrqSource.device, IoVDev.reach] at hreach ⊢
    apply (spiWrite_spif hrun _).trans_ne h
    intro haddr
    by_contra hseen
    exact hkeep ⟨hat, haddr, hseen⟩
  | uartIntr =>
    cases src with
    | uartRx => exact (usr_of_uartIntrWrite hrun fun _ _ _ _ => rfl).trans_ne h
    | uartTx =>
      exact (usr_of_uartIntrWrite hrun fun hl hh hs hval =>
        absurd ⟨hat, hl, hh, hs, hval⟩ hkeep).trans_ne h
    | uartUdre => exact (usr_of_uartIntrWrite hrun fun _ _ _ _ => rfl).trans_ne h
    | _ => simp [IrqSource.device, IoVDev.reach] at hreach
  | uart =>
    cases src with
    | uartRx => exact uartWrite_usr hrun (fun _ _ => rfl) h
    | uartTx => exact uartWrite_usr hrun (fun _ _ => rfl) h
    | uartUdre =>
      exact uartWrite_usr hrun (fun haddr hudre => absurd ⟨hat, haddr, hudre⟩ hkeep) h
    | _ => simp [IrqSource.device, IoVDev.reach] at hreach
  | adcIntr =>
    obtain rfl : src = .adc := by
      cases src <;> simp [IrqSource.device, IoVDev.reach] at hreach ⊢
    have hadcsr := adcIntrWrite_adif hrun fun haddr => hkeep ⟨hat, haddr, .inr h⟩
    exact (congrArg (· &&& _) hadcsr).trans_ne h
  | _ => cases src <;> simp [IrqSource.device, IoVDev.reach] at hreach

/-- A reset of another device leaves a flag. -/
theorem IoVDev.reset_flagged
    (hd : d ≠ src.device) (h : src.Flagged p) :
  src.Flagged (d.reset p)
  := by
  by_cases hreach : src.device ∉ d.reach
  · rw [IrqSource.Flagged, d.reset_change.flagReg_eq hreach p]
    exact h
  · cases d with
    | spi | uart => cases src <;> exact h
    | _ => cases src <;> simp_all [IrqSource.device, IoVDev.reach]

/-- An access leaves a flag that it does not clear. -/
theorem IoStep.flagged
    {e : IoEvent} (hstep : IoStep e p q) (haccess : e.isAccess = true) (h : src.Flagged p)
    (hkeep : ¬ src.ClearsFlag p e) :
  src.Flagged q
  := by
  cases hstep with
  | @read addr val _ _ hrun =>
    cases hat : p.vdevAt addr with
    | none =>
      rw [devRead_none hat] at hrun
      cases hrun
      exact h
    | some d =>
      rw [devRead_at hat] at hrun
      exact IoVDev.read_flagged (p := { p with history := p.history ++ _ }) hat hrun h hkeep
  | @write addr val _ _ hrun =>
    cases hat : p.vdevAt addr with
    | none =>
      rw [devWrite_none hat] at hrun
      cases hrun
      exact h
    | some d =>
      rw [devWrite_at hat] at hrun
      exact IoVDev.write_flagged (p := { p with history := p.history ++ _ }) hat hrun h hkeep
  | @reset addr =>
    cases hat : p.vdevAt addr with
    | none =>
      rw [devReset_none hat]
      exact h
    | some d =>
      rw [devReset_at hat]
      have hother : d ≠ src.device := by
        rintro rfl
        exact hkeep hat
      exact IoVDev.reset_flagged (p := { p with history := _ }) hother h
  | tick | async => contradiction

end

/-! ### Raised interrupts -/

/-- The interrupt of a source, where its enable bit and its flag are set -/
def IrqSource.RaisedIn (p : Peripherals) (event : DevEvent) (src : IrqSource) : Prop :=
  event = .irqRaise (irqVectTableIndex (src.vect p)) ∧ src.Enabled p ∧ src.Flagged p

/-- A bit that is set in three masks -/
theorem and_and_ne_zero
    {x y z mask : Byte} (h : x &&& y &&& z &&& mask ≠ 0) :
  x &&& mask ≠ 0 ∧ y &&& mask ≠ 0
  := by
  constructor
  · intro hx
    rw [show x &&& y &&& z &&& mask = x &&& mask &&& (y &&& z) by ac_rfl, hx] at h
    exact h BitVec.zero_and
  · intro hy
    rw [show x &&& y &&& z &&& mask = y &&& mask &&& (x &&& z) by ac_rfl, hy] at h
    exact h BitVec.zero_and

theorem timerIntrCb_raises
    {p q : Peripherals} {r : CbRet × List DevEvent} (hrun : timerIntrCb.run p = .ok (r, q)) :
  ∀ event ∈ r.2, ∃ src : IrqSource, src.RaisedIn p event
  := by
  rw [timerIntrCb, run_bind_of_ok rfl, run_bind_of_ok rfl] at hrun
  have hbits {mask : Byte}
      (h : p.timerIntr.timsk &&& p.timerIntr.tifr &&& p.timerIntr.funcMask &&& mask ≠ 0) :=
    and_and_ne_zero h
  have hraise {vect : IntVectTable} {mask : Byte} (src : IrqSource)
      (h : (timerIntrRaise vect mask).run p = .ok (r, q))
      (hsrc : src.RaisedIn p (.irqRaise (irqVectTableIndex vect))) :
      ∀ event ∈ r.2, ∃ src : IrqSource, src.RaisedIn p event := by
    cases h
    rw [List.forall_mem_singleton]
    exact ⟨src, hsrc⟩
  split at hrun
  · cases hrun
    exact List.forall_mem_nil _
  dsimp only at hrun
  split at hrun
  · cases hrun
    exact List.forall_mem_nil _
  split at hrun
  · next h => exact hraise .timer0Ovf hrun ⟨rfl, hbits h⟩
  split at hrun
  · next h => exact hraise .timer1Capt hrun ⟨rfl, hbits h⟩
  split at hrun
  · next h => exact hraise .timer1CompB hrun ⟨rfl, hbits h⟩
  split at hrun
  · next h => exact hraise .timer1CompA hrun ⟨rfl, hbits h⟩
  split at hrun
  · next h => exact hraise .timer1Ovf hrun ⟨rfl, hbits h⟩
  · cases hrun

theorem uartRaises
    (p : Peripherals) :
  ∀ event ∈ p.uartIntr.raises, ∃ src : IrqSource, src.RaisedIn p event
  := by
  have hone {c : Prop} [Decidable c] {event : DevEvent} (src : IrqSource)
      (h : c → src.RaisedIn p event) :
      ∀ event' ∈ if c then [event] else [], ∃ src : IrqSource, src.RaisedIn p event' := by
    split
    · next hc =>
      rw [List.forall_mem_singleton]
      exact ⟨src, h hc⟩
    · exact List.forall_mem_nil _
  rw [UARTIntr.raises, List.forall_mem_append, List.forall_mem_append]
  constructor
  · constructor
    · exact hone .uartRx fun h => ⟨rfl, h⟩
    · exact hone .uartTx fun h => ⟨rfl, h⟩
  · exact hone .uartUdre fun h => ⟨rfl, h.1, h.2.1⟩

/-- A callback raises RESET, or the interrupt of a source whose enable bit and flag are set. -/
theorem callback_raises
    {time : Nat} {f : CallBackFP} {p q : Peripherals} {r : Bool × List DevEvent}
    (hrun : (callbackExecute time f).run p = .ok (r, q)) :
  ∀ event ∈ r.2, event = .irqRaise (irqVectTableIndex .RESET)
    ∨ ∃ src : IrqSource, src.RaisedIn p event
  := by
  rw [callbackExecute, run_bind_eq_ok] at hrun
  obtain ⟨r', _, hrun, h⟩ := hrun
  cases h
  have hclk {x : DevM CbRet} (h : (clkCallback x).run p = .ok (r', q)) : r'.2 = [] := by
    rw [clkCallback, run_bind_eq_ok] at h
    obtain ⟨_, _, _, h⟩ := h
    cases h
    rfl
  change ∀ event ∈ r'.2, _
  have hnone (h : r'.2 = []) : ∀ event ∈ r'.2, event = .irqRaise (irqVectTableIndex .RESET)
      ∨ ∃ src : IrqSource, src.RaisedIn p event := by
    rw [h]
    exact List.forall_mem_nil _
  cases f with
  | timer0ClkIncrCb | timer16ClkIncrCb | spiClkIncrCb | uartClkIncrCb | adcClkIncrCb
  | wdtcrToeClrCb | eepromMweClrCb => exact hnone (hclk hrun)
  | timerIntrCb => exact fun event hmem => .inr (timerIntrCb_raises hrun event hmem)
  | spiIntrCb =>
    change spiIntrCb.run p = _ at hrun
    rw [spiIntrCb, run_bind_of_ok rfl, run_bind_of_ok rfl] at hrun
    split at hrun
    · cases hrun
      exact hnone rfl
    split at hrun
    · next h =>
      cases hrun
      rw [List.forall_mem_singleton]
      exact .inr ⟨.spiStc, rfl, h.2⟩
    · cases hrun
      exact hnone rfl
  | uartIntrCb =>
    change uartIntrCb.run p = _ at hrun
    rw [uartIntrCb, run_bind_of_ok rfl, run_bind_of_ok rfl] at hrun
    split at hrun
    · cases hrun
      exact hnone rfl
    · cases hrun
      exact fun event hmem => .inr (uartRaises p event hmem)
  | adcIntrCb =>
    change adcIntrCb.run p = _ at hrun
    rw [adcIntrCb, run_bind_of_ok rfl, run_bind_of_ok rfl] at hrun
    split at hrun
    · cases hrun
      exact hnone rfl
    split at hrun
    · next h =>
      cases hrun
      rw [List.forall_mem_singleton]
      exact .inr ⟨.adc, rfl, h.2⟩
    · cases hrun
      exact hnone rfl
  | wdtcrTimerCb =>
    change (wdtcrTimerCb _).run p = _ at hrun
    rw [wdtcrTimerCb, run_bind_of_ok rfl, run_bind_of_ok rfl] at hrun
    split at hrun
    · cases hrun
      exact hnone rfl
    dsimp only at hrun
    split at hrun
    · cases hrun
      rw [List.forall_mem_singleton]
      exact .inl rfl
    · cases hrun
      exact hnone rfl
  | eepromWrOpCb =>
    change eepromWrOpCb.run p = _ at hrun
    rw [eepromWrOpCb, run_bind_of_ok rfl] at hrun
    split at hrun
    · cases hrun
      exact hnone rfl
    · obtain ⟨_, _, -, hrun⟩ := run_bind_eq_ok.mp hrun
      cases hrun
      exact hnone rfl

/-- A pass over callbacks raises the interrupt of a source: it runs a callback that raises it where
the enable bit and the flag are set. -/
def IrqSource.RaisedBy (time : Nat) (fs : List CallBackFP) (p : Peripherals) (src : IrqSource) : Prop :=
  ∃ v ∈ visits (callbackExecute time) fs p, src.Enabled v.2 ∧ src.Flagged v.2
    ∧ ∃ r q, (callbackExecute time v.1).run v.2 = .ok (r, q)
      ∧ .irqRaise (irqVectTableIndex (src.vect v.2)) ∈ r.2

/-- The slot of a source depends on the vectors of the UART only. -/
theorem IrqSource.vect_eq
    {p q : Peripherals} (h : uartVects q = uartVects p) (src : IrqSource) :
  src.vect q = src.vect p
  := by
  cases src with
  | uartRx => exact congrArg Prod.fst h
  | uartTx => exact congrArg (fun v => v.2.1) h
  | uartUdre => exact congrArg (fun v => v.2.2) h
  | _ => rfl

/-- A pass over callbacks raises RESET and the interrupts of sources that it leaves enabled. -/
theorem pass_raises
    {time : Nat} {fs : List CallBackFP} {p q : Peripherals} {r : List CallBackFP × List DevEvent}
    (hrun : (callbackListExecuteAll time fs).run p = .ok (r, q)) :
  enables q = enables p ∧ uartVects q = uartVects p
    ∧ ∀ event ∈ r.2, event = .irqRaise (irqVectTableIndex .RESET)
      ∨ ∃ src : IrqSource, event = .irqRaise (irqVectTableIndex (src.vect p))
        ∧ src.RaisedBy time fs p ∧ src.Enabled q
  := by
  have hkeeps : ∀ f ∈ fs, Keeps (fun s => enables s = enables p ∧ uartVects s = uartVects p)
      (fun _ => True) (callbackExecute time f) := by
    intro f _
    apply (Triple.and (callback_enables time f (enables p)) (callback_vects time f (uartVects p))).conseq
    · exact fun _ h => h
    · exact fun _ _ h => h
    · exact fun _ _ => trivial
  obtain ⟨⟨henables, hvects⟩, -⟩ := (pass_keeps hkeeps).of_ok ⟨rfl, rfl⟩ hrun
  use henables, hvects
  intro event hmem
  obtain ⟨v, hv, r', u, hcallback, hevent⟩ := pass_emits hrun event hmem
  obtain ⟨hvenables, hvvects⟩ := visits_keeps hkeeps ⟨rfl, rfl⟩ v hv
  obtain hreset | ⟨src, rfl, henabled, hflagged⟩ := callback_raises hcallback event hevent
  · exact .inl hreset
  · right
    use src
    rw [src.vect_eq hvvects] at hevent ⊢
    use rfl
    constructor
    · use v, hv, henabled, hflagged, r', u, hcallback
      rw [src.vect_eq hvvects]
      exact hevent
    · exact henabled.of_enables (henables.trans hvenables.symm)

end SimulAvr
