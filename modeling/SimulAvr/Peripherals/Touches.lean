import SimulAvr.Peripherals.State

/-!
# What a method does, and what it changes

A device owns its registers and its callbacks.  `Touches S x` says that the program `x` changes
what the devices in `S` own and nothing else, so that it leaves the registers and the callbacks
of every other device (`Touches.leaves`).
-/

namespace SimulAvr

open Program

/-- The device that holds a callback -/
def CallBackFP.owner : CallBackFP → IoVDev
  | timerIntrCb => .timerIntr
  | timer0ClkIncrCb => .timer0
  | timer16ClkIncrCb => .timer16
  | spiIntrCb => .spiIntr
  | spiClkIncrCb => .spi
  | uartIntrCb => .uartIntr
  | uartClkIncrCb => .uart
  | adcIntrCb => .adcIntr
  | adcClkIncrCb => .adc
  | wdtcrTimerCb | wdtcrToeClrCb => .wdtcr
  | eepromWrOpCb | eepromMweClrCb => .eeprom

/-- The type of the registers of a device -/
def IoVDev.Regs : IoVDev → Type
  | timerIntr => TimerIntr
  | timer0 => Timer0
  | timer16 => Timer16
  | ocreg16 _ => OCReg16
  | spiIntr => SPIIntr
  | spi => SPI
  | uartIntr => UARTIntr
  | uart => UART
  | adcIntr => ADCIntr
  | adc => ADC
  | wdtcr => WDTCR
  | eeprom => EEProm
  | port _ => Port
  | usbIntr => USBInter
  | usb => USB
  | oseid => Oseid

/-- The registers of a device -/
def IoVDev.regs : (d : IoVDev) → Peripherals → d.Regs
  | timerIntr, p => p.timerIntr
  | timer0, p => p.timer0
  | timer16, p => p.timer16
  | ocreg16 n, p => p.ocreg16 n
  | spiIntr, p => p.spiIntr
  | spi, p => p.spi
  | uartIntr, p => p.uartIntr
  | uart, p => p.uart
  | adcIntr, p => p.adcIntr
  | adc, p => p.adc
  | wdtcr, p => p.wdtcr
  | eeprom, p => p.eeprom
  | port n, p => p.port n
  | usbIntr, p => p.usbIntr
  | usb, p => p.usb
  | oseid, p => p.oseid

/-! ### Actions -/

section

variable {α β : Type} {P : Peripherals → Prop} {E : DevError → Prop}

/-- A read of the peripherals, and the rest of the program -/
theorem triple_getDev
    {f : Peripherals → α} {g : α → DevM β} {Q : β → Peripherals → Prop}
    (h : ∀ a, Triple (fun p => P p ∧ f p = a) (g a) Q E) :
  Triple P (getDev f >>= g) Q E
  := by
  intro p hp
  rw [run_bind_of_ok rfl]
  apply h (f p) p ⟨hp, rfl⟩

/-- A conditional change -/
theorem triple_devIf
    {c : Prop} [Decidable c] {f : Peripherals → Peripherals} {Q : Unit → Peripherals → Prop}
    (hf : ∀ p, c → P p → Q () (f p)) (hskip : ∀ p, ¬ c → P p → Q () p) :
  Triple P (devIf c (setDev f)) Q E
  := Triple.ite (fun hc p hp => hf p hc hp) (fun hc => Triple.pure fun p hp => hskip p hc hp)

end

/-! ### Changes -/

/-- The changes of what the devices in `S` own, and of the outside world -/
inductive Change (S : List IoVDev) : (Peripherals → Peripherals) → Prop where
  | timerIntr (h : .timerIntr ∈ S) (f : TimerIntr → TimerIntr) :
      Change S fun p => { p with timerIntr := f p.timerIntr }
  | timer0 (h : .timer0 ∈ S) (f : Timer0 → Timer0) :
      Change S fun p => { p with timer0 := f p.timer0 }
  | timer16 (h : .timer16 ∈ S) (f : Timer16 → Timer16) :
      Change S fun p => { p with timer16 := f p.timer16 }
  | ocreg16 {n : Nat} (h : .ocreg16 n ∈ S) (f : OCReg16 → OCReg16) :
      Change S fun p => { p with ocreg16 := Function.update p.ocreg16 n (f (p.ocreg16 n)) }
  | spiIntr (h : .spiIntr ∈ S) (f : SPIIntr → SPIIntr) :
      Change S fun p => { p with spiIntr := f p.spiIntr }
  | spi (h : .spi ∈ S) (f : SPI → SPI) :
      Change S fun p => { p with spi := f p.spi }
  | uartIntr (h : .uartIntr ∈ S) (f : UARTIntr → UARTIntr) :
      Change S fun p => { p with uartIntr := f p.uartIntr }
  | uart (h : .uart ∈ S) (f : UART → UART) :
      Change S fun p => { p with uart := f p.uart }
  | adcIntr (h : .adcIntr ∈ S) (f : ADCIntr → ADCIntr) :
      Change S fun p => { p with adcIntr := f p.adcIntr }
  | adc (h : .adc ∈ S) (f : ADC → ADC) :
      Change S fun p => { p with adc := f p.adc }
  | wdtcr (h : .wdtcr ∈ S) (f : Peripherals → WDTCR) :
      Change S fun p => { p with wdtcr := f p }
  | eeprom (h : .eeprom ∈ S) (f : EEProm → EEProm) :
      Change S fun p => { p with eeprom := f p.eeprom }
  | port {n : Nat} (h : .port n ∈ S) (f : Port → Port) :
      Change S fun p => { p with port := Function.update p.port n (f (p.port n)) }
  | usbIntr (h : .usbIntr ∈ S) (f : USBInter → USBInter) :
      Change S fun p => { p with usbIntr := f p.usbIntr }
  | usb (h : .usb ∈ S) (f : USB → USB) :
      Change S fun p => { p with usb := f p.usb }
  | oseid (h : .oseid ∈ S) (f : Oseid → Oseid) :
      Change S fun p => { p with oseid := f p.oseid }
  | install (f : CallBackFP) (h : f.owner ∈ S) :
      Change S fun p => { p with cbs := p.cbs.install f }
  | ensure (f : CallBackFP) (h : f.owner ∈ S) :
      Change S fun p => { p with cbs := p.cbs.ensure f }
  | withdraw (f : CallBackFP) (h : f.owner ∈ S) :
      Change S fun p => { p with cbs := p.cbs.withdraw f }
  | world (w : Peripherals → World) :
      Change S fun p => { p with world := w p }
  | comp {f g : Peripherals → Peripherals} (hf : Change S f) (hg : Change S g) :
      Change S fun p => g (f p)

/-- What a device sees of a callback: whether it holds it, and how often the lists have it -/
def CallBacks.view (cbs : CallBacks) (f : CallBackFP) : Bool × Nat × Nat :=
  (cbs.held f, cbs.clkCb.count f, cbs.asyncCb.count f)

section

variable (cbs : CallBacks) {f g : CallBackFP}

/-- Another list of callbacks of the clock -/
theorem view_clkCb
    (fs : List CallBackFP) :
  ({ cbs with clkCb := fs }).view f = ((cbs.view f).1, fs.count f, (cbs.view f).2.2)
  := rfl

/-- Another list of asynchronous callbacks -/
theorem view_asyncCb
    (fs : List CallBackFP) :
  ({ cbs with asyncCb := fs }).view f = ((cbs.view f).1, (cbs.view f).2.1, fs.count f)
  := rfl

theorem view_install
    (hne : f ≠ g) :
  (cbs.install g).view f = cbs.view f
  := by
  simp only [CallBacks.view, CallBacks.install, Function.update_of_ne hne]
  split <;> simp [List.count_append, hne.symm]

theorem view_withdraw
    (hne : f ≠ g) :
  (cbs.withdraw g).view f = cbs.view f
  := by
  simp only [CallBacks.view, CallBacks.withdraw, Function.update_of_ne hne]

/-- A device that withdraws its callback leaves it in its list. -/
theorem view_withdraw_self :
  (cbs.withdraw f).view f = (false, (cbs.view f).2)
  := Prod.ext (Function.update_self (β := fun _ => Bool) f false cbs.held) rfl

/-- A device that holds its callback installs no other. -/
theorem view_ensure_held
    {lists : Nat × Nat} (hview : cbs.view f = (true, lists)) :
  (cbs.ensure f).view f = (true, lists)
  := by
  have hheld : cbs.held f = true := congrArg Prod.fst hview
  rw [CallBacks.ensure, if_pos hheld, hview]

/-- A new callback of the clock -/
theorem view_ensure_clk
    {n m : Nat} (hclk : f.isClk = true) (hview : cbs.view f = (false, n, m)) :
  (cbs.ensure f).view f = (true, n + 1, m)
  := by
  have hheld : ¬ cbs.held f = true := ne_true_of_eq_false (congrArg Prod.fst hview)
  have hlists : (cbs.clkCb.count f, cbs.asyncCb.count f) = (n, m) := congrArg Prod.snd hview
  obtain ⟨rfl, rfl⟩ := Prod.mk.inj hlists
  rw [CallBacks.ensure, if_neg hheld]
  apply Prod.ext (Function.update_self (β := fun _ => Bool) f true cbs.held)
  change ((if f.isClk then _ else _ : List _).count f, (if f.isClk then _ else _ : List _).count f) = _
  rw [if_pos hclk, if_pos hclk, List.count_append, List.count_singleton_self]

/-- A new asynchronous callback -/
theorem view_ensure_async
    {n m : Nat} (hclk : f.isClk = false) (hview : cbs.view f = (false, n, m)) :
  (cbs.ensure f).view f = (true, n, m + 1)
  := by
  have hheld : ¬ cbs.held f = true := ne_true_of_eq_false (congrArg Prod.fst hview)
  have hlists : (cbs.clkCb.count f, cbs.asyncCb.count f) = (n, m) := congrArg Prod.snd hview
  obtain ⟨rfl, rfl⟩ := Prod.mk.inj hlists
  rw [CallBacks.ensure, if_neg hheld]
  apply Prod.ext (Function.update_self (β := fun _ => Bool) f true cbs.held)
  change ((if f.isClk then _ else _ : List _).count f, (if f.isClk then _ else _ : List _).count f) = _
  rw [hclk, if_neg Bool.false_ne_true, if_neg Bool.false_ne_true, List.count_append,
    List.count_singleton_self]

theorem view_ensure
    (hne : f ≠ g) :
  (cbs.ensure g).view f = cbs.view f
  := by
  rw [CallBacks.ensure]
  split
  · rfl
  · apply view_install cbs hne

end

/-- The list of the clock holds callbacks of the clock, the other list holds the others. -/
structure CallBacks.Separate (cbs : CallBacks) : Prop where
  clk : ∀ f ∈ cbs.clkCb, f.isClk = true
  async : ∀ f ∈ cbs.asyncCb, f.isClk = false

namespace CallBacks.Separate

variable {cbs : CallBacks} {f : CallBackFP}

theorem install
    (h : cbs.Separate) :
  (cbs.install f).Separate
  := by
  constructor
  · change ∀ g ∈ if f.isClk then cbs.clkCb ++ [f] else cbs.clkCb, _
    split
    · next hclk =>
      rw [List.forall_mem_append, List.forall_mem_singleton]
      exact ⟨h.clk, hclk⟩
    · exact h.clk
  · change ∀ g ∈ if f.isClk then cbs.asyncCb else cbs.asyncCb ++ [f], _
    split
    · exact h.async
    · next hclk =>
      rw [List.forall_mem_append, List.forall_mem_singleton]
      exact ⟨h.async, eq_false_of_ne_true hclk⟩

theorem ensure
    (h : cbs.Separate) :
  (cbs.ensure f).Separate
  := by
  rw [CallBacks.ensure]
  split
  · exact h
  · exact h.install

theorem withdraw
    (h : cbs.Separate) :
  (cbs.withdraw f).Separate
  := ⟨h.clk, h.async⟩

end CallBacks.Separate

namespace Change

variable {S : List IoVDev} {f : Peripherals → Peripherals}

theorem mono
    {T : List IoVDev} (hST : S ⊆ T) (h : Change S f) :
  Change T f
  := by
  induction h with
  | timerIntr h f => exact .timerIntr (hST h) f
  | timer0 h f => exact .timer0 (hST h) f
  | timer16 h f => exact .timer16 (hST h) f
  | ocreg16 h f => exact .ocreg16 (hST h) f
  | spiIntr h f => exact .spiIntr (hST h) f
  | spi h f => exact .spi (hST h) f
  | uartIntr h f => exact .uartIntr (hST h) f
  | uart h f => exact .uart (hST h) f
  | adcIntr h f => exact .adcIntr (hST h) f
  | adc h f => exact .adc (hST h) f
  | wdtcr h f => exact .wdtcr (hST h) f
  | eeprom h f => exact .eeprom (hST h) f
  | port h f => exact .port (hST h) f
  | usbIntr h f => exact .usbIntr (hST h) f
  | usb h f => exact .usb (hST h) f
  | oseid h f => exact .oseid (hST h) f
  | install f h => exact .install f (hST h)
  | ensure f h => exact .ensure f (hST h)
  | withdraw f h => exact .withdraw f (hST h)
  | world w => exact .world w
  | comp _ _ ihf ihg => exact .comp ihf ihg

/-- The callbacks of another device -/
theorem view
    (h : Change S f) {g : CallBackFP} (hg : g.owner ∉ S) (p : Peripherals) :
  (f p).cbs.view g = p.cbs.view g
  := by
  have hne {f : CallBackFP} (hf : f.owner ∈ S) : g ≠ f := by
    rintro rfl
    apply hg hf
  induction h generalizing p with
  | install f h => apply view_install p.cbs (hne h)
  | ensure f h => apply view_ensure p.cbs (hne h)
  | withdraw f h => apply view_withdraw p.cbs (hne h)
  | comp _ _ ihf ihg => rw [ihg, ihf]
  | _ => rfl

/-- Devices without callbacks leave those of the others. -/
theorem cbs_eq
    (h : Change S f) (hS : ∀ g : CallBackFP, g.owner ∉ S) (p : Peripherals) :
  (f p).cbs = p.cbs
  := by
  induction h generalizing p with
  | install g hg | ensure g hg | withdraw g hg => exact absurd hg (hS g)
  | comp _ _ ihf ihg => rw [ihg, ihf]
  | _ => rfl

/-- The registers of another device -/
theorem regs_eq
    (h : Change S f) {d : IoVDev} (hd : d ∉ S) (p : Peripherals) :
  d.regs (f p) = d.regs p
  := by
  have hne {d' : IoVDev} (hd' : d' ∈ S) : d ≠ d' := by
    rintro rfl
    apply hd hd'
  induction h generalizing p with
  | comp _ _ ihf ihg => rw [ihg, ihf]
  | ocreg16 h f =>
    cases d with
    | ocreg16 m =>
      apply Function.update_of_ne
      rintro rfl
      apply hd h
    | _ => rfl
  | port h f =>
    cases d with
    | port m =>
      apply Function.update_of_ne
      rintro rfl
      apply hd h
    | _ => rfl
  | install | ensure | withdraw | world => cases d <;> rfl
  | _ h f =>
    have hne := hne h
    cases d <;> first | rfl | exact absurd rfl hne

theorem separate
    (h : Change S f) {p : Peripherals} (hp : p.cbs.Separate) :
  (f p).cbs.Separate
  := by
  induction h generalizing p with
  | install => exact hp.install
  | ensure => exact hp.ensure
  | withdraw => exact hp.withdraw
  | comp _ _ ihf ihg => exact ihg (ihf hp)
  | _ => exact hp

/-- The devices that are attached, and the accesses so far -/
theorem attached
    (h : Change S f) (p : Peripherals) :
  (f p).vdevAt = p.vdevAt ∧ (f p).history = p.history
  := by
  induction h generalizing p with
  | comp _ _ ihf ihg => rw [(ihg _).1, (ihg _).2, (ihf _).1, (ihf _).2]; exact ⟨rfl, rfl⟩
  | _ => exact ⟨rfl, rfl⟩

end Change

/-! ### Programs -/

/-- The actions that change what the devices in `S` own -/
inductive DevAct (S : List IoVDev) : ∀ α : Type, DevM α → Prop where
  | get {α : Type} (f : Peripherals → α) : DevAct S α (getDev f)
  | error {α : Type} (fmt : String) (args : List Int) : DevAct S α (devError fmt args)
  | lift {α : Type} (x : Except DevError α) : DevAct S α (fun p => x.map fun a => (a, p))
  | world {α : Type} (next : World → Stream' α) (drop : World → Stream' α → World) :
      DevAct S α (worldRead next drop)
  | change {f : Peripherals → Peripherals} (h : Change S f) : DevAct S Unit (setDev f)

/-- The program changes what the devices in `S` own and nothing else. -/
def Touches (S : List IoVDev) {α : Type} (x : DevM α) : Prop :=
  Built (DevAct S) α x

namespace Touches

variable {S T : List IoVDev} {α β : Type} {x : DevM α}

theorem pure
    (a : α) :
  Touches S (pure a : DevM α)
  := Built.pure a

theorem bind
    {f : α → DevM β} (hx : Touches S x) (hf : ∀ a, Touches S (f a)) :
  Touches S (x >>= f)
  := Built.bind hx hf

theorem ite
    {c : Prop} [Decidable c] {y : DevM α} (hx : Touches S x) (hy : Touches S y) :
  Touches S (if c then x else y)
  := Built.ite hx hy

theorem devIf
    {c : Prop} [Decidable c] {x : DevM Unit} (hx : Touches S x) :
  Touches S (devIf c x)
  := ite hx (pure ())

theorem error
    (fmt : String) (args : List Int) :
  Touches S (devError fmt args : DevM α)
  := Built.action (.error fmt args)

theorem lift
    (x : Except DevError α) :
  Touches S (fun p => x.map fun a => (a, p))
  := Built.action (.lift x)

/-- A read of the outside world -/
theorem world
    (next : World → Stream' α) (drop : World → Stream' α → World) :
  Touches S (worldRead next drop)
  := Built.action (.world next drop)

/-- A read of the peripherals, and the rest of the program -/
theorem get
    {f : Peripherals → β} {g : β → DevM α} (h : ∀ b, Touches S (g b)) :
  Touches S (getDev f >>= g)
  := Built.bind (.action (.get f)) h

/-- A change -/
theorem set
    {f : Peripherals → Peripherals} (h : Change S f) :
  Touches S (setDev f)
  := Built.action (.change h)

theorem setCbs
    {f : CallBacks → CallBacks} (h : Change S fun p => { p with cbs := f p.cbs }) :
  Touches S (setCbs f)
  := set h

theorem mono
    (hST : S ⊆ T) (h : Touches S x) :
  Touches T x
  := by
  apply Built.mono _ h
  intro _ _ hact
  cases hact with
  | get f => exact .get f
  | error fmt args => exact .error fmt args
  | lift x => exact .lift x
  | world next drop => exact .world next drop
  | change h => exact .change (h.mono hST)

/-- What changes keep is kept by a run. -/
theorem keeps
    {I : Peripherals → Prop} (hI : ∀ f p, Change S f → I p → I (f p)) (h : Touches S x) :
  Keeps I (fun _ => True) x
  := by
  apply Built.keeps _ h
  intro _ _ hact p hp
  cases hact with
  | get f => exact hp
  | error fmt args => trivial
  | lift x => cases x <;> trivial
  | world next drop => exact hI _ p (.world fun p => drop p.world (next p.world).tail) hp
  | change h => exact hI _ p h hp

/-- What the changes leave, a run leaves. -/
theorem leaves
    (part : Peripherals → β) (hpart : ∀ f p, Change S f → part (f p) = part p)
    (h : Touches S x) {p p' : Peripherals} {a : α} (hrun : x.run p = .ok (a, p')) :
  part p' = part p
  := by
  apply (h.keeps (I := fun q => part q = part p) _).of_ok rfl hrun
  intro f q hf hq
  rw [hpart f q hf, hq]

end Touches

/-! ### Programs that leave a part -/

/-- Every run of `x` that returns leaves the part. -/
def Leaves {α β : Type} (part : Peripherals → β) (x : DevM α) : Prop :=
  ∀ b, Keeps (fun p => part p = b) (fun _ => True) x

namespace Leaves

variable {α β γ : Type} {part : Peripherals → β} {x : DevM α}

theorem run
    (h : Leaves part x) {p q : Peripherals} {a : α} (hrun : x.run p = .ok (a, q)) :
  part q = part p
  := (h (part p)).of_ok rfl hrun

/-- What is said of the part is kept. -/
theorem keeps
    (h : Leaves part x) (R : β → Prop) :
  Keeps (fun p => R (part p)) (fun _ => True) x
  := fun p hp => (h (part p)).conseq (fun _ h => h)
    (fun _ _ hq => show R _ from hq.symm ▸ hp) (fun _ h => h) p rfl

/-- A part of the part -/
theorem map
    (h : Leaves part x) (g : β → γ) :
  Leaves (fun p => g (part p)) x
  := fun b => h.keeps fun a => g a = b

theorem pure
    (a : α) :
  Leaves part (pure a : DevM α)
  := fun _ => Triple.pure fun _ h => h

theorem bind
    {f : α → DevM γ} (hx : Leaves part x) (hf : ∀ a, Leaves part (f a)) :
  Leaves part (x >>= f)
  := fun b => Triple.bind (hx b) fun a => hf a b

theorem ite
    {c : Prop} [Decidable c] {y : DevM α} (hx : Leaves part x) (hy : Leaves part y) :
  Leaves part (if c then x else y)
  := fun b => Triple.ite (fun _ => hx b) (fun _ => hy b)

theorem devIf
    {c : Prop} [Decidable c] {x : DevM Unit} (hx : Leaves part x) :
  Leaves part (devIf c x)
  := ite hx (pure ())

theorem error
    (fmt : String) (args : List Int) :
  Leaves part (devError fmt args : DevM α)
  := fun _ _ _ => trivial

/-- A read of the peripherals, and the rest of the program -/
theorem get
    {f : Peripherals → γ} {g : γ → DevM α} (h : ∀ c, Leaves part (g c)) :
  Leaves part (getDev f >>= g)
  := fun b p hp => h (f p) b p hp

/-- A change -/
theorem set
    {f : Peripherals → Peripherals} (h : ∀ p, part (f p) = part p) :
  Leaves part (setDev f)
  := fun _ p hp => (h p).trans hp

/-- A read of the outside world -/
theorem world
    {next : World → Stream' α} {drop : World → Stream' α → World}
    (h : ∀ p w, part { p with world := w } = part p) :
  Leaves part (worldRead next drop)
  := fun _ p hp => (h p _).trans hp

/-- A program that changes what other devices own -/
theorem of_touches
    {S : List IoVDev} (hx : Touches S x) (h : ∀ f p, Change S f → part (f p) = part p) :
  Leaves part x
  := fun _ => hx.keeps fun f p hf hp => (h f p hf).trans hp

end Leaves

end SimulAvr
