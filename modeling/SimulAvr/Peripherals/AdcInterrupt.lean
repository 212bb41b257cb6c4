import SimulAvr.Peripherals.Dispatch

/-!
# The interrupt of the A/D converter

A conversion that completes sets ADIF, and the callback of the interrupt raises it and clears the
flag.  A write to ADCSR sets the register as a whole, the flag included, and takes the callback
away unless it starts a conversion.  So the flag is cleared by raising the interrupt or by a write
with ADIF set, and the interrupt is raised once, exactly if no write clears the flag otherwise and no
conversion completes without the callback.
-/

namespace SimulAvr

open Program CallbackList Transition

/-! ### Events -/

/-- The event raises the interrupt of the A/D converter. -/
def DevEvent.isAdc : DevEvent → Bool
  | .irqRaise irq => irq = irqVectTableIndex .ADC

/-- Another vector -/
theorem isAdc_eq_false
    {vect : IntVectTable} (h : vect ≠ .ADC) :
  DevEvent.isAdc (.irqRaise (irqVectTableIndex vect)) = false
  := by
  cases vect <;> first | rfl | contradiction

/-- The vectors of the UART -/
def uartVects (p : Peripherals) : IntVectTable × IntVectTable × IntVectTable :=
  (p.uartIntr.urx, p.uartIntr.utx, p.uartIntr.uudre)

/-- The UART does not raise the interrupt of the A/D converter. -/
structure UartApart (p : Peripherals) : Prop where
  urx : p.uartIntr.urx ≠ .ADC
  utx : p.uartIntr.utx ≠ .ADC
  uudre : p.uartIntr.uudre ≠ .ADC

theorem UartApart.of_vects
    {p q : Peripherals} (h : UartApart p) (hq : uartVects q = uartVects p) :
  UartApart q
  := by
  obtain ⟨hurx, htail⟩ := Prod.mk.inj hq
  obtain ⟨hutx, huudre⟩ := Prod.mk.inj htail
  constructor
  · rw [hurx]
    exact h.urx
  · rw [hutx]
    exact h.utx
  · rw [huudre]
    exact h.uudre

/-- A list of at most one event, which is not of the A/D converter -/
theorem countP_raise
    {c : Prop} [Decidable c] {vect : IntVectTable} (h : vect ≠ .ADC) :
  (if c then [DevEvent.irqRaise (irqVectTableIndex vect)] else []).countP DevEvent.isAdc = 0
  := by
  split
  · rw [List.countP_singleton, isAdc_eq_false h]
    rfl
  · rfl

theorem raises_countP
    {p : Peripherals} (h : UartApart p) :
  p.uartIntr.raises.countP DevEvent.isAdc = 0
  := by
  rw [UARTIntr.raises, List.countP_append, List.countP_append, countP_raise h.urx, countP_raise h.utx,
    countP_raise h.uudre]

/-! ### The vectors of the UART -/

/-- Devices other than the UART interrupts leave the vectors. -/
theorem Change.uartVects_eq
    {S : List IoVDev} {f : Peripherals → Peripherals} (h : Change S f) (hintr : .uartIntr ∉ S)
    (p : Peripherals) :
  uartVects (f p) = uartVects p
  := congrArg (fun ti : UARTIntr => (ti.urx, ti.utx, ti.uudre)) (h.regs_eq (d := .uartIntr) hintr p)

/-- A change that leaves the vectors -/
theorem setUARTIntr_vects
    {f : UARTIntr → UARTIntr}
    (h : ∀ ti, ((f ti).urx, (f ti).utx, (f ti).uudre) = (ti.urx, ti.utx, ti.uudre)) :
  Leaves uartVects (setUARTIntr f)
  := .set fun p => h p.uartIntr

theorem uartRead_vects
    (addr : Int) :
  Leaves uartVects (uartRead addr)
  := by
  refine .get fun _ => .get fun _ => .ite (.bind (setUARTIntr_vects fun _ => rfl) fun _ =>
    .bind (.devIf ?_) fun _ => .get fun _ => .pure _) (.error _ _)
  refine .bind (.bind (.world fun _ _ => rfl) fun _ => .pure _) fun _ =>
    .bind (.set fun _ => rfl) fun _ => setUARTIntr_vects fun ti => ?_
  split <;> rfl

theorem uartWrite_vects
    (addr : Int) (val : Byte) :
  Leaves uartVects (uartWrite addr val)
  := by
  refine .get fun _ => .ite (.bind (setUARTIntr_vects fun ti => ?_) fun _ => .get fun _ =>
    .bind (.set fun _ => rfl) fun _ => .bind (.set fun _ => rfl) fun _ => .set fun _ => rfl)
    (.error _ _)
  split <;> rfl

theorem uartIntrWrite_vects
    (addr : Int) (val : Byte) :
  Leaves uartVects (uartIntrWrite addr val)
  := .get fun _ => .ite (setUARTIntr_vects fun _ => rfl) (.ite (setUARTIntr_vects fun _ => rfl) (.ite
    (.devIf (setUARTIntr_vects fun _ => rfl)) (.ite (.bind (setUARTIntr_vects fun _ => rfl) fun _ =>
      .ite (.set fun _ => rfl) (.set fun _ => rfl)) (.error _ _))))

theorem callback_vects
    (time : Nat) (f : CallBackFP) :
  Leaves uartVects (callbackExecute time f)
  := by
  cases f with
  | uartIntrCb =>
    exact .bind (.get fun _ => .get fun _ => .ite (.pure _)
      (.bind (setUARTIntr_vects fun _ => rfl) fun _ => .pure _)) fun _ => .pure _
  | uartClkIncrCb =>
    exact .bind (.bind (.get fun _ => .get fun _ => .get fun _ => .ite (.pure _) (.ite (.error _ _)
      (.bind (.set fun _ => rfl) fun _ => .ite (.ite
        (.bind (setUARTIntr_vects fun _ => rfl) fun _ => .bind (.set fun _ => rfl) fun _ => .pure _)
        (.bind (setUARTIntr_vects fun _ => rfl) fun _ => .bind (.set fun _ => rfl) fun _ => .pure _))
        (.pure _)))) fun _ => .pure _) fun _ => .pure _
  | _ =>
    apply Leaves.of_touches (callbackExecute_touches time _)
    intro g p hg
    apply hg.uartVects_eq
    simp [CallBackFP.reach, CallBackFP.owner]

/-- A step leaves the vectors of the UART. -/
theorem IoStep.uartVects_eq
    {e : IoEvent} {p q : Peripherals} (hstep : IoStep e p q) :
  uartVects q = uartVects p
  := by
  apply hstep.leaves
  · exact fun _ _ _ => rfl
  · exact fun _ _ => rfl
  · intro addr d _ _
    by_cases hd : d = .uart
    · rw [hd]
      exact uartRead_vects addr
    · apply Leaves.of_touches (d.read_touches addr)
      intro f p hf
      apply hf.uartVects_eq
      cases d <;> simp_all [IoVDev.readReach]
  · intro addr val d _ _
    by_cases hd : d = .uart
    · rw [hd]
      exact uartWrite_vects addr val
    by_cases hintr : d = .uartIntr
    · rw [hintr]
      exact uartIntrWrite_vects addr val
    · apply Leaves.of_touches (d.write_touches addr val)
      intro f p hf
      apply hf.uartVects_eq
      cases d <;> simp_all [IoVDev.reach]
  · intro addr d _ _ p
    by_cases hd : d = .uart
    · rw [hd]
      rfl
    by_cases hintr : d = .uartIntr
    · rw [hintr]
      rfl
    · apply d.reset_change.uartVects_eq
      cases d <;> simp_all [IoVDev.reach]
  · exact callback_vects

/-! ### What the interrupt depends on -/

/-- ADIF is set. -/
def AdcFlag (p : Peripherals) : Prop :=
  p.adcIntr.adcsr &&& maskADIF ≠ 0

/-- ADEN and ADIE are set. -/
def AdcEnabled (p : Peripherals) : Prop :=
  p.adcIntr.adcsr &&& maskADEN ≠ 0 ∧ p.adcIntr.adcsr &&& maskADIE ≠ 0

/-- ADEN, ADIE and ADIF are set. -/
def AdcPending (p : Peripherals) : Prop :=
  AdcEnabled p ∧ AdcFlag p

/-- A conversion completes at a clock. -/
def AdcCompletes (ck : Nat) (p : Peripherals) : Prop :=
  p.cbs.held .adcClkIncrCb = true ∧ p.adc.adcCount = 1
    ∧ isDivisibleBy ck (p.adc.divisor.toNat * p.adc.uDivisor.toNat) = true

/-- The registers and the callbacks of the A/D converter -/
def adcPart (p : Peripherals) : ADCIntr × ADC × (Bool × Nat × Nat) × (Bool × Nat × Nat) :=
  (p.adcIntr, p.adc, p.cbs.view .adcIntrCb, p.cbs.view .adcClkIncrCb)

/-- Other devices leave the A/D converter. -/
theorem Change.adcPart_eq
    {S : List IoVDev} {f : Peripherals → Peripherals} (h : Change S f) (hintr : .adcIntr ∉ S)
    (hadc : .adc ∉ S) (p : Peripherals) :
  adcPart (f p) = adcPart p
  := by
  have hintr' : (f p).adcIntr = p.adcIntr := h.regs_eq (d := .adcIntr) hintr p
  have hadc' : (f p).adc = p.adc := h.regs_eq (d := .adc) hadc p
  rw [adcPart, hintr', hadc', h.view (g := .adcIntrCb) hintr p, h.view (g := .adcClkIncrCb) hadc p]
  rfl

/-- The callbacks other than those of the A/D converter leave it. -/
theorem callback_adcPart
    {f : CallBackFP} (hintr : f ≠ .adcIntrCb) (hclk : f ≠ .adcClkIncrCb) (time : Nat) :
  Leaves adcPart (callbackExecute time f)
  := by
  apply Leaves.of_touches (callbackExecute_touches time f)
  intro g p hg
  apply hg.adcPart_eq <;> cases f <;> simp_all [CallBackFP.reach, CallBackFP.owner]

/-- The device is neither the A/D converter nor its interrupts. -/
theorem IoStep.adc_access
    {e : IoEvent} {p q : Peripherals} (hstep : IoStep e p q) (haccess : e.isAccess = true)
    (hwrite : e.writesTo .adcIntr p = false) (hreset : e.resets .adcIntr p = false)
    (hresetAdc : e.resets .adc p = false) :
  adcPart q = adcPart p
  := by
  apply hstep.access_leaves haccess
  · exact fun _ _ => rfl
  · intro addr d _ _
    apply Leaves.of_touches (d.read_touches addr)
    intro f p hf
    apply hf.adcPart_eq <;> cases d <;> simp [IoVDev.readReach]
  · rintro addr val d rfl hat
    have hd : d ≠ .adcIntr := by
      rintro rfl
      exact of_decide_eq_false hwrite hat
    by_cases hadc : d = .adc
    · rw [hadc]
      exact .error _ _
    · apply Leaves.of_touches (d.write_touches addr val)
      intro f p hf
      apply hf.adcPart_eq <;> cases d <;> simp_all [IoVDev.reach]
  · rintro addr d rfl hat p
    have hd : d ≠ .adcIntr := by
      rintro rfl
      exact of_decide_eq_false hreset hat
    have hadc : d ≠ .adc := by
      rintro rfl
      exact of_decide_eq_false hresetAdc hat
    apply d.reset_change.adcPart_eq <;> cases d <;> simp_all [IoVDev.reach]

/-! ### A tick of the conversion -/

/-- Whether the callback of the interrupt is held, and how often its list has it -/
def adcIntrListed (p : Peripherals) : Bool × Nat :=
  (p.cbs.held .adcIntrCb, p.cbs.asyncCb.count .adcIntrCb)

/-- What a tick does: the flags, the callback of the interrupt, and whether the conversion goes on -/
structure AdcTicked (ck : Nat) (p : Peripherals) (going : Bool) (s : Byte × (Bool × Nat) × Bool) :
    Prop where
  adcsr : s.1 = p.adcIntr.adcsr
    ∨ AdcCompletes ck p ∧ s.1 = (p.adcIntr.adcsr ||| maskADIF) &&& ~~~maskADSC
  intr : s.2.1 = adcIntrListed p
  going : s.2.2 = going

/-- What a tick may change -/
def adcTickPart (p : Peripherals) : Byte × (Bool × Nat) × Bool :=
  (p.adcIntr.adcsr, adcIntrListed p, p.cbs.held .adcClkIncrCb)

/-- The counter reaches zero from one only. -/
theorem adcCount_zero
    {count : Word} {divides : Bool}
    (h : (if divides then count - 1 else count) ≠ (count.setWidth 8).setWidth 16
      ∧ (if divides then count - 1 else count) = 0) :
  count = 1 ∧ divides = true
  := by
  obtain ⟨hne, hzero⟩ := h
  cases divides with
  | false =>
    change count = 0 at hzero
    subst hzero
    exact absurd rfl hne
  | true =>
    constructor
    · change count - 1 = 0 at hzero
      rw [← BitVec.sub_add_cancel count 1, hzero]
      rfl
    · rfl

theorem adcClkIncrCb_ticked
    {p : Peripherals} (hheld : p.cbs.held .adcClkIncrCb = true) (ck : Nat) :
  Triple (fun s => adcPart s = adcPart p) (callbackExecute ck .adcClkIncrCb)
    (fun r s => AdcTicked ck p (!r.1) (adcTickPart s)) (fun _ => True)
  := by
  apply callbackExecute_clk (Q := fun removed s => AdcTicked ck p (!removed) (adcTickPart s)) rfl
  intro s hs
  simp only [adcPart, Prod.mk.injEq] at hs
  obtain ⟨hintr, hadc, hview, hclk⟩ := hs
  have hheld' : s.cbs.held .adcClkIncrCb = true := (congrArg Prod.fst hclk :).trans hheld
  have hpart : adcTickPart s = (p.adcIntr.adcsr, adcIntrListed p, true) := by
    have hlisted : adcIntrListed s = adcIntrListed p := congrArg (fun v => (v.1, v.2.2)) hview
    rw [adcTickPart, hintr, hlisted, hheld']
  have hstays {f : ADC → ADC} (x : Byte × (Bool × Nat) × Bool) :
      Keeps (fun s => adcTickPart s = x) (fun _ => True) (setADC f) := fun _ h => h
  rw [adcClkIncrCb, run_bind_of_ok rfl, run_bind_of_ok rfl, if_neg (not_not.mpr hheld'), hadc]
  clear hintr hadc hview hclk hheld'
  revert s
  change Triple (fun s => adcTickPart s = (p.adcIntr.adcsr, adcIntrListed p, true)) _
    (fun ret s => AdcTicked ck p (!decide (ret = CbRet.remove)) (adcTickPart s)) (fun _ => True)
  refine Triple.ite (fun _ => Triple.throw trivial) fun _ =>
    Triple.bind (hstays _) fun _ => Triple.ite (fun hcount => ?_) fun _ => ?_
  · obtain ⟨hone, hdivides⟩ := adcCount_zero hcount
    have hcompletes : AdcCompletes ck p := ⟨hheld, hone, hdivides⟩
    apply Triple.bind (Q := fun _ s => adcTickPart s
      = ((p.adcIntr.adcsr ||| maskADIF) &&& ~~~maskADSC, adcIntrListed p, true))
    · intro s hs
      obtain ⟨hadcsr, hs⟩ := Prod.mk.inj hs
      change ((s.adcIntr.adcsr ||| maskADIF) &&& ~~~maskADSC, _) = _
      rw [hadcsr, ← hs]
      rfl
    intro _
    apply Triple.bind (Q := fun _ s => adcTickPart s
      = ((p.adcIntr.adcsr ||| maskADIF) &&& ~~~maskADSC, adcIntrListed p, true))
    · have hworld : Leaves adcTickPart adcPortRd := .bind (.world fun _ _ => rfl) fun _ => .pure _
      exact hworld _
    intro data
    apply Triple.bind (hstays _)
    intro _
    apply triple_getDev
    intro ti
    apply Triple.ite
    · intro _
      apply Triple.bind (Q := fun _ s => adcTickPart s
        = ((p.adcIntr.adcsr ||| maskADIF) &&& ~~~maskADSC, adcIntrListed p, true))
      · exact fun _ h => h.1
      · intro _
        apply Triple.pure
        rintro s hs
        rw [hs]
        exact ⟨.inr ⟨hcompletes, rfl⟩, rfl, rfl⟩
    · intro _
      apply Triple.bind (Q := fun _ s => adcTickPart s
        = ((p.adcIntr.adcsr ||| maskADIF) &&& ~~~maskADSC, adcIntrListed p, false))
      · rintro s ⟨hs, -⟩
        obtain ⟨hadcsr, hs⟩ := Prod.mk.inj hs
        obtain ⟨hview, -⟩ := Prod.mk.inj hs
        change (s.adcIntr.adcsr, adcIntrListed s,
          Function.update s.cbs.held .adcClkIncrCb false .adcClkIncrCb) = _
        rw [hadcsr, hview, Function.update_self]
      · intro _
        apply Triple.pure
        rintro s hs
        rw [hs]
        exact ⟨.inr ⟨hcompletes, rfl⟩, rfl, rfl⟩
  · apply Triple.pure
    rintro s hs
    rw [hs]
    exact ⟨.inl rfl, rfl, rfl⟩

/-- What is so in every run: the callbacks of the A/D converter are in their lists. -/
structure AdcListed (p : Peripherals) : Prop where
  separate : p.cbs.Separate
  apart : UartApart p
  intr : p.cbs.held .adcIntrCb = true → 0 < p.cbs.asyncCb.count .adcIntrCb
  clk : p.cbs.clkCb.count .adcClkIncrCb = if p.cbs.held .adcClkIncrCb then 1 else 0

section

variable {e : IoEvent} {p q : Peripherals} {ck : Nat}

/-- A tick sets ADIF where a conversion completes, and leaves the callback of the interrupt. -/
theorem IoStep.adc_tick
    (hstep : IoStep (.tick ck) p q) (h : AdcListed p) :
  AdcListed q ∧ q.cbs.held .adcIntrCb = p.cbs.held .adcIntrCb
    ∧ (q.adcIntr.adcsr = p.adcIntr.adcsr
      ∨ AdcCompletes ck p ∧ q.adcIntr.adcsr = (p.adcIntr.adcsr ||| maskADIF) &&& ~~~maskADSC)
  := by
  have hothers : ∀ g ∈ p.cbs.clkCb, g ≠ .adcClkIncrCb → Leaves adcPart (callbackExecute ck g) := by
    intro g hg hne
    apply callback_adcPart _ hne
    rintro rfl
    exact absurd (h.separate.clk _ hg) Bool.false_ne_true
  have hticked : ∃ going, AdcTicked ck p going (adcTickPart q)
      ∧ q.cbs.clkCb.count .adcClkIncrCb = if going then 1 else 0 := by
    obtain ⟨r, s, hpass, rfl⟩ := hstep.tick_pass
    have hcount := h.clk
    split at hcount
    · next hheld =>
      have honce := (pass_once (Q := fun b s => AdcTicked ck p (!b) (adcTickPart s))
        (fun g hg hne => hothers g hg hne (adcPart p))
        (fun b g hg hne => (hothers g hg hne).keeps fun x =>
          AdcTicked ck p (!b) (x.1.adcsr, (x.2.2.1.1, x.2.2.1.2.2), x.2.2.2.1))
        (adcClkIncrCb_ticked hheld ck) hcount).of_ok rfl hpass
      obtain ⟨hticked, hle⟩ := honce
      use !decide (r.1.count .adcClkIncrCb = 0), hticked
      change r.1.count .adcClkIncrCb = _
      by_cases hzero : r.1.count .adcClkIncrCb = 0
      · rw [hzero]
        rfl
      · rw [decide_eq_false hzero]
        change r.1.count .adcClkIncrCb = 1
        omega
    · next hheld =>
      have hnone := (pass_others (I := fun s => adcPart s = adcPart p)
        (fun g hg hne => hothers g hg hne (adcPart p)) hcount).of_ok rfl hpass
      obtain ⟨hpart, hzero⟩ := hnone
      use false
      constructor
      · simp only [adcPart, Prod.mk.injEq] at hpart
        obtain ⟨hintr, -, hview, hclk⟩ := hpart
        constructor
        · exact .inl (congrArg ADCIntr.adcsr hintr :)
        · exact congrArg (fun v : Bool × Nat × Nat => (v.1, v.2.2)) hview
        · exact (congrArg Prod.fst hclk :).trans (eq_false_of_ne_true hheld)
      · exact hzero
  obtain ⟨going, hticked, hcount⟩ := hticked
  obtain ⟨hheld, hlisted⟩ := Prod.mk.inj hticked.intr
  have hgoing : q.cbs.held .adcClkIncrCb = going := hticked.going
  constructor
  · constructor
    · exact hstep.separate h.separate
    · exact h.apart.of_vects hstep.uartVects_eq
    · rw [hheld, hlisted]
      exact h.intr
    · rw [hcount, hgoing]
  · exact ⟨hheld, hticked.adcsr⟩

end

/-! ### A pass over the asynchronous callbacks -/

/-- The flag, as a number of interrupts to come -/
def adifCount (p : Peripherals) : Nat :=
  if p.adcIntr.adcsr &&& maskADIF ≠ 0 then 1 else 0

theorem adifCount_eq_zero_iff
    {p : Peripherals} :
  adifCount p = 0 ↔ ¬ AdcFlag p
  := by
  rw [adifCount, AdcFlag]
  split
  · next h => exact iff_of_false Nat.one_ne_zero (not_not.mpr h)
  · next h => exact iff_of_true rfl h

/-- The flag is cleared. -/
theorem cleared_adif
    (x : Byte) :
  (x &&& ~~~maskADIF) &&& maskADIF = 0
  := by
  rw [BitVec.and_assoc]
  exact BitVec.and_zero

/-- What a pass leaves: the register but for the flag, and the callbacks -/
def adcSteady (p : Peripherals) : Byte × Bool × Nat × Bool :=
  (p.adcIntr.adcsr &&& ~~~maskADIF, p.cbs.held .adcIntrCb, p.cbs.clkCb.count .adcClkIncrCb,
    p.cbs.held .adcClkIncrCb)

instance (p : Peripherals) : Decidable (AdcPending p) :=
  inferInstanceAs (Decidable ((p.adcIntr.adcsr &&& maskADEN ≠ 0 ∧ p.adcIntr.adcsr &&& maskADIE ≠ 0)
    ∧ p.adcIntr.adcsr &&& maskADIF ≠ 0))

/-- `adc_intr_cb` -/
theorem adcIntrCb_run
    (time : Nat) (p : Peripherals) :
  (callbackExecute time .adcIntrCb).run p =
    if p.cbs.held .adcIntrCb = true ∧ AdcPending p then
      .ok ((false, [.irqRaise (irqVectTableIndex .ADC)]),
        { p with adcIntr := { p.adcIntr with adcsr := p.adcIntr.adcsr &&& ~~~maskADIF } })
    else
      .ok ((!p.cbs.held .adcIntrCb, []), p)
  := by
  rw [callbackExecute, CallBackFP.func, SimulAvr.adcIntrCb, StateT.run_bind, run_bind_of_ok rfl,
    run_bind_of_ok rfl]
  by_cases hheld : p.cbs.held .adcIntrCb = true
  · rw [if_neg (not_not.mpr hheld)]
    by_cases hpending : AdcPending p
    · rw [if_pos ⟨hpending.1.1, hpending.1.2, hpending.2⟩, if_pos ⟨hheld, hpending⟩]
      rfl
    · rw [if_neg fun h => hpending ⟨⟨h.1, h.2.1⟩, h.2.2⟩, if_neg fun h => hpending h.2, hheld]
      rfl
  · rw [if_pos hheld, if_neg fun h => hheld h.1, eq_false_of_ne_true hheld]
    rfl

/-- A program that does not raise the interrupt of the A/D converter -/
def RaisesNoAdc (P : Peripherals → Prop) (x : DevM (CbRet × List DevEvent)) : Prop :=
  Triple P x (fun r _ => r.2.countP DevEvent.isAdc = 0) (fun _ => True)

theorem RaisesNoAdc.bind
    {α : Type} {P : Peripherals → Prop} {x : DevM α} {g : α → DevM (CbRet × List DevEvent)}
    (h : ∀ a, RaisesNoAdc (fun _ => True) (g a)) :
  RaisesNoAdc P (x >>= g)
  := Triple.bind (Triple.anything.conseq (fun _ _ => trivial) (fun _ _ h => h) fun _ h => h) h

theorem RaisesNoAdc.pure
    {P : Peripherals → Prop} (ret : CbRet) {events : List DevEvent}
    (h : events.countP DevEvent.isAdc = 0) :
  RaisesNoAdc P (pure (ret, events))
  := Triple.pure fun _ _ => h

theorem RaisesNoAdc.ite
    {P : Peripherals → Prop} {c : Prop} [Decidable c] {x y : DevM (CbRet × List DevEvent)}
    (hx : RaisesNoAdc P x) (hy : RaisesNoAdc P y) :
  RaisesNoAdc P (if c then x else y)
  := Triple.ite (fun _ => hx) (fun _ => hy)

theorem timerIntrRaise_noAdc
    {P : Peripherals → Prop} {vect : IntVectTable} (h : vect ≠ .ADC) (mask : Byte) :
  RaisesNoAdc P (timerIntrRaise vect mask)
  := RaisesNoAdc.bind fun _ => RaisesNoAdc.pure _ (by rw [List.countP_singleton, isAdc_eq_false h]; rfl)

theorem uartIntrCb_noAdc :
  RaisesNoAdc UartApart uartIntrCb
  := by
  intro p hp
  rw [uartIntrCb, run_bind_of_ok rfl, run_bind_of_ok rfl]
  by_cases hheld : p.cbs.held .uartIntrCb = true
  · rw [if_neg (not_not.mpr hheld)]
    exact raises_countP hp
  · rw [if_pos hheld]
    rfl

/-- The other callbacks of the list raise other interrupts. -/
theorem callback_silent
    {f : CallBackFP} (hclk : f.isClk = false) (hf : f ≠ .adcIntrCb) (time : Nat) :
  Triple UartApart (callbackExecute time f) (fun r _ => r.2.countP DevEvent.isAdc = 0) (fun _ => True)
  := by
  have hfunc : RaisesNoAdc UartApart (f.func time) := by
    cases f with
    | timerIntrCb =>
      exact RaisesNoAdc.bind fun _ => RaisesNoAdc.bind fun _ => RaisesNoAdc.ite (RaisesNoAdc.pure _ rfl)
        (RaisesNoAdc.ite (RaisesNoAdc.pure _ rfl) (RaisesNoAdc.ite (timerIntrRaise_noAdc (by decide) _)
          (RaisesNoAdc.ite (timerIntrRaise_noAdc (by decide) _)
            (RaisesNoAdc.ite (timerIntrRaise_noAdc (by decide) _)
              (RaisesNoAdc.ite (timerIntrRaise_noAdc (by decide) _)
                (RaisesNoAdc.ite (timerIntrRaise_noAdc (by decide) _) (Triple.throw trivial)))))))
    | spiIntrCb =>
      exact RaisesNoAdc.bind fun _ => RaisesNoAdc.bind fun _ => RaisesNoAdc.ite (RaisesNoAdc.pure _ rfl)
        (RaisesNoAdc.ite (RaisesNoAdc.bind fun _ => RaisesNoAdc.pure _ rfl) (RaisesNoAdc.pure _ rfl))
    | uartIntrCb => exact uartIntrCb_noAdc
    | adcIntrCb => contradiction
    | wdtcrTimerCb =>
      exact RaisesNoAdc.bind fun _ => RaisesNoAdc.bind fun _ => RaisesNoAdc.ite (RaisesNoAdc.pure _ rfl)
        (RaisesNoAdc.ite (RaisesNoAdc.pure _ rfl) (RaisesNoAdc.pure _ rfl))
    | eepromWrOpCb =>
      exact RaisesNoAdc.bind fun _ => RaisesNoAdc.ite (RaisesNoAdc.bind fun _ => RaisesNoAdc.pure _ rfl)
        (RaisesNoAdc.bind fun _ => RaisesNoAdc.bind fun _ => RaisesNoAdc.bind fun _ => RaisesNoAdc.pure _ rfl)
    | _ => contradiction
  exact Triple.bind hfunc fun _ => Triple.pure fun _ h => h

section

variable {p q : Peripherals}

/-- The callbacks of the list raise the interrupt as often as they clear the flag. -/
theorem callback_balance
    {f : CallBackFP} (hclk : f.isClk = false) (time n : Nat) :
  Triple (fun s => UartApart s ∧ adifCount s = n) (callbackExecute time f)
    (fun r s => UartApart s ∧ r.2.countP DevEvent.isAdc + adifCount s = n) (fun _ => True)
  := by
  rintro s ⟨hs, hn⟩
  by_cases hf : f = .adcIntrCb
  · subst hf
    rw [adcIntrCb_run]
    by_cases hraise : s.cbs.held .adcIntrCb = true ∧ AdcPending s
    · have hflag : s.adcIntr.adcsr &&& maskADIF ≠ 0 := hraise.2.2
      rw [if_pos hraise]
      use hs.of_vects rfl
      change 1 + (if (s.adcIntr.adcsr &&& ~~~maskADIF) &&& maskADIF ≠ 0 then 1 else 0) = n
      rw [cleared_adif, ← hn, adifCount, if_pos hflag]
      rfl
    · rw [if_neg hraise]
      exact ⟨hs, (Nat.zero_add _).trans hn⟩
  · have hsilent := callback_silent hclk hf time s hs
    have hleaves := callback_adcPart hf (by rintro rfl; contradiction) time (adcPart s) s rfl
    have hvects := callback_vects time f (uartVects s) s rfl
    cases hrun : (callbackExecute time f).run s with
    | error => trivial
    | ok r =>
      rw [hrun] at hsilent hleaves hvects
      use hs.of_vects hvects
      have hadif : adifCount r.2 = adifCount s :=
        congrArg (fun x : ADCIntr × _ => if x.1.adcsr &&& maskADIF ≠ 0 then 1 else 0) hleaves
      rw [hsilent, hadif, Nat.zero_add]
      exact hn

/-- The callbacks of the list leave the register but for the flag, and the callbacks. -/
theorem callback_steady
    {f : CallBackFP} (hclk : f.isClk = false) (time : Nat) :
  Leaves adcSteady (callbackExecute time f)
  := by
  by_cases hf : f = .adcIntrCb
  · subst hf
    intro b s hs
    rw [adcIntrCb_run]
    by_cases hraise : s.cbs.held .adcIntrCb = true ∧ AdcPending s
    · rw [if_pos hraise]
      change ((s.adcIntr.adcsr &&& ~~~maskADIF) &&& ~~~maskADIF, _) = b
      rw [BitVec.and_assoc, BitVec.and_self]
      exact hs
    · rw [if_neg hraise]
      exact hs
  · have hleaves := callback_adcPart hf (by rintro rfl; contradiction) time
    exact fun b => hleaves.keeps fun x =>
      (x.1.adcsr &&& ~~~maskADIF, x.2.2.1.1, x.2.2.2.2.1, x.2.2.2.1) = b

/-- ADEN and ADIE, without the flag -/
theorem adcEnabled_iff
    {p : Peripherals} :
  AdcEnabled p ↔ (p.adcIntr.adcsr &&& ~~~maskADIF) &&& maskADEN ≠ 0
    ∧ (p.adcIntr.adcsr &&& ~~~maskADIF) &&& maskADIE ≠ 0
  := by
  rw [BitVec.and_assoc, BitVec.and_assoc]
  rfl

theorem adcEnabled_of_steady
    (h : adcSteady q = adcSteady p) :
  AdcEnabled q ↔ AdcEnabled p
  := by
  have hadcsr : q.adcIntr.adcsr &&& ~~~maskADIF = p.adcIntr.adcsr &&& ~~~maskADIF := congrArg Prod.fst h
  rw [adcEnabled_iff, adcEnabled_iff, hadcsr]

/-- The callbacks of the list do not set the flag. -/
theorem callback_flag
    {f : CallBackFP} (hclk : f.isClk = false) (time : Nat) :
  Keeps (fun s => ¬ AdcFlag s) (fun _ => True) (callbackExecute time f)
  := by
  by_cases hf : f = .adcIntrCb
  · subst hf
    intro s hs
    rw [adcIntrCb_run, if_neg fun h => hs h.2.2]
    exact hs
  · have hleaves := callback_adcPart hf (by rintro rfl; contradiction) time
    exact hleaves.keeps fun x => ¬ x.1.adcsr &&& maskADIF ≠ 0

/-- The callback of the interrupt stays where it is held, and clears the flag where the interrupt
is enabled. -/
theorem adcIntrCb_clears
    (hheld : p.cbs.held .adcIntrCb = true) (time : Nat) :
  Triple (fun s => adcSteady s = adcSteady p) (callbackExecute time .adcIntrCb)
    (fun r s => r.1 = false ∧ adcSteady s = adcSteady p ∧ (AdcEnabled p → ¬ AdcFlag s))
    (fun _ => True)
  := by
  intro s hs
  have hheld' : s.cbs.held .adcIntrCb = true :=
    (congrArg (fun v => v.2.1) hs : s.cbs.held .adcIntrCb = p.cbs.held .adcIntrCb).trans hheld
  have hsteady := callback_steady (f := .adcIntrCb) rfl time (adcSteady p) s hs
  rw [adcIntrCb_run] at hsteady ⊢
  by_cases hpending : AdcPending s
  · rw [if_pos ⟨hheld', hpending⟩] at hsteady ⊢
    exact ⟨rfl, hsteady, fun _ hflag => hflag (cleared_adif _)⟩
  · rw [if_neg fun h => hpending h.2] at hsteady ⊢
    refine ⟨?_, hsteady, fun henabled hflag => hpending ⟨(adcEnabled_of_steady hs).mpr henabled, hflag⟩⟩
    rw [hheld']
    rfl

/-- A pass raises the interrupt as often as it clears the flag, and where the callback is held and
the interrupt is enabled, it clears the flag. -/
theorem asyncCbExec_adc
    {events : List DevEvent} (h : AdcListed p) (hrun : asyncCbExec.run p = .ok (events, q)) :
  AdcListed q ∧ adcSteady q = adcSteady p
    ∧ events.countP DevEvent.isAdc + adifCount q = adifCount p
    ∧ (p.cbs.held .adcIntrCb = true → AdcEnabled p → ¬ AdcFlag q)
  := by
  have hstep : IoStep .async p q := .async hrun
  obtain ⟨time, world, r, s, hpass, rfl, rfl⟩ := asyncCbExec_pass hrun
  have hsteady : adcSteady s = adcSteady p :=
    ((pass_keeps fun f hf => callback_steady (h.separate.async f hf) time (adcSteady p)).of_ok
      (s := { p with world := world }) rfl hpass).1
  obtain ⟨-, hbalance⟩ := (pass_balance
    (fun n f hf => callback_balance (h.separate.async f hf) time n) (adifCount p)).of_ok
      (s := { p with world := world }) ⟨h.apart.of_vects rfl, rfl⟩ hpass
  have hstays (f : CallBackFP) (hclk : f.isClk = false) :
      Keeps (fun s => AdcEnabled p → ¬ AdcFlag s) (fun _ => True) (callbackExecute time f) := by
    by_cases henabled : AdcEnabled p
    · exact (callback_flag hclk time).conseq (fun _ hs => hs henabled) (fun _ _ hs _ => hs)
        fun _ he => he
    · exact Triple.anything.conseq (fun _ _ => trivial) (fun _ _ _ h => absurd h henabled)
        fun _ he => he
  have hclears (hheld : p.cbs.held .adcIntrCb = true) :
      (AdcEnabled p → ¬ AdcFlag s) ∧ .adcIntrCb ∈ r.1 := by
    obtain ⟨⟨-, hflag⟩, hmem⟩ := (pass_establishes (R := fun s => AdcEnabled p → ¬ AdcFlag s)
      (List.count_pos_iff.mp (h.intr hheld))
      (fun f hf => callback_steady (h.separate.async f hf) time (adcSteady p))
      (fun f hf => (callback_steady (h.separate.async f hf) time (adcSteady p)).and
        (hstays f (h.separate.async f hf)))
      (adcIntrCb_clears hheld time)).of_ok (s := { p with world := world }) rfl hpass
    exact ⟨hflag, hmem⟩
  have hheldq : s.cbs.held .adcIntrCb = p.cbs.held .adcIntrCb := congrArg (fun v => v.2.1) hsteady
  have hclkq : (s.cbs.clkCb.count .adcClkIncrCb, s.cbs.held .adcClkIncrCb)
    = (p.cbs.clkCb.count .adcClkIncrCb, p.cbs.held .adcClkIncrCb) := congrArg (fun v => v.2.2) hsteady
  obtain ⟨hcount, hheldclk⟩ := Prod.mk.inj hclkq
  refine ⟨⟨hstep.separate h.separate, h.apart.of_vects hstep.uartVects_eq, ?_, ?_⟩, hsteady,
    hbalance, fun hheld => (hclears hheld).1⟩
  · intro hheld
    exact List.count_pos_iff.mpr (hclears (hheldq.symm.trans hheld)).2
  · change s.cbs.clkCb.count .adcClkIncrCb = if s.cbs.held .adcClkIncrCb = true then 1 else 0
    rw [hcount, hheldclk]
    exact h.clk

end

/-! ### Writes -/

/-- The write is to ADCSR. -/
def AdcsrWrite (p : Peripherals) (addr : Int) : Prop :=
  p.vdevAt addr = some .adcIntr ∧ addr = p.adcIntr.adcsrAddr

instance (p : Peripherals) (addr : Int) : Decidable (AdcsrWrite p addr) :=
  inferInstanceAs (Decidable (_ ∧ _))

/-- A write to ADCSR starts a conversion, or takes the callback of the interrupt away. -/
def adcStart (p : Peripherals) : IoEvent → Option Bool
  | .write addr val =>
    if AdcsrWrite p addr then some (decide (val &&& maskADSC ≠ 0 ∧ val &&& maskADEN ≠ 0)) else none
  | _ => none

/-- ADCSR once it is written -/
def writtenAdcsr (val : Byte) : Byte :=
  if val &&& maskADIF ≠ 0 then val &&& ~~~maskADIF else val

/-- A write to ADCSR clears the flag. -/
theorem writtenAdcsr_adif
    (val : Byte) :
  writtenAdcsr val &&& maskADIF = 0
  := by
  rw [writtenAdcsr]
  split
  · exact cleared_adif val
  · next h => exact not_not.mp h

section

variable {e : IoEvent} {p q : Peripherals} {addr : Int} {val : Byte}

/-- A write to ADCSR -/
theorem IoStep.adcsr_write
    (hstep : IoStep (.write addr val) p q) (haddr : AdcsrWrite p addr) :
  q.adcIntr.adcsr = writtenAdcsr val
    ∧ q.cbs = if val &&& maskADSC ≠ 0 ∧ val &&& maskADEN ≠ 0 then
        (p.cbs.ensure .adcIntrCb).ensure .adcClkIncrCb
      else p.cbs.withdraw .adcIntrCb
  := by
  cases hstep with
  | write h =>
    rw [devWrite_at haddr.1, IoVDev.write, adcIntrWrite, run_bind_of_ok rfl] at h
    change StateT.run (if addr = p.adcIntr.adcsrAddr then _ else _) _ = _ at h
    rw [if_pos haddr.2, run_bind_of_ok rfl] at h
    split at h
    · next hstart =>
      cases h
      rw [if_pos hstart]
      exact ⟨rfl, rfl⟩
    · next hstart =>
      cases h
      rw [if_neg hstart]
      exact ⟨rfl, rfl⟩

/-- A write to ADMUX -/
theorem IoStep.admux_write
    (hstep : IoStep (.write addr val) p q) (hat : p.vdevAt addr = some .adcIntr)
    (haddr : addr ≠ p.adcIntr.adcsrAddr) :
  q.adcIntr.adcsr = p.adcIntr.adcsr ∧ q.cbs = p.cbs
  := by
  cases hstep with
  | write h =>
    rw [devWrite_at hat, IoVDev.write, adcIntrWrite, run_bind_of_ok rfl] at h
    change StateT.run (if addr = p.adcIntr.adcsrAddr then _ else _) _ = _ at h
    rw [if_neg haddr] at h
    change StateT.run (if addr = p.adcIntr.admuxAddr then _ else _) _ = _ at h
    split at h
    · cases h
      exact ⟨rfl, rfl⟩
    · contradiction

/-- An asynchronous callback that its list has where it is held -/
theorem ensure_listed
    {cbs : CallBacks} {f : CallBackFP} (hclk : f.isClk = false)
    (h : cbs.held f = true → 0 < cbs.asyncCb.count f) :
  (cbs.ensure f).held f = true ∧ 0 < (cbs.ensure f).asyncCb.count f
  := by
  cases hheld : cbs.held f with
  | true =>
    rw [CallBacks.ensure, if_pos hheld]
    exact ⟨hheld, h hheld⟩
  | false =>
    have hview := view_ensure_async cbs (n := cbs.clkCb.count f) (m := cbs.asyncCb.count f) hclk
      (by rw [CallBacks.view, hheld])
    simp only [CallBacks.view, Prod.mk.injEq] at hview
    rw [hview.1, hview.2.2]
    exact ⟨rfl, Nat.succ_pos _⟩

/-- A callback of the clock that its list has once where it is held -/
theorem ensure_once
    {cbs : CallBacks} {f : CallBackFP} (hclk : f.isClk = true)
    (h : cbs.clkCb.count f = if cbs.held f then 1 else 0) :
  (cbs.ensure f).held f = true ∧ (cbs.ensure f).clkCb.count f = 1
  := by
  cases hheld : cbs.held f with
  | true =>
    rw [CallBacks.ensure, if_pos hheld]
    rw [hheld] at h
    exact ⟨hheld, h⟩
  | false =>
    have hview := view_ensure_clk cbs (n := cbs.clkCb.count f) (m := cbs.asyncCb.count f) hclk
      (by rw [CallBacks.view, hheld])
    simp only [CallBacks.view, Prod.mk.injEq] at hview
    rw [hheld] at h
    rw [hview.1, hview.2.1, h]
    exact ⟨rfl, rfl⟩

/-- The callbacks after a write to ADCSR -/
theorem AdcListed.adcsr_write
    (h : AdcListed p) (hstep : IoStep (.write addr val) p q) (haddr : AdcsrWrite p addr) :
  AdcListed q ∧ q.cbs.held .adcIntrCb = decide (val &&& maskADSC ≠ 0 ∧ val &&& maskADEN ≠ 0)
  := by
  obtain ⟨-, hcbs⟩ := hstep.adcsr_write haddr
  have hsep := hstep.separate h.separate
  have hapart := h.apart.of_vects hstep.uartVects_eq
  by_cases hstart : val &&& maskADSC ≠ 0 ∧ val &&& maskADEN ≠ 0
  · rw [if_pos hstart] at hcbs
    obtain ⟨hheld, hcount⟩ := ensure_listed (f := .adcIntrCb) rfl h.intr
    have hintr := view_ensure (p.cbs.ensure .adcIntrCb) (f := .adcIntrCb) (g := .adcClkIncrCb) (by decide)
    have hclk := view_ensure p.cbs (f := .adcClkIncrCb) (g := .adcIntrCb) (by decide)
    simp only [CallBacks.view, Prod.mk.injEq] at hintr hclk
    have honce : ((p.cbs.ensure .adcIntrCb).ensure .adcClkIncrCb).held .adcClkIncrCb = true
        ∧ ((p.cbs.ensure .adcIntrCb).ensure .adcClkIncrCb).clkCb.count .adcClkIncrCb = 1 := by
      apply ensure_once rfl
      rw [hclk.1, hclk.2.1]
      exact h.clk
    rw [← hcbs] at hintr honce
    rw [decide_eq_true hstart]
    refine ⟨⟨hsep, hapart, fun _ => ?_, ?_⟩, hintr.1.trans hheld⟩
    · rw [hintr.2.2]
      exact hcount
    · rw [honce.1, honce.2]
      rfl
  · rw [if_neg hstart] at hcbs
    rw [decide_eq_false hstart]
    have hheld : q.cbs.held .adcIntrCb = false := by
      rw [hcbs]
      exact Function.update_self (β := fun _ => Bool) .adcIntrCb false p.cbs.held
    refine ⟨⟨hsep, hapart, ?_, ?_⟩, hheld⟩
    · intro hheld'
      rw [hheld] at hheld'
      contradiction
    · rw [hcbs]
      exact h.clk

end

/-! ### Runs -/

/-- A step without a reset of the A/D converter -/
structure AdcStep (e : IoEvent) (p q : Peripherals) : Prop where
  step : IoStep e p q
  intr : e.resets .adcIntr p = false
  adc : e.resets .adc p = false

/-- No write clears the flag otherwise than by ADIF, and no conversion completes without the
callback of the interrupt, where the interrupt is enabled. -/
def AdcFits (p : Peripherals) : IoEvent → Prop
  | .write addr val => AdcsrWrite p addr → AdcFlag p → val &&& maskADIF ≠ 0
  | .tick ck => AdcCompletes ck p → AdcEnabled p → p.cbs.held .adcIntrCb = true
  | _ => True

/-- The flag is cleared by a write with ADIF set or by a pass that raises the interrupt. -/
def AdcCleared (e : IoEvent) (p q : Peripherals) : Prop :=
  (∃ addr val, e = .write addr val ∧ AdcsrWrite p addr ∧ val &&& maskADIF ≠ 0)
    ∨ e = .async ∧ ∃ events, asyncCbExec.run p = .ok (events, q)
      ∧ events.countP DevEvent.isAdc = 1

/-- What a step can do to ADCSR and to the callback of the interrupt -/
inductive AdcChange (e : IoEvent) (p q : Peripherals) : Prop
  | leaves (hstart : adcStart p e = none) (hadcsr : q.adcIntr.adcsr = p.adcIntr.adcsr)
      (hheld : q.cbs.held .adcIntrCb = p.cbs.held .adcIntrCb)
  | write {addr : Int} {val : Byte} (he : e = .write addr val) (haddr : AdcsrWrite p addr)
      (hadcsr : q.adcIntr.adcsr = writtenAdcsr val)
      (hheld : q.cbs.held .adcIntrCb = decide (val &&& maskADSC ≠ 0 ∧ val &&& maskADEN ≠ 0))
  | completes {ck : Nat} (he : e = .tick ck) (hck : AdcCompletes ck p)
      (hadcsr : q.adcIntr.adcsr = (p.adcIntr.adcsr ||| maskADIF) &&& ~~~maskADSC)
      (hheld : q.cbs.held .adcIntrCb = p.cbs.held .adcIntrCb)
  | pass {events : List DevEvent} (he : e = .async) (hrun : asyncCbExec.run p = .ok (events, q))
      (hsteady : adcSteady q = adcSteady p)
      (hbalance : events.countP DevEvent.isAdc + adifCount q = adifCount p)

section

variable {e : IoEvent} {p q : Peripherals}

/-- An access that leaves ADCSR and the callbacks -/
theorem AdcListed.of_view
    (h : AdcListed p) (hstep : IoStep e p q) (hintr : q.cbs.view .adcIntrCb = p.cbs.view .adcIntrCb)
    (hclk : q.cbs.view .adcClkIncrCb = p.cbs.view .adcClkIncrCb) :
  AdcListed q
  := by
  simp only [CallBacks.view, Prod.mk.injEq] at hintr hclk
  constructor
  · exact hstep.separate h.separate
  · exact h.apart.of_vects hstep.uartVects_eq
  · rw [hintr.1, hintr.2.2]
    exact h.intr
  · rw [hclk.1, hclk.2.1]
    exact h.clk

theorem AdcListed.change
    (h : AdcListed p) (hstep : AdcStep e p q) :
  AdcListed q ∧ AdcChange e p q
  := by
  have hother (haccess : e.isAccess = true) (hwrite : e.writesTo .adcIntr p = false) :
      AdcListed q ∧ (adcStart p e = none → AdcChange e p q) := by
    have hpart := hstep.step.adc_access haccess hwrite hstep.intr hstep.adc
    simp only [adcPart, Prod.mk.injEq] at hpart
    obtain ⟨hintr, -, hview, hclk⟩ := hpart
    refine ⟨h.of_view hstep.step hview hclk, fun hstart => .leaves hstart ?_ ?_⟩
    · rw [hintr]
    · exact congrArg Prod.fst hview
  cases e with
  | read addr =>
    obtain ⟨hq, hchange⟩ := hother rfl rfl
    exact ⟨hq, hchange rfl⟩
  | write addr val =>
    by_cases hat : p.vdevAt addr = some .adcIntr
    · by_cases haddr : addr = p.adcIntr.adcsrAddr
      · obtain ⟨hadcsr, -⟩ := hstep.step.adcsr_write ⟨hat, haddr⟩
        obtain ⟨hq, hheld⟩ := h.adcsr_write hstep.step ⟨hat, haddr⟩
        exact ⟨hq, .write rfl ⟨hat, haddr⟩ hadcsr hheld⟩
      · obtain ⟨hadcsr, hcbs⟩ := hstep.step.admux_write hat haddr
        refine ⟨h.of_view hstep.step ?_ ?_, .leaves (if_neg fun hw => haddr hw.2) hadcsr ?_⟩
        · rw [hcbs]
        · rw [hcbs]
        · rw [hcbs]
    · obtain ⟨hq, hchange⟩ := hother rfl (decide_eq_false hat)
      exact ⟨hq, hchange (if_neg fun hw => hat hw.1)⟩
  | reset addr =>
    obtain ⟨hq, hchange⟩ := hother rfl rfl
    exact ⟨hq, hchange rfl⟩
  | tick ck =>
    obtain ⟨hq, hheld, hadcsr⟩ := hstep.step.adc_tick h
    use hq
    rcases hadcsr with hadcsr | ⟨hck, hadcsr⟩
    · exact .leaves rfl hadcsr hheld
    · exact .completes rfl hck hadcsr hheld
  | async =>
    cases hstep.step with
    | async hrun =>
      obtain ⟨hq, hsteady, hbalance, -⟩ := asyncCbExec_adc h hrun
      exact ⟨hq, .pass rfl hrun hsteady hbalance⟩

/-- The end of a conversion leaves the other bits. -/
theorem completed_and
    {mask : Byte} (hadsc : ~~~maskADSC &&& mask = mask) (hadif : maskADIF &&& mask = 0) (x : Byte) :
  (x ||| maskADIF) &&& ~~~maskADSC &&& mask = x &&& mask
  := by
  rw [BitVec.and_assoc, hadsc, BitVec.and_or_distrib_right, hadif]
  exact BitVec.or_zero

/-- A step holds the callback of the interrupt as the last write to ADCSR says. -/
theorem AdcChange.held
    (h : AdcChange e p q) :
  q.cbs.held .adcIntrCb = (adcStart p e).getD (p.cbs.held .adcIntrCb)
  := by
  cases h with
  | leaves hstart hadcsr hheld =>
    rw [hstart, hheld]
    rfl
  | write he haddr hadcsr hheld =>
    rw [he, adcStart, if_pos haddr, hheld]
    rfl
  | completes he hck hadcsr hheld =>
    rw [he, hheld]
    rfl
  | pass he hrun hsteady hbalance =>
    rw [he]
    exact congrArg (fun v => v.2.1) hsteady

/-- A step that fits clears the flag by ADIF or by raising the interrupt. -/
theorem AdcChange.cleared
    (h : AdcChange e p q) (hfits : AdcFits p e) (hp : AdcFlag p) (hq : ¬ AdcFlag q) :
  AdcCleared e p q
  := by
  cases h with
  | leaves hstart hadcsr hheld =>
    rw [AdcFlag, hadcsr] at hq
    exact absurd hp hq
  | write he haddr hadcsr hheld =>
    subst he
    exact .inl ⟨_, _, rfl, haddr, hfits haddr hp⟩
  | completes he hck hadcsr hheld =>
    exfalso
    apply hq
    rw [AdcFlag, hadcsr, BitVec.and_assoc, BitVec.and_or_distrib_right]
    intro hzero
    exact absurd (BitVec.or_eq_zero_iff.mp hzero).2 (by decide)
  | pass he hrun hsteady hbalance =>
    refine .inr ⟨he, _, hrun, ?_⟩
    rw [adifCount_eq_zero_iff.mpr hq] at hbalance
    rw [AdcFlag] at hp
    rw [adifCount, if_pos hp] at hbalance
    exact hbalance

/-- After a step that fits, the callback is held where the interrupt is pending. -/
theorem AdcChange.pending
    (h : AdcChange e p q) (hfits : AdcFits p e)
    (hp : AdcPending p → p.cbs.held .adcIntrCb = true) (hq : AdcPending q) :
  q.cbs.held .adcIntrCb = true
  := by
  cases h with
  | leaves hstart hadcsr hheld =>
    rw [hheld]
    apply hp
    rw [AdcPending, AdcEnabled, AdcFlag, hadcsr] at hq
    exact hq
  | write he haddr hadcsr hheld =>
    have hflag := hq.2
    rw [AdcFlag, hadcsr, writtenAdcsr_adif] at hflag
    contradiction
  | completes he hck hadcsr hheld =>
    subst he
    rw [hheld]
    apply hfits hck
    obtain ⟨haden, hadie⟩ := hq.1
    rw [hadcsr, completed_and (by decide) (by decide)] at haden hadie
    exact ⟨haden, hadie⟩
  | pass he hrun hsteady hbalance =>
    have hheld : q.cbs.held .adcIntrCb = p.cbs.held .adcIntrCb := congrArg (fun v => v.2.1) hsteady
    rw [hheld]
    apply hp
    use (adcEnabled_of_steady hsteady).mp hq.1
    intro hzero
    have hq' := hq.2
    rw [AdcFlag] at hq'
    rw [adifCount, adifCount, if_pos hq', if_neg (not_not.mpr hzero)] at hbalance
    omega

end

/-- The A/D converter as constructed, with a UART that raises interrupts of its own -/
structure AdcNew (p : Peripherals) : Prop where
  separate : p.cbs.Separate
  apart : UartApart p
  intr : p.cbs.held .adcIntrCb = false
  clk : p.cbs.held .adcClkIncrCb = false
  count : p.cbs.clkCb.count .adcClkIncrCb = 0
  adcsr : p.adcIntr.adcsr = 0

/-- In every run whose steps fit, ADIF is cleared by a write with ADIF set or by raising the interrupt
only, and where ADEN, ADIE and ADIF are set, the next pass raises the interrupt once.  The callback
of the interrupt is held as the last write to ADCSR says. -/
theorem adc_interrupt
    {p q : Peripherals} {taken : List (Peripherals × IoEvent)} (hnew : AdcNew p)
    (hpath : Path AdcStep p taken q) (hfits : ∀ x ∈ taken, AdcFits x.1 x.2) :
  (∀ e r, AdcStep e q r → AdcFits q e → AdcFlag q → ¬ AdcFlag r → AdcCleared e q r)
    ∧ (AdcPending q → ∀ events r, asyncCbExec.run q = .ok (events, r) →
      events.countP DevEvent.isAdc = 1)
    ∧ q.cbs.held .adcIntrCb = Path.lastGiven adcStart taken false
  := by
  have hnone : ¬ AdcPending p := by
    rintro ⟨-, hflag⟩
    apply hflag
    rw [hnew.adcsr]
    rfl
  have hinv : AdcListed q ∧ (AdcPending q → q.cbs.held .adcIntrCb = true)
      ∧ q.cbs.held .adcIntrCb = Path.lastGiven adcStart ([] ++ taken) false := by
    apply @Path.invariant_history _ _ _ AdcFits _ _ _
      (fun hist s => AdcListed s ∧ (AdcPending s → s.cbs.held .adcIntrCb = true)
        ∧ s.cbs.held .adcIntrCb = Path.lastGiven adcStart hist false) hpath hfits
    · rintro hist s e t ⟨hlisted, hpending, hheld⟩ hok hstep
      obtain ⟨ht, hchange⟩ := hlisted.change hstep
      refine ⟨ht, hchange.pending hok hpending, ?_⟩
      rw [hchange.held, hheld, Path.lastGiven, Path.lastGiven, List.foldl_append]
      rfl
    · refine ⟨⟨hnew.separate, hnew.apart, ?_, ?_⟩, fun h => absurd h hnone, hnew.intr⟩
      · intro hheld
        rw [hnew.intr] at hheld
        contradiction
      · rw [hnew.clk, hnew.count]
        rfl
  obtain ⟨hlisted, hpending, hheld⟩ := hinv
  split_ands
  · intro e r hstep hok hflag hclear
    exact (hlisted.change hstep).2.cleared hok hflag hclear
  · intro hq events r hrun
    obtain ⟨-, -, hbalance, hclears⟩ := asyncCbExec_adc hlisted hrun
    have hzero := adifCount_eq_zero_iff.mpr (hclears (hpending hq) hq.1)
    have hflag : q.adcIntr.adcsr &&& maskADIF ≠ 0 := hq.2
    rw [hzero, adifCount, if_pos hflag] at hbalance
    exact hbalance
  · exact hheld

/-- The state after an event that does not reset the A/D converter -/
def IoEvent.adcNext (e : IoEvent) (p : Peripherals) : Option Peripherals :=
  if e.resets .adcIntr p = false ∧ e.resets .adc p = false then e.next p else none

theorem AdcStep.of_next
    (e : IoEvent) (p q : Peripherals) (h : e.adcNext p = some q) :
  AdcStep e p q
  := by
  rw [IoEvent.adcNext] at h
  split at h
  · next hreset => exact ⟨.of_next e p q h, hreset.1, hreset.2⟩
  · contradiction

instance (p : Peripherals) : DecidablePred (AdcFits p)
  | .write addr val =>
    inferInstanceAs (Decidable (AdcsrWrite p addr → p.adcIntr.adcsr &&& maskADIF ≠ 0 →
      val &&& maskADIF ≠ 0))
  | .tick ck =>
    inferInstanceAs (Decidable ((p.cbs.held .adcClkIncrCb = true ∧ p.adc.adcCount = 1
      ∧ isDivisibleBy ck (p.adc.divisor.toNat * p.adc.uDivisor.toNat) = true) →
      (p.adcIntr.adcsr &&& maskADEN ≠ 0 ∧ p.adcIntr.adcsr &&& maskADIE ≠ 0) →
      p.cbs.held .adcIntrCb = true))
  | .read _ | .reset _ | .async => inferInstanceAs (Decidable True)

/-- The A/D converter of an at43usb355 -/
def adcPeripherals : Peripherals :=
  { (default : Peripherals) with
    vdevAt := fun addr =>
      if addr = 0x27 ∨ addr = 0x28 then some .adcIntr
      else if addr = 0x22 ∨ addr = 0x23 then some .adc else none
    adcIntr := { (default : ADCIntr) with adcsrAddr := 0x27, admuxAddr := 0x28 }
    adc := { (default : ADC) with adclAddr := 0x22, adchAddr := 0x23, uDivisor := 12 } }

/-- The ticks of a conversion with the divisor 2 -/
def adcTicks : List IoEvent :=
  (List.range 13).map fun n => .tick (24 * n)

/-- The number of interrupts of the A/D converter that the next pass raises -/
def adcRaises (p : Peripherals) : Option Nat :=
  (asyncCbExec.run p).toOption.map fun r => r.1.countP DevEvent.isAdc

theorem adcRaises_eq_some
    {p : Peripherals} {n : Nat} (h : adcRaises p = some n) :
  ∃ events r, asyncCbExec.run p = .ok (events, r) ∧ events.countP DevEvent.isAdc = n
  := by
  rw [adcRaises] at h
  cases hrun : asyncCbExec.run p with
  | error e =>
    rw [hrun] at h
    contradiction
  | ok r =>
    rw [hrun] at h
    exact ⟨r.1, r.2, rfl, Option.some.inj h⟩

/-- ADIE is set during a conversion: ADEN, ADIE and ADIF are set, and no interrupt is raised. -/
theorem adc_interrupt_dropped :
  ∃ taken q events r, Path AdcStep adcPeripherals taken q
    ∧ taken.map Prod.snd = [.write 0x27 0xc0, .write 0x27 0x88] ++ adcTicks ∧ AdcPending q
    ∧ asyncCbExec.run q = .ok (events, r) ∧ events.countP DevEvent.isAdc = 0
  := by
  have hruns : ((exec IoEvent.adcNext (fun _ _ => true)
      ([.write 0x27 0xc0, .write 0x27 0x88] ++ adcTicks) adcPeripherals).map fun q =>
        (decide (AdcPending q), adcRaises q)) = some (true, some 0) := by decide +kernel
  obtain ⟨q, hq, hruns⟩ := Option.map_eq_some_iff.mp hruns
  obtain ⟨hpending, hraises⟩ := Prod.mk.inj hruns
  obtain ⟨taken, hpath, hevents, -⟩ := exec_path_events AdcStep.of_next hq
  obtain ⟨events, r, hrun, hcount⟩ := adcRaises_eq_some hraises
  exact ⟨taken, q, events, r, hpath, hevents, of_decide_eq_true hpending, hrun, hcount⟩

/-- A conversion that is started with ADIE set raises the interrupt. -/
theorem adc_interrupt_raised :
  ∃ taken q events r, Path AdcStep adcPeripherals taken q
    ∧ taken.map Prod.snd = [.write 0x27 0xc8] ++ adcTicks
    ∧ asyncCbExec.run q = .ok (events, r) ∧ events.countP DevEvent.isAdc = 1
  := by
  have hruns : ((exec IoEvent.adcNext (fun p e => decide (AdcFits p e))
      ([.write 0x27 0xc8] ++ adcTicks) adcPeripherals).map fun q =>
        (decide (AdcPending q), (adcRaises q).isSome)) = some (true, true) := by decide +kernel
  obtain ⟨q, hq, hruns⟩ := Option.map_eq_some_iff.mp hruns
  obtain ⟨hpending, hraises⟩ := Prod.mk.inj hruns
  obtain ⟨taken, hpath, hevents, hcheck⟩ := exec_path_events AdcStep.of_next hq
  obtain ⟨n, hn⟩ := Option.isSome_iff_exists.mp hraises
  obtain ⟨events, r, hrun, -⟩ := adcRaises_eq_some hn
  have hnew : AdcNew adcPeripherals := {
    separate := ⟨List.forall_mem_nil _, List.forall_mem_nil _⟩
    apart := ⟨by decide, by decide, by decide⟩
    intr := rfl
    clk := rfl
    count := rfl
    adcsr := rfl }
  have honce := (adc_interrupt hnew hpath fun x hx => of_decide_eq_true (hcheck x hx)).2.1
    (of_decide_eq_true hpending) events r hrun
  exact ⟨taken, q, events, r, hpath, hevents, hrun, honce⟩

end SimulAvr
