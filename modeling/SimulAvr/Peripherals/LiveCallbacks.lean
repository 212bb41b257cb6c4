import SimulAvr.Peripherals.AdcInterrupt
import SimulAvr.Peripherals.SpiTransfers
import SimulAvr.Peripherals.UartTransmit

/-!
# Live callbacks

A device that withdraws its callback leaves it in its list until the next pass, at which it removes
itself.  A device that asks for a callback before this pass revives the one it has withdrawn beside
the new one, and SPCR installs a callback whether or not it has one.  The callbacks of a function that
have not been told to remove themselves are at most one in every state of a run exactly if every
write that installs a callback finds none of its function in the lists (`one_live_callback`).
-/

namespace SimulAvr

open Program CallbackList Transition

/-! ### The callbacks of a function -/

/-- How often the lists have a callback -/
def CallBacks.copies (cbs : CallBacks) (f : CallBackFP) : Nat :=
  cbs.clkCb.count f + cbs.asyncCb.count f

/-- How many callbacks of a function have not been told to remove themselves: as long as the device
holds one, all those in the lists -/
def CallBacks.live (cbs : CallBacks) (f : CallBackFP) : Nat :=
  if cbs.held f then cbs.copies f else 0

/-- The run of a callback by a pass finds that the device holds a callback of the function. -/
def ranLive (f : CallBackFP) (v : CallBackFP × Peripherals) : Bool :=
  v.1 = f && v.2.cbs.held f

/-- At most one callback of a function is live, and no pass runs more than one. -/
structure OneLive (f : CallBackFP) (p : Peripherals) : Prop where
  listed : p.cbs.live f ≤ 1
  clk : ∀ ck, (visits (callbackExecute ck) p.cbs.clkCb p).countP (ranLive f) ≤ 1
  async : ∀ time world,
    (visits (callbackExecute time) p.cbs.asyncCb { p with world := world }).countP (ranLive f) ≤ 1

/-- There are no more callbacks than before, and no device holds one that did not. -/
structure CallBacks.Within (cbs old : CallBacks) : Prop where
  clk : cbs.clkCb.Sublist old.clkCb
  async : cbs.asyncCb.Sublist old.asyncCb
  held : ∀ f, cbs.held f = true → old.held f = true

namespace CallBacks.Within

variable {cbs old : CallBacks}

theorem refl
    (cbs : CallBacks) :
  cbs.Within cbs
  := ⟨.refl _, .refl _, fun _ h => h⟩

theorem withdraw
    (h : cbs.Within old) (f : CallBackFP) :
  (cbs.withdraw f).Within old
  := by
  use h.clk, h.async
  intro g hg
  apply h.held g
  change Function.update cbs.held f false g = true at hg
  by_cases hgf : g = f
  · rw [hgf, Function.update_self] at hg
    contradiction
  · rw [Function.update_of_ne hgf] at hg
    exact hg

theorem live_le
    (h : cbs.Within old) (f : CallBackFP) :
  cbs.live f ≤ old.live f
  := by
  rw [live, live]
  by_cases hheld : cbs.held f = true
  · rw [if_pos hheld, if_pos (h.held f hheld)]
    exact Nat.add_le_add (h.clk.count_le f) (h.async.count_le f)
  · rw [if_neg hheld]
    apply Nat.zero_le

end CallBacks.Within

/-! ### Passes -/

/-- The program installs no callback. -/
def InstallsNone {α : Type} (x : DevM α) : Prop :=
  ∀ old, Keeps (fun p : Peripherals => p.cbs.Within old) (fun _ => True) x

namespace InstallsNone

variable {α β : Type} {x : DevM α}

theorem pure
    (a : α) :
  InstallsNone (pure a : DevM α)
  := fun _ => Triple.pure fun _ h => h

theorem bind
    {f : α → DevM β} (hx : InstallsNone x) (hf : ∀ a, InstallsNone (f a)) :
  InstallsNone (x >>= f)
  := fun old => Triple.bind (hx old) fun a => hf a old

theorem ite
    {c : Prop} [Decidable c] {y : DevM α} (hx : InstallsNone x) (hy : InstallsNone y) :
  InstallsNone (if c then x else y)
  := fun old => Triple.ite (fun _ => hx old) (fun _ => hy old)

theorem error
    (fmt : String) (args : List Int) :
  InstallsNone (devError fmt args : DevM α)
  := fun _ _ _ => trivial

/-- A read of the peripherals, and the rest of the program -/
theorem get
    {f : Peripherals → β} {g : β → DevM α} (h : ∀ b, InstallsNone (g b)) :
  InstallsNone (getDev f >>= g)
  := fun old p hp => h (f p) old p hp

/-- A program that leaves the callbacks -/
theorem of_leaves
    (h : Leaves (fun p => p.cbs) x) :
  InstallsNone x
  := fun old => h.keeps fun cbs => cbs.Within old

/-- A change that leaves the callbacks -/
theorem set
    {f : Peripherals → Peripherals} (h : ∀ p, (f p).cbs = p.cbs) :
  InstallsNone (setDev f)
  := of_leaves (.set h)

theorem withdraw
    (f : CallBackFP) :
  InstallsNone (setCbs fun cbs => cbs.withdraw f)
  := fun _ _ h => h.withdraw f

end InstallsNone

theorem timerIntrCb_installsNone :
  InstallsNone timerIntrCb
  := by
  have hraise (vect : IntVectTable) (mask : Byte) : InstallsNone (timerIntrRaise vect mask) :=
    .bind (.set fun _ => rfl) fun _ => .pure _
  exact .get fun _ => .get fun _ => .ite (.pure _) (.ite (.pure _) (.ite (hraise _ _)
    (.ite (hraise _ _) (.ite (hraise _ _) (.ite (hraise _ _) (.ite (hraise _ _) (.error _ _)))))))

theorem timerIntrSetFlag_installsNone
    (c : Prop) [Decidable c] (bitnr : Byte) :
  InstallsNone (devIf c (timerIntrSetFlag bitnr))
  := .ite (.set fun _ => rfl) (.pure _)

theorem timer0ClkIncrCb_installsNone
    (ck : Nat) :
  InstallsNone (timer0ClkIncrCb ck)
  := .get fun _ => .get fun _ => .ite (.pure _) (.ite (.error _ _) (.bind (.set fun _ => rfl)
    fun _ => .bind (timerIntrSetFlag_installsNone _ _) fun _ => .pure _))

theorem timer16ClkIncrCb_installsNone
    (ck : Nat) :
  InstallsNone (timer16ClkIncrCb ck)
  := by
  have hcompare (ocr : Option Nat) (tcnt : Word) (mask : Byte) :
      InstallsNone (timer16Compare ocr tcnt mask) := by
    apply InstallsNone.get
    intro ocreg16
    cases ocr with
    | none => exact .pure _
    | some n => exact timerIntrSetFlag_installsNone _ _
  exact .get fun _ => .get fun _ => .ite (.pure _) (.bind (.set fun _ => rfl) fun _ =>
    .ite (.error _ _) (.bind (.ite (.bind (timerIntrSetFlag_installsNone _ _) fun _ =>
      .bind (hcompare _ _ _) fun _ => hcompare _ _ _) (.pure _)) fun _ => .pure _))

theorem spiClkIncrCb_installsNone
    (ck : Nat) :
  InstallsNone (spiClkIncrCb ck)
  := .get fun _ => .get fun _ => .ite (.pure _) (.ite (.error _ _) (.bind (.set fun _ => rfl)
    fun _ => .ite (.bind (.set fun _ => rfl) fun _ => .bind (.set fun _ => rfl) fun _ =>
      .bind (.withdraw _) fun _ => .pure _) (.pure _)))

theorem uartClkIncrCb_installsNone
    (ck : Nat) :
  InstallsNone (uartClkIncrCb ck)
  := .get fun _ => .get fun _ => .get fun _ => .ite (.pure _) (.ite (.error _ _)
    (.bind (.set fun _ => rfl) fun _ => .ite
      (.ite (.bind (.set fun _ => rfl) fun _ => .bind (.withdraw _) fun _ => .pure _)
        (.bind (.set fun _ => rfl) fun _ => .bind (.set fun _ => rfl) fun _ => .pure _)) (.pure _)))

theorem adcClkIncrCb_installsNone
    (ck : Nat) :
  InstallsNone (adcClkIncrCb ck)
  := .get fun _ => .get fun _ => .ite (.pure _) (.ite (.error _ _) (.bind (.set fun _ => rfl)
    fun _ => .ite (.bind (.set fun _ => rfl) fun _ =>
      .bind (.bind (.of_leaves (.world fun _ _ => rfl)) fun _ => .pure _) fun _ =>
      .bind (.set fun _ => rfl) fun _ => .get fun _ =>
      .ite (.bind (.set fun _ => rfl) fun _ => .pure _) (.bind (.withdraw _) fun _ => .pure _))
      (.pure _)))

/-- A callback installs no callback. -/
theorem callbackExecute_installsNone
    (time : Nat) (f : CallBackFP) :
  InstallsNone (callbackExecute time f)
  := by
  have hclk {x : DevM CbRet} (hx : InstallsNone x) : InstallsNone (clkCallback x) :=
    .bind hx fun _ => .pure _
  apply InstallsNone.bind _ fun _ => .pure _
  cases f with
  | timerIntrCb => exact timerIntrCb_installsNone
  | timer0ClkIncrCb => exact hclk (timer0ClkIncrCb_installsNone time)
  | timer16ClkIncrCb => exact hclk (timer16ClkIncrCb_installsNone time)
  | spiIntrCb =>
    exact .get fun _ => .get fun _ => .ite (.pure _) (.ite (.bind (.set fun _ => rfl)
      fun _ => .pure _) (.pure _))
  | spiClkIncrCb => exact hclk (spiClkIncrCb_installsNone time)
  | uartIntrCb =>
    exact .get fun _ => .get fun _ => .ite (.pure _) (.bind (.set fun _ => rfl) fun _ => .pure _)
  | uartClkIncrCb => exact hclk (uartClkIncrCb_installsNone time)
  | adcIntrCb =>
    exact .get fun _ => .get fun _ => .ite (.pure _) (.ite (.bind (.set fun _ => rfl)
      fun _ => .pure _) (.pure _))
  | adcClkIncrCb => exact hclk (adcClkIncrCb_installsNone time)
  | wdtcrTimerCb =>
    exact .get fun _ => .get fun _ => .ite (.pure _) (.ite (.pure _) (.pure _))
  | wdtcrToeClrCb =>
    exact hclk (.get fun _ => .get fun _ => .ite (.pure _) (.ite (.bind (.set fun _ => rfl)
      fun _ => .pure _) (.bind (.set fun _ => rfl) fun _ => .bind (.withdraw _) fun _ => .pure _)))
  | eepromWrOpCb =>
    have hlift {α : Type} (x : Except AvrError α) : InstallsNone (liftStorage x) := by
      apply InstallsNone.of_leaves
      exact Leaves.of_touches (S := []) (.lift _) fun f p hf => hf.cbs_eq nofun p
    exact .get fun _ => .ite (.bind (.set fun _ => rfl) fun _ => .pure _) (.bind (hlift _) fun _ =>
      .bind (.set fun _ => rfl) fun _ => .bind (.withdraw _) fun _ => .pure _)
  | eepromMweClrCb =>
    exact hclk (.get fun _ => .ite (.bind (.set fun _ => rfl) fun _ => .pure _)
      (.bind (.set fun _ => rfl) fun _ => .bind (.withdraw _) fun _ => .pure _))

/-- A pass that starts with at most one live callback of a function runs at most one. -/
theorem visits_ranLive
    {f : CallBackFP} {p : Peripherals} {fs : List CallBackFP} (hlive : p.cbs.live f ≤ 1)
    (hfs : fs.count f ≤ p.cbs.copies f) (time : Nat) :
  (visits (callbackExecute time) fs p).countP (ranLive f) ≤ 1
  := by
  by_cases hheld : p.cbs.held f = true
  · rw [CallBacks.live, if_pos hheld] at hlive
    calc (visits (callbackExecute time) fs p).countP (ranLive f)
        ≤ (visits (callbackExecute time) fs p).countP (fun v => v.1 == f) := by
          apply List.countP_mono_left
          intro v _ hv
          exact beq_iff_eq.mpr (of_decide_eq_true (Bool.and_eq_true_iff.mp hv).1)
      _ = ((visits (callbackExecute time) fs p).map Prod.fst).count f := by
          rw [List.count, List.countP_map]
          rfl
      _ ≤ fs.count f := (visits_sublist fs p).count_le f
      _ ≤ 1 := hfs.trans hlive
  · rw [List.countP_eq_zero.mpr]
    · apply Nat.zero_le
    · intro v hv hran
      have hwithin := visits_keeps (fun g _ => callbackExecute_installsNone time g p.cbs)
        (CallBacks.Within.refl p.cbs) v hv
      exact hheld (hwithin.held f (Bool.and_eq_true_iff.mp hran).2)

theorem OneLive.of_listed
    {f : CallBackFP} {p : Peripherals} (h : p.cbs.live f ≤ 1) :
  OneLive f p
  where
    listed := h
    clk := fun ck => visits_ranLive h (Nat.le_add_right _ _) ck
    async := fun time world =>
      visits_ranLive (p := { p with world := world }) h (Nat.le_add_left _ _) time

/-! ### Reads, resets and passes -/

/-- A read leaves the callbacks. -/
theorem IoVDev.read_cbs
    (d : IoVDev) (addr : Int) :
  Leaves (fun p => p.cbs) (d.read addr)
  := by
  have hother (h : ∀ g : CallBackFP, g.owner ∉ d.readReach) :
      Leaves (fun p => p.cbs) (d.read addr) :=
    .of_touches (d.read_touches addr) fun f p hf => hf.cbs_eq h p
  cases d with
  | timer16 =>
    exact .get fun _ => .ite (.bind (.set fun _ => rfl) fun _ => .pure _) (.ite (.pure _)
      (.ite (.pure _) (.ite (.pure _) (.ite (.pure _) (.error _ _)))))
  | spiIntr =>
    exact .get fun _ => .ite (.pure _) (.ite (.bind (.devIf (.set fun _ => rfl)) fun _ =>
      .bind (.devIf (.set fun _ => rfl)) fun _ => .pure _) (.error _ _))
  | spi => exact .get fun _ => .ite (.bind (.set fun _ => rfl) fun _ => .pure _) (.error _ _)
  | uart =>
    have hreceive : Leaves (fun p => p.cbs) uartReceive :=
      .bind (.bind (.world fun _ _ => rfl) fun _ => .pure _) fun _ => .bind (.set fun _ => rfl)
        fun _ => .set fun _ => rfl
    exact .get fun _ => .get fun _ => .ite (.bind (.set fun _ => rfl) fun _ =>
      .bind (.devIf hreceive) fun _ => .get fun _ => .pure _) (.error _ _)
  | _ =>
    apply hother
    intro g
    cases g <;> simp [IoVDev.readReach, CallBackFP.owner]

/-- A reset withdraws callbacks. -/
theorem IoVDev.reset_within
    (d : IoVDev) (p : Peripherals) :
  (d.reset p).cbs.Within p.cbs
  := by
  have hrefl := CallBacks.Within.refl p.cbs
  cases d with
  | timerIntr | timer0 | timer16 | spiIntr | spi | uartIntr | uart | adcIntr | adc =>
    exact hrefl.withdraw _
  | wdtcr | eeprom => exact (hrefl.withdraw _).withdraw _
  | _ => exact hrefl

/-- Only a write installs callbacks. -/
theorem IoStep.within
    {e : IoEvent} {p q : Peripherals} (hstep : IoStep e p q)
    (hwrite : ∀ addr val, e ≠ .write addr val) :
  q.cbs.Within p.cbs
  := by
  have hrefl := CallBacks.Within.refl p.cbs
  cases hstep with
  | @read addr val _ _ h =>
    have hq : q.cbs = p.cbs := by
      apply @IoStep.access_leaves _ (fun s => s.cbs) _ _ _ (IoStep.read h) rfl fun _ _ => rfl
      · exact fun addr d _ _ => d.read_cbs addr
      · exact fun _ _ _ he => IoEvent.noConfusion he
      · exact fun _ _ he => IoEvent.noConfusion he
    rw [hq]
    exact hrefl
  | @write addr val => exact absurd rfl (hwrite addr val)
  | @reset addr =>
    cases hat : p.vdevAt addr with
    | none =>
      rw [devReset_none hat]
      exact hrefl
    | some d =>
      rw [devReset_at hat]
      exact d.reset_within { p with history := p.history ++ [.reset addr] }
  | tick h =>
    obtain ⟨r, s, hpass, rfl⟩ := (IoStep.tick h).tick_pass
    obtain ⟨hs, hsub⟩ :=
      (pass_keeps fun f _ => callbackExecute_installsNone _ f p.cbs).of_ok hrefl hpass
    exact ⟨hsub, hs.async, hs.held⟩
  | async h =>
    obtain ⟨time, world, r, s, hpass, rfl⟩ := (IoStep.async h).async_pass
    obtain ⟨hs, hsub⟩ := (pass_keeps fun f _ => callbackExecute_installsNone _ f p.cbs).of_ok
      (s := { p with world := world }) hrefl hpass
    exact ⟨hs.clk, hsub, hs.held⟩

/-! ### Writes -/

/-- What a device asks for: a callback, unless it holds one or whether or not it does, or that its
callback removes itself -/
inductive CbRequest where
  | ensure (f : CallBackFP)
  | install (f : CallBackFP)
  | withdraw (f : CallBackFP)

namespace CbRequest

/-- The function of the callback -/
def func : CbRequest → CallBackFP
  | ensure f | install f | withdraw f => f

/-- The lists and pointers once the device has what it asks for -/
def apply (r : CbRequest) (cbs : CallBacks) : CallBacks :=
  match r with
  | ensure f => cbs.ensure f
  | install f => cbs.install f
  | withdraw f => cbs.withdraw f

/-- The request installs a callback. -/
def Installs (cbs : CallBacks) : CbRequest → Prop
  | ensure f => cbs.held f = false
  | install _ => True
  | withdraw _ => False

end CbRequest

/-- What a timer asks for with its clock select bits -/
def timerRequest (cs : Byte) (f : CallBackFP) : CbRequest :=
  if cs = 0 then .withdraw f else .ensure f

/-- What a device other than the EEPROM asks for in a write that returns -/
def IoVDev.requests (d : IoVDev) (addr : Int) (val : Byte) (p : Peripherals) : List CbRequest :=
  match d with
  | timerIntr =>
    if addr = p.timerIntr.timskAddr then
      [if val &&& p.timerIntr.funcMask = 0 then .withdraw .timerIntrCb else .ensure .timerIntrCb]
    else []
  | timer0 =>
    if addr = p.timer0.tcntAddr then [] else [timerRequest (val &&& 0x07) .timer0ClkIncrCb]
  | timer16 =>
    if addr = p.timer16.tcntlAddr ∨ addr = p.timer16.tcnthAddr then []
    else if addr ≠ p.timer16.tccraAddr ∧ addr = p.timer16.tccrbAddr then
      [timerRequest (val &&& 0x07) .timer16ClkIncrCb]
    else [timerRequest (p.timer16.tccrb &&& 0x07) .timer16ClkIncrCb]
  | spiIntr => [if val &&& maskSPE ≠ 0 then .install .spiIntrCb else .withdraw .spiIntrCb]
  | spi => [.ensure .spiClkIncrCb]
  | uartIntr =>
    if addr = p.uartIntr.ubrrlAddr ∨ addr = p.uartIntr.ubrrhAddr ∨ addr = p.uartIntr.usr.toNat then []
    else [if UARTIntr.Enabled val then .ensure .uartIntrCb else .withdraw .uartIntrCb]
  | uart => [.ensure .uartClkIncrCb]
  | adcIntr =>
    if addr ≠ p.adcIntr.adcsrAddr then []
    else if val &&& maskADSC ≠ 0 ∧ val &&& maskADEN ≠ 0 then
      [.ensure .adcIntrCb, .ensure .adcClkIncrCb]
    else [.withdraw .adcIntrCb]
  | wdtcr =>
    (if p.wdtcr.funcMask &&& maskWDTOE ≠ 0 ∧ wdtcrLocked p.wdtcr val &&& maskWDTOE ≠ 0 then
      [.ensure .wdtcrToeClrCb] else []) ++
    (if p.wdtcr.wdtcr &&& maskWDE = 0 ∧ wdtcrLocked p.wdtcr val &&& maskWDE ≠ 0 then
      [.ensure .wdtcrTimerCb] else []) ++
    (if p.wdtcr.wdtcr &&& maskWDE ≠ 0 ∧ wdtcrLocked p.wdtcr val &&& maskWDE = 0 then
      [.withdraw .wdtcrTimerCb] else [])
  | _ => []

/-- The lists and pointers after requests -/
def CallBacks.after (cbs : CallBacks) (rs : List CbRequest) : CallBacks :=
  rs.foldl (fun cbs r => r.apply cbs) cbs

theorem csDivisor_ok
    {cs : Byte} {text : String} {divisor : Option Int} (h : csDivisor cs text = .ok divisor) :
  divisor = none ↔ cs = 0
  := by
  rw [csDivisor] at h
  by_cases hcs : cs = 0
  · rw [if_pos hcs] at h
    cases h
    exact iff_of_true rfl hcs
  · rw [if_neg hcs] at h
    apply iff_of_false _ hcs
    rintro rfl
    revert h
    repeat' split
    all_goals nofun

/-- The clock select bits of a timer choose a divisor, and then its callback. -/
theorem timerRequest_apply
    {cs : Byte} {text : String} {divisor : Option Int} (h : csDivisor cs text = .ok divisor)
    (f : CallBackFP) (cbs : CallBacks) :
  cbs.after [timerRequest cs f]
    = match divisor with
      | none => cbs.withdraw f
      | some _ => cbs.ensure f
  := by
  have hcs := csDivisor_ok h
  rw [timerRequest]
  cases divisor with
  | none =>
    rw [if_pos (hcs.mp rfl)]
    rfl
  | some divisor =>
    rw [if_neg fun h => Option.some_ne_none _ (hcs.mpr h)]
    rfl

theorem run_liftDevError
    {α : Type} {x : Except DevError α} {a : α} {p q : Peripherals}
    (h : (liftDevError x).run p = .ok (a, q)) :
  x = .ok a ∧ q = p
  := by
  cases x with
  | error e => contradiction
  | ok b =>
    cases h
    exact ⟨rfl, rfl⟩

section

variable {addr : Int} {val : Byte} {p q : Peripherals}

theorem timerIntrWrite_cbs
    (h : (timerIntrWrite addr val).run p = .ok ((), q)) :
  q.cbs = p.cbs.after (IoVDev.timerIntr.requests addr val p)
  := by
  rw [timerIntrWrite, run_bind_of_ok rfl] at h
  rw [IoVDev.requests]
  split at h
  · next haddr =>
    rw [if_pos haddr]
    rw [run_bind_of_ok rfl] at h
    split at h
    · next hval =>
      cases h
      rw [if_pos hval]
      rfl
    · next hval =>
      cases h
      rw [if_neg hval]
      rfl
  · next haddr =>
    rw [if_neg haddr]
    split at h
    · cases h
      rfl
    · contradiction

theorem timer0Write_cbs
    (h : (timer0Write addr val).run p = .ok ((), q)) :
  q.cbs = p.cbs.after (IoVDev.timer0.requests addr val p)
  := by
  rw [timer0Write, run_bind_of_ok rfl] at h
  rw [IoVDev.requests]
  split at h
  · next haddr =>
    cases h
    rw [if_pos haddr]
    rfl
  · next haddr =>
    rw [if_neg haddr]
    split at h
    · rw [run_bind_of_ok rfl, run_bind_eq_ok] at h
      obtain ⟨divisor, s, hlift, h⟩ := h
      obtain ⟨hdivisor, rfl⟩ := run_liftDevError hlift
      rw [timerRequest_apply hdivisor]
      cases divisor with
      | none =>
        cases h
        rfl
      | some divisor =>
        cases h
        rfl
    · contradiction

theorem timer16HandleTccrWrite_cbs
    (h : timer16HandleTccrWrite.run p = .ok ((), q)) :
  q.cbs = p.cbs.after [timerRequest (p.timer16.tccrb &&& 0x07) .timer16ClkIncrCb]
  := by
  rw [timer16HandleTccrWrite, run_bind_of_ok rfl, run_bind_eq_ok] at h
  obtain ⟨divisor, s, hlift, h⟩ := h
  obtain ⟨hdivisor, rfl⟩ := run_liftDevError hlift
  rw [timerRequest_apply hdivisor]
  cases divisor with
  | none =>
    cases h
    rfl
  | some divisor =>
    cases h
    rfl

theorem timer16Write_cbs
    (h : (timer16Write addr val).run p = .ok ((), q)) :
  q.cbs = p.cbs.after (IoVDev.timer16.requests addr val p)
  := by
  rw [timer16Write, run_bind_of_ok rfl] at h
  rw [IoVDev.requests]
  by_cases htcntl : addr = p.timer16.tcntlAddr
  · rw [if_pos htcntl] at h
    rw [if_pos (.inl htcntl)]
    cases h
    rfl
  rw [if_neg htcntl] at h
  by_cases htcnth : addr = p.timer16.tcnthAddr
  · rw [if_pos htcnth] at h
    rw [if_pos (.inr htcnth)]
    cases h
    rfl
  rw [if_neg htcnth] at h
  rw [if_neg (not_or.mpr ⟨htcntl, htcnth⟩)]
  split at h
  · next htccra =>
    rw [run_bind_of_ok rfl] at h
    rw [if_neg fun hb => hb.1 htccra]
    have hq := timer16HandleTccrWrite_cbs h
    exact hq
  · next htccra =>
    split at h
    · next htccrb =>
      rw [run_bind_of_ok rfl] at h
      rw [if_pos ⟨htccra, htccrb⟩]
      exact timer16HandleTccrWrite_cbs h
    · next htccrb =>
      rw [if_neg fun hb => htccrb hb.2]
      split at h
      · rw [run_bind_of_ok rfl] at h
        have hq := timer16HandleTccrWrite_cbs h
        exact hq
      · contradiction

theorem spiIntrWrite_cbs
    (h : (spiIntrWrite addr val).run p = .ok ((), q)) :
  q.cbs = p.cbs.after (IoVDev.spiIntr.requests addr val p)
  := by
  rw [spiIntrWrite, run_bind_of_ok rfl] at h
  rw [IoVDev.requests]
  split at h
  · rw [run_bind_of_ok rfl] at h
    split at h
    · next hspe =>
      rw [if_pos hspe]
      cases h
      rfl
    · next hspe =>
      rw [if_neg hspe]
      cases h
      rfl
  · contradiction

theorem uartIntrWrite_cbs
    (h : (uartIntrWrite addr val).run p = .ok ((), q)) :
  q.cbs = p.cbs.after (IoVDev.uartIntr.requests addr val p)
  := by
  rw [uartIntrWrite, run_bind_of_ok rfl] at h
  rw [IoVDev.requests]
  split at h
  · next haddr =>
    rw [if_pos (.inl haddr)]
    cases h
    rfl
  next hubrrl =>
  split at h
  · next haddr =>
    rw [if_pos (.inr (.inl haddr))]
    cases h
    rfl
  next hubrrh =>
  split at h
  · next haddr =>
    rw [if_pos (.inr (.inr haddr))]
    rw [devIf] at h
    split at h <;> cases h <;> rfl
  next husr =>
  rw [if_neg (not_or.mpr ⟨hubrrl, not_or.mpr ⟨hubrrh, husr⟩⟩)]
  split at h
  · rw [run_bind_of_ok rfl] at h
    split at h
    · next henabled =>
      rw [if_pos henabled]
      cases h
      rfl
    · next henabled =>
      rw [if_neg henabled]
      cases h
      rfl
  · contradiction

theorem run_devIf_setCbs
    (c : Prop) [Decidable c] (f : CallBacks → CallBacks) (p : Peripherals) :
  (devIf c (setCbs f)).run p = .ok ((), { p with cbs := if c then f p.cbs else p.cbs })
  := by
  rw [devIf]
  split <;> rfl

/-- A conditional request, after others -/
theorem after_append_ite
    (cbs : CallBacks) (rs : List CbRequest) (c : Prop) [Decidable c] (r : CbRequest) :
  cbs.after (rs ++ if c then [r] else []) = if c then r.apply (cbs.after rs) else cbs.after rs
  := by
  rw [CallBacks.after, List.foldl_append]
  split <;> rfl

theorem wdtcrWrite_cbs
    (addr : Int) (h : (wdtcrWrite val).run p = .ok ((), q)) :
  q.cbs = p.cbs.after (IoVDev.wdtcr.requests addr val p)
  := by
  rw [wdtcrWrite, run_bind_of_ok rfl] at h
  obtain ⟨_, s, hopen, h⟩ := run_bind_eq_ok.mp h
  have hs : s.cbs = p.cbs.after
      (if p.wdtcr.funcMask &&& maskWDTOE ≠ 0 ∧ wdtcrLocked p.wdtcr val &&& maskWDTOE ≠ 0 then
        [.ensure .wdtcrToeClrCb] else []) := by
    rw [devIf] at hopen
    split at hopen
    · next htoe =>
      rw [if_pos htoe]
      cases hopen
      rfl
    · next htoe =>
      rw [if_neg htoe]
      cases hopen
      rfl
  rw [run_bind_of_ok rfl, run_bind_of_ok (run_devIf_setCbs _ _ _), run_devIf_setCbs] at h
  cases h
  rw [IoVDev.requests, after_append_ite, after_append_ite, ← hs]
  rfl

/-- A write leads to the lists and pointers that the device asks for. -/
theorem IoStep.write_cbs
    {d : IoVDev} (hstep : IoStep (.write addr val) p q) (hat : p.vdevAt addr = some d)
    (hd : d ≠ .eeprom) :
  q.cbs = p.cbs.after (d.requests addr val p)
  := by
  cases hstep with
  | write hrun =>
    have h := hrun
    rw [devWrite_at hat] at h
    have hother (hS : ∀ g : CallBackFP, g.owner ∉ d.reach) : q.cbs = p.cbs :=
      (d.write_touches addr val).leaves (p := { p with history := p.history ++ [.write addr val] })
        (fun p => p.cbs) (fun f p hf => hf.cbs_eq hS p) h
    cases d with
    | timerIntr =>
      have hq := timerIntrWrite_cbs h
      exact hq
    | timer0 =>
      have hq := timer0Write_cbs h
      exact hq
    | timer16 =>
      have hq := timer16Write_cbs h
      exact hq
    | spiIntr =>
      have hq := spiIntrWrite_cbs h
      exact hq
    | spi =>
      obtain ⟨-, hq, -⟩ := (IoStep.write hrun).spi_write hat
      exact hq
    | uartIntr =>
      have hq := uartIntrWrite_cbs h
      exact hq
    | uart =>
      obtain ⟨-, -, -, hq⟩ := uartWrite_ok h
      exact hq
    | adcIntr =>
      rw [IoVDev.requests]
      by_cases haddr : addr = p.adcIntr.adcsrAddr
      · rw [if_neg fun h => h haddr, ((IoStep.write hrun).adcsr_write ⟨hat, haddr⟩).2]
        split <;> rfl
      · rw [if_pos haddr]
        exact ((IoStep.write hrun).admux_write hat haddr).2
    | adc => contradiction
    | wdtcr =>
      have hq := wdtcrWrite_cbs addr h
      exact hq
    | eeprom => contradiction
    | _ =>
      apply hother
      intro g
      cases g <;> simp [IoVDev.reach, CallBackFP.owner]

end

theorem timerRequest_func
    (cs : Byte) (f : CallBackFP) :
  (timerRequest cs f).func = f
  := by
  rw [timerRequest]
  split <;> rfl

/-- No device asks for two callbacks of a function, or for one of the EEPROM. -/
theorem requests_nodup
    (d : IoVDev) (addr : Int) (val : Byte) (p : Peripherals) :
  ((d.requests addr val p).map CbRequest.func).Nodup
    ∧ ∀ r ∈ d.requests addr val p, r.func.owner ≠ .eeprom
  := by
  cases d with
  | timer0 | timer16 =>
    rw [IoVDev.requests]
    repeat' split
    all_goals simp [timerRequest_func, CallBackFP.owner]
  | _ =>
    rw [IoVDev.requests]
    repeat' split
    all_goals simp_all [CbRequest.func, CallBackFP.owner]

/-! ### What a request does to the live callbacks -/

section

variable {cbs cbs' : CallBacks} {f : CallBackFP}

theorem copies_eq_of_view
    (h : cbs.view f = cbs'.view f) :
  cbs.copies f = cbs'.copies f
  := congrArg (fun v => v.2.1 + v.2.2) h

theorem live_eq_of_view
    (h : cbs.view f = cbs'.view f) :
  cbs.live f = cbs'.live f
  := congrArg (fun v => if v.1 then v.2.1 + v.2.2 else 0) h

theorem live_install
    (cbs : CallBacks) (f : CallBackFP) :
  (cbs.install f).live f = cbs.copies f + 1
  := by
  have hheld : (cbs.install f).held f = true :=
    Function.update_self (β := fun _ => Bool) f true cbs.held
  rw [CallBacks.live, if_pos hheld, CallBacks.copies, CallBacks.copies, CallBacks.install]
  by_cases hclk : f.isClk = true
  · rw [if_pos hclk, if_pos hclk, List.count_append, List.count_singleton_self, Nat.add_right_comm]
  · rw [if_neg hclk, if_neg hclk, List.count_append, List.count_singleton_self, Nat.add_assoc]

theorem live_withdraw
    (cbs : CallBacks) (f : CallBackFP) :
  (cbs.withdraw f).live f = 0
  := by
  have hheld : (cbs.withdraw f).held f = false :=
    Function.update_self (β := fun _ => Bool) f false cbs.held
  rw [CallBacks.live, if_neg (ne_true_of_eq_false hheld)]

/-- A request leaves one live callback exactly if it installs none beside another. -/
theorem CbRequest.live_apply_iff
    {r : CbRequest} (h : cbs.live r.func ≤ 1) :
  (r.apply cbs).live r.func ≤ 1 ↔ (r.Installs cbs → cbs.copies r.func = 0)
  := by
  have hinstall (f : CallBackFP) : (cbs.install f).live f ≤ 1 ↔ cbs.copies f = 0 := by
    rw [live_install]
    omega
  cases r with
  | ensure f =>
    change (cbs.ensure f).live f ≤ 1 ↔ (cbs.held f = false → _)
    rw [CallBacks.ensure]
    by_cases hheld : cbs.held f = true
    · rw [if_pos hheld]
      apply iff_of_true h
      intro hnot
      rw [hheld] at hnot
      contradiction
    · rw [if_neg hheld, hinstall]
      have hnot := eq_false_of_ne_true hheld
      exact ⟨fun h _ => h, fun h => h hnot⟩
  | install f => exact (hinstall f).trans ⟨fun h _ => h, fun h => h trivial⟩
  | withdraw f =>
    apply iff_of_true
    · change (cbs.withdraw f).live f ≤ 1
      rw [live_withdraw]
      apply Nat.zero_le
    · exact fun h => h.elim

/-- A request leaves the callbacks of another function. -/
theorem CbRequest.view_apply
    {r : CbRequest} (hne : r.func ≠ f) (cbs : CallBacks) :
  (r.apply cbs).view f = cbs.view f
  := by
  cases r with
  | ensure g => exact view_ensure cbs hne.symm
  | install g => exact view_install cbs hne.symm
  | withdraw g => exact view_withdraw cbs hne.symm

theorem after_view
    {rs : List CbRequest} (h : ∀ r ∈ rs, r.func ≠ f) (cbs : CallBacks) :
  (cbs.after rs).view f = cbs.view f
  := by
  induction rs generalizing cbs with
  | nil => rfl
  | cons r rs ih =>
    rw [List.forall_mem_cons] at h
    exact (ih h.2 (r.apply cbs)).trans (CbRequest.view_apply h.1 cbs)

theorem CbRequest.installs_iff_of_view
    {r : CbRequest} (h : cbs.view r.func = cbs'.view r.func) :
  r.Installs cbs ↔ r.Installs cbs'
  := by
  cases r with
  | ensure f =>
    have hheld : cbs.held f = cbs'.held f := congrArg Prod.fst h
    change cbs.held f = false ↔ cbs'.held f = false
    rw [hheld]
  | install f | withdraw f => exact Iff.rfl

/-- Requests leave one live callback exactly if none of them installs one beside another. -/
theorem live_after_iff
    {rs : List CbRequest} (hnodup : (rs.map CbRequest.func).Nodup) (h : cbs.live f ≤ 1) :
  (cbs.after rs).live f ≤ 1 ↔ ∀ r ∈ rs, r.func = f → r.Installs cbs → cbs.copies f = 0
  := by
  induction rs generalizing cbs with
  | nil => exact iff_of_true h (List.forall_mem_nil _)
  | cons r rs ih =>
    rw [List.map_cons, List.nodup_cons] at hnodup
    obtain ⟨hnot, hnodup⟩ := hnodup
    rw [List.forall_mem_cons]
    by_cases hr : r.func = f
    · subst hr
      have hrest : ∀ r' ∈ rs, r'.func ≠ r.func := fun r' hmem heq =>
        hnot (heq ▸ List.mem_map_of_mem hmem)
      change ((r.apply cbs).after rs).live r.func ≤ 1 ↔ _
      rw [live_eq_of_view (after_view hrest _), r.live_apply_iff h, and_iff_left]
      · exact ⟨fun h _ => h, fun h => h rfl⟩
      · exact fun r' hmem heq => absurd heq (hrest r' hmem)
    · have hview := CbRequest.view_apply hr cbs
      change ((r.apply cbs).after rs).live f ≤ 1 ↔ _
      rw [ih hnodup ((live_eq_of_view hview).trans_le h), copies_eq_of_view hview,
        and_iff_right fun h => absurd h hr]
      apply forall₂_congr
      intro r' _
      apply forall_congr'
      rintro rfl
      rw [CbRequest.installs_iff_of_view hview]

end

/-! ### Runs -/

/-- The event installs no callback beside one of the same function: the lists have none at a write
to SPCR with SPE set, and none when a device that holds no callback asks for one. -/
def IoEvent.InstallsFirst (p : Peripherals) : IoEvent → Prop
  | write addr val => ∀ d, p.vdevAt addr = some d → ∀ r ∈ d.requests addr val p,
      r.Installs p.cbs → p.cbs.copies r.func = 0
  | _ => True

/-- At most one callback of each function of the timers, serial interfaces, A/D converter and
watchdog is live, and no pass runs more than one. -/
def OneLiveEach (p : Peripherals) : Prop :=
  ∀ f : CallBackFP, f.owner ≠ .eeprom → OneLive f p

theorem OneLiveEach.of_within
    {p q : Peripherals} (h : OneLiveEach p) (hq : q.cbs.Within p.cbs) :
  OneLiveEach q
  := fun f hf => .of_listed ((hq.live_le f).trans (h f hf).listed)

/-- A step leaves one live callback of each function exactly if its event installs none beside
another. -/
theorem IoStep.oneLiveEach_iff
    {e : IoEvent} {p q : Peripherals} (hstep : IoStep e p q) (h : OneLiveEach p) :
  OneLiveEach q ↔ e.InstallsFirst p
  := by
  cases e with
  | write addr val =>
    cases hat : p.vdevAt addr with
    | none =>
      have hq : q.cbs = p.cbs := by
        apply @IoStep.access_leaves _ (fun s => s.cbs) _ _ _ hstep rfl fun _ _ => rfl
        · exact fun _ _ he => IoEvent.noConfusion he
        · rintro _ _ d he hat'
          cases he
          rw [hat] at hat'
          contradiction
        · exact fun _ _ he => IoEvent.noConfusion he
      apply iff_of_true
      · apply h.of_within
        rw [hq]
        apply CallBacks.Within.refl
      · intro d hat'
        rw [hat] at hat'
        contradiction
    | some d =>
      by_cases hd : d = .eeprom
      · subst hd
        apply iff_of_true
        · intro f hf
          have hview : q.cbs.view f = p.cbs.view f := by
            apply @IoStep.access_leaves _ (fun s => s.cbs.view f) _ _ _ hstep rfl fun _ _ => rfl
            · exact fun _ _ he => IoEvent.noConfusion he
            · rintro _ _ d he hat'
              cases he
              obtain rfl := Option.some.inj (hat.symm.trans hat')
              apply Leaves.of_touches (IoVDev.write_touches _ _ _)
              intro g p hg
              exact hg.view (fun hmem => hf (List.mem_singleton.mp hmem)) p
            · exact fun _ _ he => IoEvent.noConfusion he
          apply OneLive.of_listed
          rw [live_eq_of_view hview]
          exact (h f hf).listed
        · intro d hat'
          obtain rfl := Option.some.inj (hat.symm.trans hat')
          exact List.forall_mem_nil _
      · have hcbs := hstep.write_cbs hat hd
        obtain ⟨hnodup, howner⟩ := requests_nodup d addr val p
        constructor
        · intro hq d' hat' r hr
          obtain rfl := Option.some.inj (hat.symm.trans hat')
          have hlive := (hq r.func (howner r hr)).listed
          rw [hcbs, live_after_iff hnodup (h r.func (howner r hr)).listed] at hlive
          exact hlive r hr rfl
        · intro hfirst f hf
          apply OneLive.of_listed
          rw [hcbs, live_after_iff hnodup (h f hf).listed]
          rintro r hr rfl
          exact hfirst d hat r hr
  | _ => exact iff_of_true (h.of_within (hstep.within fun _ _ he => IoEvent.noConfusion he)) trivial

/-- A callback whose device holds none does nothing but ask for its removal. -/
theorem callbackExecute_of_not_held
    {f : CallBackFP} (hf : f.owner ≠ .eeprom) {p : Peripherals} (hheld : p.cbs.held f = false)
    (time : Nat) :
  (callbackExecute time f).run p = .ok ((true, []), p)
  := by
  have hrun {α β : Type} (part : Peripherals → β) (ret : α) (x : β → CallBacks → DevM α) :
      (do
        let b ← getDev part
        let cbs ← getDev Peripherals.cbs
        if ¬ cbs.held f then return ret else x b cbs : DevM α).run p = .ok (ret, p) := by
    rw [run_bind_of_ok rfl, run_bind_of_ok rfl, if_pos (ne_true_of_eq_false hheld)]
    rfl
  have hclk {x : DevM CbRet} (hx : x.run p = .ok (.remove, p)) :
      (clkCallback x).run p = .ok ((.remove, []), p) := by
    rw [clkCallback, run_bind_of_ok hx]
    rfl
  have hfunc : (f.func time).run p = .ok ((.remove, []), p) := by
    cases f with
    | timerIntrCb => exact hrun _ _ _
    | timer0ClkIncrCb => exact hclk (hrun _ _ _)
    | timer16ClkIncrCb => exact hclk (hrun _ _ _)
    | spiIntrCb => exact hrun _ _ _
    | spiClkIncrCb => exact hclk (hrun _ _ _)
    | uartIntrCb => exact hrun _ _ _
    | uartClkIncrCb => exact hclk ((run_bind_of_ok rfl).trans (hrun _ _ _))
    | adcIntrCb => exact hrun _ _ _
    | adcClkIncrCb => exact hclk (hrun _ _ _)
    | wdtcrTimerCb => exact hrun _ _ _
    | wdtcrToeClrCb => exact hclk (hrun _ _ _)
    | eepromWrOpCb | eepromMweClrCb => exact absurd rfl hf
  rw [callbackExecute, run_bind_of_ok hfunc]
  rfl

/-- In every run from empty lists, at most one callback of each function is live in every state exactly
if no event installs a callback beside one of the same function.  A callback that is not live does
nothing but ask for its removal. -/
theorem one_live_callback
    {p q : Peripherals} {taken : List (Peripherals × IoEvent)} (hclk : p.cbs.clkCb = [])
    (hasync : p.cbs.asyncCb = []) (hpath : Path IoStep p taken q) :
  (((∀ x ∈ taken, OneLiveEach x.1) ∧ OneLiveEach q) ↔ ∀ x ∈ taken, x.2.InstallsFirst x.1)
    ∧ ∀ f : CallBackFP, f.owner ≠ .eeprom → ∀ s : Peripherals, s.cbs.held f = false →
      ∀ time, (callbackExecute time f).run s = .ok ((true, []), s)
  := by
  constructor
  · apply hpath.invariant_iff (J := fun _ => True) (fun _ _ _ _ _ => trivial)
    · exact fun s e t _ hs hstep => hstep.oneLiveEach_iff hs
    · trivial
    · intro f _
      apply OneLive.of_listed
      rw [CallBacks.live, CallBacks.copies, hclk, hasync]
      split <;> apply Nat.zero_le
  · exact fun f hf s hheld time => callbackExecute_of_not_held hf hheld time

/-- Two writes to SPCR with SPE set, a clock and a pass apart, leave two live callbacks. -/
theorem one_live_callback_fails :
  ¬ ∀ (p q : Peripherals) taken, p.cbs.clkCb = [] → p.cbs.asyncCb = [] → Path IoStep p taken q →
    (∀ x ∈ taken, OneLiveEach x.1) ∧ OneLiveEach q
  := by
  intro h
  have hruns : (exec IoEvent.next (fun _ _ => true)
      [.write 0x2d 0x40, .tick 1, .async, .write 0x2d 0x40] spiPeripherals).map
        (fun q => q.cbs.live .spiIntrCb) = some 2 := by decide +kernel
  obtain ⟨q, hq, hlive⟩ := Option.map_eq_some_iff.mp hruns
  obtain ⟨taken, hpath, -⟩ := exec_path IoStep.of_next hq
  have hone := ((h spiPeripherals q taken rfl rfl hpath).2 .spiIntrCb nofun).listed
  rw [hlive] at hone
  contradiction

/-- A write to SPCR with SPE set, a clock and a pass. -/
theorem one_live_callback_spi :
  ∃ q, exec IoEvent.next (fun _ _ => true) [.write 0x2d 0x40, .tick 1, .async] spiPeripherals = some q
    ∧ q.cbs.live .spiIntrCb = 1 ∧ OneLiveEach q
  := by
  have hruns : (exec IoEvent.next (fun _ _ => true)
      [.write 0x2d 0x40, .tick 1, .async] spiPeripherals).map (fun q => q.cbs.live .spiIntrCb)
        = some 1 := by decide +kernel
  obtain ⟨q, hq, hlive⟩ := Option.map_eq_some_iff.mp hruns
  obtain ⟨taken, hpath, hevents, -⟩ := exec_path_events IoStep.of_next hq
  use q, hq, hlive
  apply ((one_live_callback rfl rfl hpath).1.mpr _).2
  obtain ⟨⟨s, _⟩, after, rfl, rfl, hafter⟩ := List.map_eq_cons_iff.mp hevents
  obtain rfl : s = spiPeripherals := by
    cases hpath
    rfl
  rw [List.forall_mem_cons]
  constructor
  · intro d hat r hr
    obtain rfl := Option.some.inj hat
    exact fun _ => rfl
  · rintro ⟨s, e⟩ hx
    have he := List.mem_map_of_mem (f := Prod.snd) hx
    rw [hafter, List.mem_cons, List.mem_singleton] at he
    rcases he with rfl | rfl <;> trivial

end SimulAvr
