import SimulAvr.Peripherals.Dispatch

/-!
# The flags of timer/counter 1

A tick increments TCNT1, and sets TOV1 where it wraps.  The comparison with the output compare
registers never runs: no function links them to the timer, so that OCF1A and OCF1B stay clear, and
the flags are those of the data sheet exactly if no tick increments TCNT1 to an output compare
register.
-/

namespace SimulAvr

open Program CallbackList Transition

/-! ### The output compare registers are not linked -/

/-- The output compare registers are not linked, and the flags of the matches are clear. -/
structure Timer1Unlinked (p : Peripherals) : Prop where
  ocra : p.timer16.ocra = none
  ocrb : p.timer16.ocrb = none
  flagA : p.timerIntr.tifr &&& maskOCF1A = 0
  flagB : p.timerIntr.tifr &&& maskOCF1B = 0

/-- The program keeps the output compare registers unlinked. -/
abbrev KeepsUnlinked {α : Type} (x : DevM α) : Prop :=
  Keeps Timer1Unlinked (fun _ => True) x

/-- Devices other than the timer and the timer interrupts -/
theorem Change.unlinked
    {S : List IoVDev} {f : Peripherals → Peripherals} (h : Change S f) (hintr : .timerIntr ∉ S)
    (htimer : .timer16 ∉ S) {p : Peripherals} (hp : Timer1Unlinked p) :
  Timer1Unlinked (f p)
  := by
  have hintr' : (f p).timerIntr = p.timerIntr := h.regs_eq (d := .timerIntr) hintr p
  have htimer' : (f p).timer16 = p.timer16 := h.regs_eq (d := .timer16) htimer p
  constructor
  · rw [htimer']
    exact hp.ocra
  · rw [htimer']
    exact hp.ocrb
  · rw [hintr']
    exact hp.flagA
  · rw [hintr']
    exact hp.flagB

theorem Touches.keepsUnlinked
    {S : List IoVDev} {α : Type} {x : DevM α} (h : Touches S x) (hintr : .timerIntr ∉ S)
    (htimer : .timer16 ∉ S) :
  KeepsUnlinked x
  := h.keeps fun _ _ hf hp => hf.unlinked hintr htimer hp

/-- A change of the timer that leaves the links -/
theorem setTimer16_unlinked
    {f : Timer16 → Timer16} (hocra : ∀ t, (f t).ocra = t.ocra) (hocrb : ∀ t, (f t).ocrb = t.ocrb) :
  KeepsUnlinked (setTimer16 f)
  := fun _ hp => ⟨(hocra _).trans hp.ocra, (hocrb _).trans hp.ocrb, hp.flagA, hp.flagB⟩

/-- A change of the timer interrupts that sets neither flag -/
theorem setTimerIntr_unlinked
    {f : TimerIntr → TimerIntr}
    (h : ∀ mask ∈ [maskOCF1A, maskOCF1B], ∀ ti, ti.tifr &&& mask = 0 → (f ti).tifr &&& mask = 0) :
  KeepsUnlinked (setTimerIntr f)
  := fun _ hp => ⟨hp.ocra, hp.ocrb, h _ (.head _) _ hp.flagA, h _ (.tail _ (.head _)) _ hp.flagB⟩

/-- Flags that are cleared -/
theorem and_not_eq_zero
    {x other mask : Byte} (h : x &&& mask = 0) :
  (x &&& ~~~other) &&& mask = 0
  := by
  rw [BitVec.and_assoc, BitVec.and_comm _ mask, ← BitVec.and_assoc, h]
  exact BitVec.zero_and

/-- A flag other than those of the matches -/
theorem or_and_eq_zero
    {x other mask : Byte} (hother : other &&& mask = 0) (h : x &&& mask = 0) :
  (x ||| other) &&& mask = 0
  := by
  rw [BitVec.and_or_distrib_right, h, hother]
  rfl

/-- `timer_intr_set_flag`, for the overflows -/
theorem timerIntrSetFlag_unlinked
    {bit : Byte} (h : ∀ mask ∈ [maskOCF1A, maskOCF1B], bit &&& mask = 0) :
  KeepsUnlinked (timerIntrSetFlag bit)
  := setTimerIntr_unlinked fun mask hmask _ hti => or_and_eq_zero (h mask hmask) hti

/-- A read of the peripherals, and the rest of the program -/
theorem keepsUnlinked_get
    {α β : Type} {f : Peripherals → α} {g : α → DevM β} (h : ∀ a, KeepsUnlinked (g a)) :
  KeepsUnlinked (getDev f >>= g)
  := fun p hp => h (f p) p hp

/-- A conditional change -/
theorem keepsUnlinked_devIf
    {c : Prop} [Decidable c] {x : DevM Unit} (hx : KeepsUnlinked x) :
  KeepsUnlinked (devIf c x)
  := Triple.ite (fun _ => hx) fun _ => Triple.pure fun _ hp => hp

theorem timerIntrWrite_unlinked
    (addr : Int) (val : Byte) :
  KeepsUnlinked (timerIntrWrite addr val)
  := keepsUnlinked_get fun _ => Triple.ite (fun _ => Triple.bind
    (setTimerIntr_unlinked fun _ _ _ h => h) fun _ =>
      Triple.ite (fun _ _ hp => ⟨hp.ocra, hp.ocrb, hp.flagA, hp.flagB⟩)
        fun _ _ hp => ⟨hp.ocra, hp.ocrb, hp.flagA, hp.flagB⟩)
    fun _ => Triple.ite (fun _ => setTimerIntr_unlinked fun _ _ _ h => and_not_eq_zero h)
      fun _ => Triple.throw trivial

theorem timer16HandleTccrWrite_unlinked :
  KeepsUnlinked timer16HandleTccrWrite
  := by
  apply keepsUnlinked_get
  intro timer
  apply Triple.bind (Q := fun _ => Timer1Unlinked)
  · apply (liftDevError_touches (S := []) _).keepsUnlinked <;> nofun
  · intro divisor
    cases divisor with
    | none =>
      apply Triple.bind (Q := fun _ => Timer1Unlinked)
      · exact fun _ hp => ⟨hp.ocra, hp.ocrb, hp.flagA, hp.flagB⟩
      · exact fun _ => setTimer16_unlinked (fun _ => rfl) fun _ => rfl
    | some divisor =>
      apply Triple.bind (Q := fun _ => Timer1Unlinked)
      · exact setTimer16_unlinked (fun _ => rfl) fun _ => rfl
      · exact fun _ _ hp => ⟨hp.ocra, hp.ocrb, hp.flagA, hp.flagB⟩

theorem timer16Write_unlinked
    (addr : Int) (val : Byte) :
  KeepsUnlinked (timer16Write addr val)
  := by
  have htccr {f : Timer16 → Timer16} (hocra : ∀ t, (f t).ocra = t.ocra)
      (hocrb : ∀ t, (f t).ocrb = t.ocrb) :
      KeepsUnlinked (do setTimer16 f; timer16HandleTccrWrite) :=
    Triple.bind (setTimer16_unlinked hocra hocrb) fun _ => timer16HandleTccrWrite_unlinked
  exact keepsUnlinked_get fun _ =>
    Triple.ite (fun _ => setTimer16_unlinked (fun _ => rfl) fun _ => rfl) fun _ =>
    Triple.ite (fun _ => setTimer16_unlinked (fun _ => rfl) fun _ => rfl) fun _ =>
    Triple.ite (fun _ => htccr (fun _ => rfl) fun _ => rfl) fun _ =>
    Triple.ite (fun _ => htccr (fun _ => rfl) fun _ => rfl) fun _ =>
    Triple.ite (fun _ => htccr (fun _ => rfl) fun _ => rfl) fun _ => Triple.throw trivial

theorem timer16Read_unlinked
    (addr : Int) :
  KeepsUnlinked (timer16Read addr)
  := keepsUnlinked_get fun _ => Triple.ite
    (fun _ => Triple.bind (setTimer16_unlinked (fun _ => rfl) fun _ => rfl) fun _ =>
      Triple.pure fun _ hp => hp)
    fun _ => Triple.ite (fun _ => Triple.pure fun _ hp => hp) fun _ =>
    Triple.ite (fun _ => Triple.pure fun _ hp => hp) fun _ =>
    Triple.ite (fun _ => Triple.pure fun _ hp => hp) fun _ =>
    Triple.ite (fun _ => Triple.pure fun _ hp => hp) fun _ => Triple.throw trivial

/-- An interrupt that is raised clears its flag. -/
theorem timerIntrRaise_unlinked
    (vect : IntVectTable) (mask : Byte) :
  KeepsUnlinked (timerIntrRaise vect mask)
  := Triple.bind (setTimerIntr_unlinked fun _ _ _ h => and_not_eq_zero h) fun _ =>
    Triple.pure fun _ hp => hp

theorem timerIntrCb_unlinked :
  KeepsUnlinked timerIntrCb
  := keepsUnlinked_get fun _ => keepsUnlinked_get fun _ =>
    Triple.ite (fun _ => Triple.pure fun _ hp => hp) fun _ =>
    Triple.ite (fun _ => Triple.pure fun _ hp => hp) fun _ =>
    Triple.ite (fun _ => timerIntrRaise_unlinked _ _) fun _ =>
    Triple.ite (fun _ => timerIntrRaise_unlinked _ _) fun _ =>
    Triple.ite (fun _ => timerIntrRaise_unlinked _ _) fun _ =>
    Triple.ite (fun _ => timerIntrRaise_unlinked _ _) fun _ =>
    Triple.ite (fun _ => timerIntrRaise_unlinked _ _) fun _ => Triple.throw trivial

theorem timer0ClkIncrCb_unlinked
    (ck : Nat) :
  KeepsUnlinked (timer0ClkIncrCb ck)
  := keepsUnlinked_get fun _ => keepsUnlinked_get fun _ =>
    Triple.ite (fun _ => Triple.pure fun _ hp => hp) fun _ =>
    Triple.ite (fun _ => Triple.throw trivial) fun _ =>
    Triple.bind (Q := fun _ => Timer1Unlinked)
      (fun _ hp => ⟨hp.ocra, hp.ocrb, hp.flagA, hp.flagB⟩) fun _ =>
    Triple.bind (keepsUnlinked_devIf (timerIntrSetFlag_unlinked (by decide))) fun _ =>
    Triple.pure fun _ hp => hp

/-- A comparison with a register that is not linked -/
theorem timer16Compare_none
    {P : Peripherals → Prop} (tcnt : Word) (mask : Byte) :
  Keeps P (fun _ => True) (timer16Compare none tcnt mask)
  := fun _ hp => hp

theorem timer16Flags_unlinked
    {timer : Timer16} (hocra : timer.ocra = none) (hocrb : timer.ocrb = none) (tcnt : Word) :
  KeepsUnlinked (timer16Flags timer tcnt)
  := by
  rw [timer16Flags, hocra, hocrb]
  exact Triple.bind (keepsUnlinked_devIf (timerIntrSetFlag_unlinked (by decide))) fun _ =>
    Triple.bind (timer16Compare_none _ _) fun _ => timer16Compare_none _ _

theorem timer16ClkIncrCb_unlinked
    (ck : Nat) :
  KeepsUnlinked (timer16ClkIncrCb ck)
  := by
  intro p hp
  have hocra := hp.ocra
  have hocrb := hp.ocrb
  rw [timer16ClkIncrCb, run_bind_of_ok rfl]
  generalize p.timer16 = timer at hocra hocrb ⊢
  revert p
  change KeepsUnlinked _
  exact keepsUnlinked_get fun _ => Triple.ite (fun _ => Triple.pure fun _ hp => hp) fun _ =>
    Triple.bind (setTimer16_unlinked (fun _ => rfl) fun _ => rfl) fun _ =>
    Triple.ite (fun _ => Triple.throw trivial) fun _ =>
    Triple.bind (keepsUnlinked_devIf (timer16Flags_unlinked hocra hocrb _)) fun _ =>
    Triple.pure fun _ hp => hp

theorem callback_unlinked
    (time : Nat) (f : CallBackFP) :
  KeepsUnlinked (callbackExecute time f)
  := by
  have hclk {x : DevM CbRet} (hx : KeepsUnlinked x) : KeepsUnlinked (clkCallback x) :=
    Triple.bind hx fun _ => Triple.pure fun _ hp => hp
  cases f with
  | timerIntrCb => exact Triple.bind timerIntrCb_unlinked fun _ => Triple.pure fun _ hp => hp
  | timer0ClkIncrCb =>
    exact Triple.bind (hclk (timer0ClkIncrCb_unlinked time)) fun _ => Triple.pure fun _ hp => hp
  | timer16ClkIncrCb =>
    exact Triple.bind (hclk (timer16ClkIncrCb_unlinked time)) fun _ => Triple.pure fun _ hp => hp
  | _ =>
    apply (callbackExecute_touches time _).keepsUnlinked <;>
      simp [CallBackFP.reach, CallBackFP.owner]

/-- A step keeps the output compare registers unlinked. -/
theorem IoStep.unlinked
    {e : IoEvent} {p q : Peripherals} (hstep : IoStep e p q) (hp : Timer1Unlinked p) :
  Timer1Unlinked q
  := by
  cases e with
  | tick ck =>
    exact (hstep.tick_keeps (fun _ _ h => ⟨h.ocra, h.ocrb, h.flagA, h.flagB⟩)
      (fun f _ => callback_unlinked ck f) hp).1
  | async =>
    exact (hstep.async_keeps (fun _ _ h => ⟨h.ocra, h.ocrb, h.flagA, h.flagB⟩)
      (fun _ _ h => ⟨h.ocra, h.ocrb, h.flagA, h.flagB⟩) (fun time f _ => callback_unlinked time f) hp).1
  | _ =>
    apply hstep.access_keeps rfl _ _ _ _ hp
    · exact fun _ _ h => ⟨h.ocra, h.ocrb, h.flagA, h.flagB⟩
    · intro addr d _ _
      by_cases hd : d = .timer16
      · rw [hd]
        exact timer16Read_unlinked addr
      · apply (d.read_touches addr).keepsUnlinked <;> cases d <;> simp_all [IoVDev.readReach]
    · intro addr val d _ _
      by_cases hd : d = .timer16
      · rw [hd]
        exact timer16Write_unlinked addr val
      by_cases hintr : d = .timerIntr
      · rw [hintr]
        exact timerIntrWrite_unlinked addr val
      · apply (d.write_touches addr val).keepsUnlinked <;> cases d <;> simp_all [IoVDev.reach]
    · intro addr d _ _ p hp
      by_cases hd : d = .timer16
      · rw [hd]
        exact ⟨hp.ocra, hp.ocrb, hp.flagA, hp.flagB⟩
      by_cases hintr : d = .timerIntr
      · rw [hintr]
        exact ⟨hp.ocra, hp.ocrb, BitVec.zero_and, BitVec.zero_and⟩
      · apply d.reset_change.unlinked _ _ hp <;> cases d <;> simp_all [IoVDev.reach]

/-! ### A tick -/

/-- What the callback of the timer changes: the timer and the flag of the overflow, where the
callback is held -/
def timer1Part (p : Peripherals) : Timer16 × Byte × Bool :=
  (p.timer16, p.timerIntr.tifr &&& maskTOV1, p.cbs.held .timer16ClkIncrCb)

/-- One run of the callback -/
def timer1Ticked (ck : Nat) (s : Timer16 × Byte × Bool) : Timer16 × Byte × Bool :=
  if s.2.2 = true ∧ isMultipleOf ck s.1.divisor = true then
    ({ s.1 with tcnt := s.1.tcnt + 1 }, if s.1.tcnt + 1 = 0 then maskTOV1 else s.2.1, s.2.2)
  else s

/-- The flag of the overflow is set. -/
theorem or_tov1
    (x : Byte) :
  (x ||| maskTOV1) &&& maskTOV1 = maskTOV1
  := by
  revert x
  decide

theorem add_one_ne_self
    (x : Word) :
  x + 1 ≠ x
  := by
  intro h
  have h' := congrArg (· - x) h
  simp only [BitVec.sub_self, BitVec.add_comm x 1, BitVec.add_sub_cancel] at h'
  contradiction

theorem timer16Flags_run
    {timer : Timer16} (hocra : timer.ocra = none) (hocrb : timer.ocrb = none) (tcnt : Word)
    (s : Peripherals) :
  (timer16Flags timer tcnt).run s = .ok ((), if tcnt = 0 then
    { s with timerIntr := { s.timerIntr with tifr := s.timerIntr.tifr ||| maskTOV1 } } else s)
  := by
  rw [timer16Flags, hocra, hocrb]
  by_cases hzero : tcnt = 0
  · rw [devIf, if_pos hzero, if_pos hzero]
    rfl
  · rw [devIf, if_neg hzero, if_neg hzero]
    rfl

theorem timer16ClkIncrCb_ticked
    (ck : Nat) (b : Timer16 × Byte × Bool) :
  Triple (fun s => Timer1Unlinked s ∧ timer1Part s = b) (callbackExecute ck .timer16ClkIncrCb)
    (fun _ s => Timer1Unlinked s ∧ timer1Part s = timer1Ticked ck b) (fun _ => True)
  := by
  have hpart : Triple (fun s => Timer1Unlinked s ∧ timer1Part s = b)
      (callbackExecute ck .timer16ClkIncrCb) (fun _ s => timer1Part s = timer1Ticked ck b)
      (fun _ => True) := by
    apply callbackExecute_clk (Q := fun _ s => timer1Part s = timer1Ticked ck b) rfl
    rintro s ⟨hs, rfl⟩
    rw [timer16ClkIncrCb, run_bind_of_ok rfl, run_bind_of_ok rfl]
    by_cases hheld : s.cbs.held .timer16ClkIncrCb = true
    · rw [if_neg (not_not.mpr hheld), run_bind_of_ok rfl]
      by_cases hdivisor : s.timer16.divisor ≤ 0
      · rw [if_pos hdivisor]
        trivial
      rw [if_neg hdivisor]
      by_cases hmult : isMultipleOf ck s.timer16.divisor = true
      · have hticked : timer1Ticked ck (timer1Part s)
            = ({ s.timer16 with tcnt := s.timer16.tcnt + 1 }, if s.timer16.tcnt + 1 = 0 then maskTOV1
              else s.timerIntr.tifr &&& maskTOV1, s.cbs.held .timer16ClkIncrCb) :=
          if_pos ⟨hheld, hmult⟩
        rw [if_pos hmult, devIf, if_pos (add_one_ne_self _), hticked]
        by_cases hzero : s.timer16.tcnt + 1 = 0
        · rw [run_bind_of_ok ((timer16Flags_run hs.ocra hs.ocrb _ _).trans (by rw [if_pos hzero])),
            if_pos hzero]
          exact Prod.ext rfl (Prod.ext (or_tov1 s.timerIntr.tifr) rfl)
        · rw [run_bind_of_ok ((timer16Flags_run hs.ocra hs.ocrb _ _).trans (by rw [if_neg hzero])),
            if_neg hzero]
          rfl
      · rw [if_neg hmult, devIf, if_neg (not_not.mpr rfl), run_bind_of_ok rfl, timer1Ticked,
          if_neg fun h => hmult h.2]
        rfl
    · rw [if_pos hheld, timer1Ticked, if_neg fun h => hheld h.1]
      rfl
  exact ((callback_unlinked ck .timer16ClkIncrCb).and hpart).conseq
    (fun _ hs => ⟨hs.1, hs⟩) (fun _ _ hs => hs) fun _ he => he

/-- The other callbacks of the clock leave the timer and the flag. -/
theorem callback_timer1Part
    {g : CallBackFP} (hclk : g.isClk = true) (hg : g ≠ .timer16ClkIncrCb) (ck : Nat) :
  Leaves timer1Part (callbackExecute ck g)
  := by
  by_cases htimer0 : g = .timer0ClkIncrCb
  · subst htimer0
    have hflag : Leaves timer1Part (timerIntrSetFlag maskTOV0) := .set fun p => by
      have hbit : (p.timerIntr.tifr ||| maskTOV0) &&& maskTOV1 = p.timerIntr.tifr &&& maskTOV1 := by
        rw [BitVec.and_or_distrib_right]
        exact BitVec.or_zero
      exact congrArg (fun x : Byte => (p.timer16, x, p.cbs.held CallBackFP.timer16ClkIncrCb)) hbit
    exact .bind (.bind (.get fun _ => .get fun _ => .ite (.pure _) (.ite (.error _ _)
      (.bind (.set fun _ => rfl) fun _ => .bind (.devIf hflag) fun _ => .pure _))) fun _ => .pure _)
      fun _ => .pure _
  · apply Leaves.of_touches (callbackExecute_touches ck g)
    intro f p hf
    have hreach : .timer16 ∉ g.reach ∧ .timerIntr ∉ g.reach := by
      cases g <;> first | contradiction | simp [CallBackFP.reach, CallBackFP.owner]
    have htimer : (f p).timer16 = p.timer16 := hf.regs_eq (d := .timer16) hreach.1 p
    have hintr : (f p).timerIntr = p.timerIntr := hf.regs_eq (d := .timerIntr) hreach.2 p
    have hheld : (f p).cbs.held .timer16ClkIncrCb = p.cbs.held .timer16ClkIncrCb :=
      congrArg Prod.fst (hf.view (g := .timer16ClkIncrCb) hreach.1 p)
    rw [timer1Part, htimer, hintr, hheld]
    rfl

/-- The increments of TCNT1 by a tick -/
def timer1Increments (ck : Nat) (p : Peripherals) : Nat :=
  if p.cbs.held .timer16ClkIncrCb = true ∧ isMultipleOf ck p.timer16.divisor = true then
    p.cbs.clkCb.count .timer16ClkIncrCb
  else 0

/-- A tick increments TCNT1 to a value. -/
def Timer1Reaches (ck : Nat) (p : Peripherals) (val : Word) : Prop :=
  ∃ i < timer1Increments ck p, p.timer16.tcnt + BitVec.ofNat 16 (i + 1) = val

instance (ck : Nat) (p : Peripherals) (val : Word) : Decidable (Timer1Reaches ck p val) :=
  inferInstanceAs (Decidable (∃ i < _, _ = _))

theorem word_add_ofNat_succ
    (x : Word) (n : Nat) :
  x + BitVec.ofNat 16 n + 1 = x + BitVec.ofNat 16 (n + 1)
  := by
  rw [BitVec.add_assoc, BitVec.ofNat_add]
  rfl

/-- Runs of the callback, where the clock is a multiple of the divisor -/
theorem timer1Ticked_iterate
    {ck : Nat} {timer : Timer16} (hmult : isMultipleOf ck timer.divisor = true) (tov : Byte) (n : Nat) :
  (timer1Ticked ck)^[n] (timer, tov, true)
    = ({ timer with tcnt := timer.tcnt + BitVec.ofNat 16 n },
        if ∃ i < n, timer.tcnt + BitVec.ofNat 16 (i + 1) = 0 then maskTOV1 else tov, true)
  := by
  induction n with
  | zero =>
    rw [if_neg (by simp)]
    simp
  | succ n ih =>
    rw [Function.iterate_succ_apply', ih, timer1Ticked, if_pos ⟨rfl, hmult⟩, word_add_ofNat_succ]
    refine Prod.ext (by rfl) (Prod.ext ?_ (by rfl))
    change (if _ then _ else if _ then _ else _) = if ∃ i < n + 1, _ then _ else _
    simp only [Nat.exists_lt_succ_right]
    by_cases hzero : timer.tcnt + BitVec.ofNat 16 (n + 1) = 0
    · rw [if_pos hzero, if_pos (.inr hzero)]
    · rw [if_neg hzero]
      simp only [hzero, or_false]

/-- Runs of the callback, where the clock is no multiple of the divisor or the callback is not held -/
theorem timer1Ticked_fixed
    {ck : Nat} {s : Timer16 × Byte × Bool}
    (h : ¬ (s.2.2 = true ∧ isMultipleOf ck s.1.divisor = true)) (n : Nat) :
  (timer1Ticked ck)^[n] s = s
  := by
  have hfixed : timer1Ticked ck s = s := if_neg h
  exact Function.iterate_fixed hfixed n

/-- A tick increments TCNT1, and sets TOV1 where it wraps. -/
theorem IoStep.timer1_tick
    {ck : Nat} {p q : Peripherals} (hstep : IoStep (.tick ck) p q) (hp : Timer1Unlinked p)
    (hsep : p.cbs.Separate) :
  q.timer16.tcnt = p.timer16.tcnt + BitVec.ofNat 16 (timer1Increments ck p)
    ∧ q.timerIntr.tifr &&& maskTOV1
      = if Timer1Reaches ck p 0 then maskTOV1 else p.timerIntr.tifr &&& maskTOV1
  := by
  obtain ⟨r, s, hpass, rfl⟩ := hstep.tick_pass
  have hothers : ∀ b, ∀ g ∈ p.cbs.clkCb, g ≠ .timer16ClkIncrCb →
      Keeps (fun s => Timer1Unlinked s ∧ timer1Part s = b) (fun _ => True) (callbackExecute ck g) :=
    fun b g hg hne => (callback_unlinked ck g).and (callback_timer1Part (hsep.clk g hg) hne ck b)
  have hpart : timer1Part s = _ := ((pass_iterate hothers (timer16ClkIncrCb_ticked ck)
    (timer1Part p)).of_ok ⟨hp, rfl⟩ hpass).2
  have htcnt : s.timer16.tcnt = (timer1Part s).1.tcnt := rfl
  have htov : s.timerIntr.tifr &&& maskTOV1 = (timer1Part s).2.1 := rfl
  change s.timer16.tcnt = _ ∧ s.timerIntr.tifr &&& maskTOV1 = _
  rw [htcnt, htov, hpart]
  by_cases hlive : p.cbs.held .timer16ClkIncrCb = true ∧ isMultipleOf ck p.timer16.divisor = true
  · have hstart : timer1Part p = (p.timer16, p.timerIntr.tifr &&& maskTOV1, true) := by
      rw [timer1Part, hlive.1]
    rw [hstart, timer1Ticked_iterate hlive.2]
    simp only [Timer1Reaches, timer1Increments, if_pos hlive, and_self]
  · have hzero : timer1Increments ck p = 0 := if_neg hlive
    have hnone : ¬ Timer1Reaches ck p 0 := by
      rintro ⟨i, hi, -⟩
      omega
    rw [timer1Ticked_fixed hlive, hzero, if_neg hnone]
    exact ⟨(BitVec.add_zero _).symm, rfl⟩

/-! ### The law of the flags -/

/-- A step sets a flag if `c`, and sets it otherwise in no case. -/
def SetsFlag (mask : Byte) (c : Prop) (p q : Peripherals) : Prop :=
  (c → q.timerIntr.tifr &&& mask ≠ 0)
    ∧ (q.timerIntr.tifr &&& mask ≠ 0 → c ∨ p.timerIntr.tifr &&& mask ≠ 0)

/-- The law of a tick: it sets OCF1A and OCF1B where it increments TCNT1 to the output compare
registers, and TOV1 where TCNT1 wraps. -/
def Timer1Law (a b : Nat) (p : Peripherals) (e : IoEvent) : Prop :=
  ∀ ck q, e = .tick ck → IoStep (.tick ck) p q →
    SetsFlag maskTOV1 (Timer1Reaches ck p 0) p q
      ∧ SetsFlag maskOCF1A (Timer1Reaches ck p (p.ocreg16 a).ocr) p q
      ∧ SetsFlag maskOCF1B (Timer1Reaches ck p (p.ocreg16 b).ocr) p q

/-- The event is no tick that increments TCNT1 to an output compare register. -/
def Timer1Fits (a b : Nat) (p : Peripherals) (e : IoEvent) : Prop :=
  ∀ ck, e = .tick ck → ¬ Timer1Reaches ck p (p.ocreg16 a).ocr ∧ ¬ Timer1Reaches ck p (p.ocreg16 b).ocr

/-- The timer as constructed -/
structure Timer1New (p : Peripherals) : Prop where
  unlinked : Timer1Unlinked p
  separate : p.cbs.Separate

section

variable {a b : Nat} {e : IoEvent} {p q : Peripherals}

/-- A flag that stays clear -/
theorem setsFlag_iff_of_clear
    {mask : Byte} {c : Prop} (hq : q.timerIntr.tifr &&& mask = 0) :
  SetsFlag mask c p q ↔ ¬ c
  := by
  constructor
  · intro h hc
    exact h.1 hc hq
  · intro hc
    exact ⟨fun h => absurd h hc, fun h => absurd hq h⟩

/-- A tick sets TOV1 where TCNT1 wraps, in every run. -/
theorem IoStep.setsFlag_tov1
    {ck : Nat} (hstep : IoStep (.tick ck) p q) (hp : Timer1Unlinked p) (hsep : p.cbs.Separate) :
  SetsFlag maskTOV1 (Timer1Reaches ck p 0) p q
  := by
  obtain ⟨-, htov⟩ := hstep.timer1_tick hp hsep
  rw [SetsFlag, htov]
  by_cases hreaches : Timer1Reaches ck p 0
  · rw [if_pos hreaches]
    exact ⟨fun _ => by decide, fun _ => .inl hreaches⟩
  · rw [if_neg hreaches]
    exact ⟨fun h => absurd h hreaches, fun h => .inr h⟩

/-- The law holds of a step exactly if no output compare register is reached. -/
theorem timer1Law_iff
    (hp : Timer1Unlinked p) (hsep : p.cbs.Separate) (hstep : IoStep e p q) :
  Timer1Law a b p e ↔ Timer1Fits a b p e
  := by
  constructor
  · rintro h ck rfl
    obtain ⟨-, hA, hB⟩ := h ck q rfl hstep
    have hq := hstep.unlinked hp
    exact ⟨(setsFlag_iff_of_clear hq.flagA).mp hA,
      (setsFlag_iff_of_clear hq.flagB).mp hB⟩
  · rintro h ck r rfl hstep
    obtain ⟨hA, hB⟩ := h ck rfl
    have hr := hstep.unlinked hp
    exact ⟨hstep.setsFlag_tov1 hp hsep, (setsFlag_iff_of_clear hr.flagA).mpr hA,
      (setsFlag_iff_of_clear hr.flagB).mpr hB⟩

end

/-! ### The output compare registers -/

/-- What an event writes to an output compare register: the upper byte is that of TEMP. -/
def ocrWritten (n : Nat) (p : Peripherals) : IoEvent → Option Word
  | .write addr val =>
    if p.vdevAt addr = some (.ocreg16 n) ∧ addr = (p.ocreg16 n).ocrlAddr then
      some ((p.ocreg16 n).temp ++ val)
    else none
  | .reset addr => if p.vdevAt addr = some (.ocreg16 n) then some 0 else none
  | _ => none

/-- What an event writes to TEMP -/
def tempWritten (n : Nat) (p : Peripherals) : IoEvent → Option Byte
  | .write addr val =>
    if p.vdevAt addr = some (.ocreg16 n) ∧ addr ≠ (p.ocreg16 n).ocrlAddr then some val else none
  | _ => none

/-- Other devices leave an output compare register. -/
theorem ocreg16_leaves
    {α : Type} {n : Nat} {S : List IoVDev} {x : DevM α} (h : Touches S x) (hn : .ocreg16 n ∉ S) :
  Leaves (fun p => p.ocreg16 n) x
  := .of_touches h fun _ p hf => hf.regs_eq (d := .ocreg16 n) hn p

/-- A step changes an output compare register and its TEMP by what it writes. -/
theorem IoStep.ocreg16
    {e : IoEvent} {p q : Peripherals} (n : Nat) (hstep : IoStep e p q) :
  (q.ocreg16 n).ocr = (ocrWritten n p e).getD (p.ocreg16 n).ocr
    ∧ (q.ocreg16 n).temp = (tempWritten n p e).getD (p.ocreg16 n).temp
  := by
  have hcallback (time : Nat) (f : CallBackFP) :
      Leaves (fun p => p.ocreg16 n) (callbackExecute time f) := by
    apply ocreg16_leaves (callbackExecute_touches time f)
    cases f <;> simp [CallBackFP.reach, CallBackFP.owner]
  have hread (addr : Int) (d : IoVDev) : Leaves (fun p => p.ocreg16 n) (d.read addr) := by
    apply ocreg16_leaves (d.read_touches addr)
    cases d <;> simp [IoVDev.readReach]
  have hwrite (addr : Int) (val : Byte) (d : IoVDev) (hd : d ≠ .ocreg16 n) :
      Leaves (fun p => p.ocreg16 n) (d.write addr val) := by
    apply ocreg16_leaves (d.write_touches addr val)
    cases d <;> simp_all [IoVDev.reach, eq_comm]
  have hreset (d : IoVDev) (hd : d ≠ .ocreg16 n) (p : Peripherals) :
      (d.reset p).ocreg16 n = p.ocreg16 n := by
    apply d.reset_change.regs_eq (d := .ocreg16 n)
    cases d <;> simp_all [IoVDev.reach, eq_comm]
  have hsame (hq : q.ocreg16 n = p.ocreg16 n) (hocr : ocrWritten n p e = none)
      (htemp : tempWritten n p e = none) :
      (q.ocreg16 n).ocr = (ocrWritten n p e).getD (p.ocreg16 n).ocr
        ∧ (q.ocreg16 n).temp = (tempWritten n p e).getD (p.ocreg16 n).temp := by
    rw [hq, hocr, htemp]
    exact ⟨rfl, rfl⟩
  cases e with
  | read addr =>
    apply hsame _ rfl rfl
    apply @IoStep.access_leaves _ (fun p => p.ocreg16 n) _ _ _ hstep rfl (fun _ _ => rfl)
      (fun addr d _ _ => hread addr d)
    · intros
      contradiction
    · intros
      contradiction
  | write addr val =>
    by_cases hat : p.vdevAt addr = some (.ocreg16 n)
    · cases hstep with
      | write h =>
        rw [devWrite_at hat, IoVDev.write, ocreg16Write, run_bind_of_ok rfl] at h
        change StateT.run (if addr = (p.ocreg16 n).ocrlAddr then _ else _) _ = _ at h
        rw [ocrWritten, tempWritten]
        by_cases haddr : addr = (p.ocreg16 n).ocrlAddr
        · rw [if_pos haddr] at h
          cases h
          rw [if_pos ⟨hat, haddr⟩, if_neg fun h => h.2 haddr]
          change (Function.update p.ocreg16 n _ n).ocr = _ ∧ (Function.update p.ocreg16 n _ n).temp = _
          rw [Function.update_self]
          exact ⟨rfl, rfl⟩
        · rw [if_neg haddr] at h
          change StateT.run (if addr = (p.ocreg16 n).ocrhAddr then _ else _) _ = _ at h
          split at h
          · cases h
            rw [if_neg fun h => haddr h.2, if_pos ⟨hat, haddr⟩]
            change (Function.update p.ocreg16 n _ n).ocr = _
              ∧ (Function.update p.ocreg16 n _ n).temp = _
            rw [Function.update_self]
            exact ⟨rfl, rfl⟩
          · contradiction
    · apply hsame _ (if_neg fun h => hat h.1) (if_neg fun h => hat h.1)
      apply @IoStep.access_leaves _ (fun p => p.ocreg16 n) _ _ _ hstep rfl (fun _ _ => rfl)
      · intros
        contradiction
      · rintro addr val d he hd
        obtain ⟨rfl, rfl⟩ := IoEvent.write.inj he
        exact hwrite addr val d fun h => hat (h ▸ hd)
      · intros
        contradiction
  | reset addr =>
    by_cases hat : p.vdevAt addr = some (.ocreg16 n)
    · cases hstep with
      | reset =>
        rw [devReset_at hat, ocrWritten, if_pos hat]
        change (Function.update p.ocreg16 n _ n).ocr = _ ∧ (Function.update p.ocreg16 n _ n).temp = _
        rw [Function.update_self]
        exact ⟨rfl, rfl⟩
    · apply hsame _ (if_neg hat) rfl
      apply @IoStep.access_leaves _ (fun p => p.ocreg16 n) _ _ _ hstep rfl (fun _ _ => rfl)
      · intros
        contradiction
      · intros
        contradiction
      · rintro addr d he hd
        obtain rfl := IoEvent.reset.inj he
        exact hreset d fun h => hat (h ▸ hd)
  | tick ck => exact hsame (hstep.tick_leaves (fun _ _ => rfl) fun f _ => hcallback ck f).1 rfl rfl
  | async =>
    exact hsame (hstep.async_leaves (fun _ _ => rfl) (fun _ _ => rfl)
      fun time f _ => hcallback time f).1 rfl rfl

/-- In every run, the law of the flags holds of every step exactly if no tick increments TCNT1 to an
output compare register.  The part of TOV1 holds in every run, and the registers have the values
that have been written to them last. -/
theorem timer1_compare
    {p q : Peripherals} {taken : List (Peripherals × IoEvent)} (a b : Nat) (hnew : Timer1New p)
    (hpath : Path IoStep p taken q) :
  ((∀ x ∈ taken, Timer1Law a b x.1 x.2) ↔ ∀ x ∈ taken, Timer1Fits a b x.1 x.2)
    ∧ (∀ ck r, IoStep (.tick ck) q r →
      r.timer16.tcnt = q.timer16.tcnt + BitVec.ofNat 16 (timer1Increments ck q)
        ∧ SetsFlag maskTOV1 (Timer1Reaches ck q 0) q r)
    ∧ ∀ n, (q.ocreg16 n).ocr = Path.lastGiven (ocrWritten n) taken (p.ocreg16 n).ocr
      ∧ (q.ocreg16 n).temp = Path.lastGiven (tempWritten n) taken (p.ocreg16 n).temp
  := by
  have hinv : ((∀ x ∈ taken, Timer1New x.1) ∧ Timer1New q) ↔ ∀ x ∈ taken, True :=
    Path.invariant_iff (I := Timer1New) (J := fun _ => True) (fun _ _ _ _ _ => trivial)
      (fun s e t _ hs hstep => iff_true_intro ⟨hstep.unlinked hs.unlinked, hstep.separate hs.separate⟩)
      hpath trivial hnew
  obtain ⟨htaken, hq⟩ := hinv.mpr fun _ _ => trivial
  split_ands
  · have hiff : ∀ x ∈ taken, Timer1Law a b x.1 x.2 ↔ Timer1Fits a b x.1 x.2 := by
      intro x hx
      obtain ⟨t, hstep⟩ := hpath.exists_step x hx
      exact timer1Law_iff (htaken x hx).unlinked (htaken x hx).separate hstep
    exact forall₂_congr hiff
  · intro ck r hstep
    exact ⟨(hstep.timer1_tick hq.unlinked hq.separate).1, hstep.setsFlag_tov1 hq.unlinked hq.separate⟩
  · intro n
    have hocr : ∀ s e t, IoStep e s t →
        (t.ocreg16 n).ocr = (ocrWritten n s e).getD (s.ocreg16 n).ocr :=
      fun _ _ _ hstep => (hstep.ocreg16 n).1
    have htemp : ∀ s e t, IoStep e s t →
        (t.ocreg16 n).temp = (tempWritten n s e).getD (s.ocreg16 n).temp :=
      fun _ _ _ hstep => (hstep.ocreg16 n).2
    exact ⟨Path.eq_lastGiven hocr hpath, Path.eq_lastGiven htemp hpath⟩

instance (a b : Nat) (p : Peripherals) : DecidablePred (Timer1Fits a b p)
  | .tick ck =>
    decidable_of_iff (¬ Timer1Reaches ck p (p.ocreg16 a).ocr ∧ ¬ Timer1Reaches ck p (p.ocreg16 b).ocr)
      ⟨fun h _ he => IoEvent.tick.inj he ▸ h, fun h => h ck rfl⟩
  | .read _ | .write _ _ | .reset _ | .async => .isTrue nofun

/-- A timer/counter 1 with its output compare registers -/
def timer1Peripherals : Peripherals :=
  { (default : Peripherals) with
    vdevAt := fun addr =>
      if addr = 0x58 ∨ addr = 0x59 then some .timerIntr
      else if 0x4c ≤ addr ∧ addr ≤ 0x4f then some .timer16
      else if addr = 0x4a ∨ addr = 0x4b then some (.ocreg16 0)
      else if addr = 0x48 ∨ addr = 0x49 then some (.ocreg16 1)
      else none
    timerIntr := { (default : TimerIntr) with tifrAddr := 0x58, timskAddr := 0x59, funcMask := 0xff }
    timer16 := { (default : Timer16) with
      tcntlAddr := 0x4c, tcnthAddr := 0x4d, tccrbAddr := 0x4e, tccraAddr := 0x4f }
    ocreg16 := fun n =>
      { (default : OCReg16) with ocrlAddr := 0x4a - 2 * n, ocrhAddr := 0x4b - 2 * n } }

theorem timer1Peripherals_new :
  Timer1New timer1Peripherals
  := ⟨⟨rfl, rfl, rfl, rfl⟩, List.forall_mem_nil _, List.forall_mem_nil _⟩

/-- TCNT1 is incremented to OCR1A, and OCF1A is not set. -/
theorem timer1_compare_missed :
  ∃ taken q, Path IoStep timer1Peripherals taken q
    ∧ taken.map Prod.snd = [.write 0x4b 0, .write 0x4a 1, .write 0x4e 1]
    ∧ Timer1Reaches 0 q (q.ocreg16 0).ocr ∧ ¬ Timer1Law 0 1 q (.tick 0)
  := by
  have hruns : ((exec IoEvent.next (fun _ _ => true) [.write 0x4b 0, .write 0x4a 1, .write 0x4e 1]
      timer1Peripherals).bind fun q => (IoEvent.next (.tick 0) q).map fun r =>
        (decide (Timer1Reaches 0 q (q.ocreg16 0).ocr), r.timerIntr.tifr)) = some (true, 0) := by
    decide +kernel
  obtain ⟨q, hq, hruns⟩ := Option.bind_eq_some_iff.mp hruns
  obtain ⟨r, hr, hruns⟩ := Option.map_eq_some_iff.mp hruns
  obtain ⟨hreaches, htifr⟩ := Prod.mk.inj hruns
  have hreaches := of_decide_eq_true hreaches
  obtain ⟨taken, hpath, hevents, -⟩ := exec_path_events IoStep.of_next hq
  refine ⟨taken, q, hpath, hevents, hreaches, fun hlaw => ?_⟩
  obtain ⟨-, hA, -⟩ := hlaw 0 r rfl (.of_next _ q r hr)
  apply hA.1 hreaches
  rw [htifr]
  rfl

/-- TCNT1 is counted without a match. -/
theorem timer1_compare_counted :
  ∃ taken q, Path IoStep timer1Peripherals taken q
    ∧ taken.map Prod.snd = [.write 0x49 9, .write 0x48 9, .write 0x4b 0, .write 0x4a 9, .write 0x4e 1,
      .tick 0, .tick 1]
    ∧ ∀ x ∈ taken, Timer1Law 0 1 x.1 x.2
  := by
  obtain ⟨q, hq⟩ := Option.isSome_iff_exists.mp (show (exec IoEvent.next
    (fun p e => decide (Timer1Fits 0 1 p e)) [.write 0x49 9, .write 0x48 9, .write 0x4b 0,
      .write 0x4a 9, .write 0x4e 1, .tick 0, .tick 1] timer1Peripherals).isSome = true by decide +kernel)
  obtain ⟨taken, hpath, hevents, hcheck⟩ := exec_path_events IoStep.of_next hq
  use taken, q, hpath, hevents
  exact (timer1_compare 0 1 timer1Peripherals_new hpath).1.mpr fun x hx => of_decide_eq_true (hcheck x hx)

end SimulAvr
