import Mathlib.Order.Interval.Finset.Nat
import SimulAvr.CorePeripherals

/-!
# Timer/counter 0 counts the clock

A tick of the clock increments TCNT0 where its time is a multiple of the divisor, and sets TOV0 where
TCNT0 wraps; nothing else changes them but accesses of the core and, with the interrupt enabled, the
callback of the timer interrupts.  So over the steps of a core TCNT0 counts the multiples of the
divisor that CK goes through (`timer0_counts_clock`).
-/

namespace SimulAvr

open Program CallbackList Transition

/-- `mask_TOIE0` -/
abbrev maskTOIE0 : Byte := 0x02

/-! ### The counter -/

/-- The registers of the timer, whether it holds its callback, and how often the list of the clock
has it -/
def timer0Live (p : Peripherals) : Timer0 × Bool × Nat :=
  (p.timer0, p.cbs.held .timer0ClkIncrCb, p.cbs.clkCb.count .timer0ClkIncrCb)

/-- The timer has them to itself. -/
theorem timer0Live_part :
  Part .timer0 timer0Live
  where
  change S f p hf hS := by
    have htimer : (f p).timer0 = p.timer0 := hf.regs_eq (d := .timer0) hS p
    have hview : (f p).cbs.view .timer0ClkIncrCb = p.cbs.view .timer0ClkIncrCb :=
      hf.view (g := .timer0ClkIncrCb) hS p
    rw [timer0Live, htimer, show (f p).cbs.held .timer0ClkIncrCb = p.cbs.held .timer0ClkIncrCb from
      congrArg Prod.fst hview]
    rw [show (f p).cbs.clkCb.count .timer0ClkIncrCb = p.cbs.clkCb.count .timer0ClkIncrCb from
      congrArg (fun v => v.2.1) hview]
    rfl
  history _ _ := rfl

/-- The timer counts with a divisor: one callback of it is installed. -/
structure Timer0Runs (d : Nat) (p : Peripherals) : Prop where
  held : p.cbs.held .timer0ClkIncrCb = true
  once : p.cbs.clkCb.count .timer0ClkIncrCb = 1
  separate : p.cbs.Separate
  divisor : p.timer0.divisor = d

theorem Timer0Runs.of_live
    {d : Nat} {p q : Peripherals} (h : Timer0Runs d p) (hlive : timer0Live q = timer0Live p)
    (hsep : q.cbs.Separate) :
  Timer0Runs d q
  := by
  have htimer : q.timer0 = p.timer0 := congrArg Prod.fst hlive
  have hcb : (q.cbs.held .timer0ClkIncrCb, q.cbs.clkCb.count .timer0ClkIncrCb)
      = (p.cbs.held .timer0ClkIncrCb, p.cbs.clkCb.count .timer0ClkIncrCb) := congrArg Prod.snd hlive
  obtain ⟨hheld, hcount⟩ := Prod.mk.inj hcb
  constructor
  · rw [hheld, h.held]
  · rw [hcount, h.once]
  · exact hsep
  · rw [htimer, h.divisor]

/-- The access neither writes to TCCR0 and TCNT0 nor resets them. -/
def DevAccess.SparesCounter (vdevAt : Int → Option IoVDev) : DevAccess → Prop
  | .read _ => True
  | .write addr _ | .reset addr => vdevAt addr ≠ some .timer0

/-- Steps that are no ticks and spare the counter leave the timer. -/
theorem IoStep.timer0_rest
    {d : Nat} {e : IoEvent} {p q : Peripherals} (hstep : IoStep e p q) (he : e.time = none)
    (hspares : ∀ a ∈ e.access, a.SparesCounter p.vdevAt) (hp : Timer0Runs d p) :
  q.timer0 = p.timer0 ∧ Timer0Runs d q
  := by
  have hreach {d : IoVDev} (hd : d ≠ .timer0) : .timer0 ∉ d.reach := by
    cases d <;> first | contradiction | simp [IoVDev.reach]
  have hlive : timer0Live q = timer0Live p := by
    cases e with
    | read addr =>
      cases hstep with
      | read h =>
        apply timer0Live_part.read _ h
        intro d _
        cases d <;> simp [IoVDev.readReach]
    | write addr val =>
      cases hstep with
      | write h =>
        apply timer0Live_part.write _ h
        intro d hat
        apply hreach
        rintro rfl
        exact hspares _ rfl hat
    | reset addr =>
      cases hstep with
      | reset =>
        apply timer0Live_part.reset
        intro d hat
        apply hreach
        rintro rfl
        exact hspares _ rfl hat
    | tick ck => contradiction
    | async =>
      apply (hstep.async_leaves (fun _ _ => rfl) (fun _ _ => rfl) _).1
      intro time f hf
      apply timer0Live_part.keeps _ (callbackExecute_touches time f)
      have hclk := hp.separate.async f hf
      cases f <;> first | contradiction | simp [CallBackFP.reach, CallBackFP.owner]
  exact ⟨congrArg Prod.fst hlive, hp.of_live hlive (hstep.separate hp.separate)⟩

/-! ### Ticks -/

/-- What the callback of the timer changes: the timer and its flag, where the callback is held -/
def timer0Part (p : Peripherals) : Timer0 × Bool × Byte :=
  (p.timer0, p.cbs.held .timer0ClkIncrCb, p.timerIntr.tifr &&& maskTOV0)

/-- One run of the callback -/
def timer0Ticked (ck : Nat) (s : Timer0 × Bool × Byte) : Timer0 × Bool × Byte :=
  if isMultipleOf ck s.1.divisor then
    ({ s.1 with tcnt := s.1.tcnt + 1 }, s.2.1, if s.1.tcnt + 1 = 0 then maskTOV0 else s.2.2)
  else s

/-- The flag of the overflow is set. -/
theorem or_tov0
    (x : Byte) :
  (x ||| maskTOV0) &&& maskTOV0 = maskTOV0
  := by
  revert x
  decide

theorem timer0ClkIncrCb_ticked
    {ck : Nat} {b : Timer0 × Bool × Byte} (hheld : b.2.1 = true) (hdivisor : 0 < b.1.divisor) :
  Triple (fun s => timer0Part s = b) (callbackExecute ck .timer0ClkIncrCb)
    (fun r s => r.1 = false ∧ timer0Part s = timer0Ticked ck b) (fun _ => True)
  := by
  apply callbackExecute_clk (Q := fun removed s => removed = false ∧ timer0Part s = timer0Ticked ck b)
    rfl
  rintro s rfl
  have hne (x : Byte) : x + 1 ≠ x := by
    revert x
    decide
  have hheld : s.cbs.held .timer0ClkIncrCb = true := hheld
  have hdivisor : ¬ s.timer0.divisor ≤ 0 := not_le.mpr hdivisor
  rw [timer0ClkIncrCb, run_bind_of_ok rfl, run_bind_of_ok rfl, if_neg (not_not.mpr hheld),
    if_neg hdivisor, run_bind_of_ok rfl]
  by_cases hmult : isMultipleOf ck s.timer0.divisor = true
  · have hticked : timer0Ticked ck (timer0Part s)
        = ({ s.timer0 with tcnt := s.timer0.tcnt + 1 }, s.cbs.held .timer0ClkIncrCb,
          if s.timer0.tcnt + 1 = 0 then maskTOV0 else s.timerIntr.tifr &&& maskTOV0) := if_pos hmult
    rw [if_pos hmult, hticked]
    by_cases hzero : s.timer0.tcnt + 1 = 0
    · rw [devIf, if_pos ⟨hzero, hne _⟩, run_bind_of_ok rfl, if_pos hzero]
      exact ⟨rfl, Prod.ext rfl (Prod.ext rfl (or_tov0 s.timerIntr.tifr))⟩
    · rw [devIf, if_neg fun h => hzero h.1, run_bind_of_ok rfl, if_neg hzero]
      exact ⟨rfl, rfl⟩
  · have hticked : timer0Ticked ck (timer0Part s) = timer0Part s := if_neg hmult
    rw [if_neg hmult, hticked, devIf, if_neg fun h => h.2 rfl, run_bind_of_ok rfl]
    exact ⟨rfl, rfl⟩

/-- A callback leaves a part that its flags and the other devices leave. -/
theorem timer16ClkIncrCb_leaves
    {β : Type} {part : Peripherals → β} (htimer : ∀ p t, part { p with timer16 := t } = part p)
    (hflag : ∀ mask ∈ [maskTOV1, maskOCF1A, maskOCF1B], Leaves part (timerIntrSetFlag mask))
    (ck : Nat) :
  Leaves part (callbackExecute ck .timer16ClkIncrCb)
  := by
  have hcompare (ocr : Option Nat) (tcnt : Word) {mask : Byte}
      (hmask : mask ∈ [maskTOV1, maskOCF1A, maskOCF1B]) :
      Leaves part (timer16Compare ocr tcnt mask) := by
    apply Leaves.get
    intro ocreg16
    cases ocr with
    | none => exact .pure _
    | some n => exact .devIf (hflag mask hmask)
  have hflags (timer : Timer16) (tcnt : Word) : Leaves part (timer16Flags timer tcnt) :=
    .bind (.devIf (hflag _ (.head _))) fun _ => .bind (hcompare _ _ (.tail _ (.head _))) fun _ =>
      hcompare _ _ (.tail _ (.tail _ (.head _)))
  exact .bind (.bind (.get fun _ => .get fun _ => .ite (.pure _)
    (.bind (.set fun p => htimer p _) fun _ => .ite (.error _ _)
      (.bind (.devIf (hflags _ _)) fun _ => .pure _))) fun _ => .pure _) fun _ => .pure _

/-- A flag other than that of the overflow -/
theorem or_and_tov0
    {x mask : Byte} (hmask : mask &&& maskTOV0 = 0) :
  (x ||| mask) &&& maskTOV0 = x &&& maskTOV0
  := by
  rw [BitVec.and_or_distrib_right, hmask]
  exact BitVec.or_zero

/-- The other callbacks of the clock leave the timer and its flag. -/
theorem callback_timer0Part
    {g : CallBackFP} (hclk : g.isClk = true) (hg : g ≠ .timer0ClkIncrCb) (ck : Nat) :
  Leaves timer0Part (callbackExecute ck g)
  := by
  by_cases htimer16 : g = .timer16ClkIncrCb
  · subst htimer16
    apply timer16ClkIncrCb_leaves fun _ _ => rfl
    intro mask hmask
    have hbit : mask &&& maskTOV0 = 0 := by
      revert mask
      decide
    exact .set fun p => congrArg
      (fun x : Byte => (p.timer0, p.cbs.held CallBackFP.timer0ClkIncrCb, x)) (or_and_tov0 hbit)
  · apply Leaves.of_touches (callbackExecute_touches ck g)
    intro f p hf
    have hreach : .timer0 ∉ g.reach ∧ .timerIntr ∉ g.reach := by
      cases g <;> first | contradiction | simp [CallBackFP.reach, CallBackFP.owner]
    have htimer : (f p).timer0 = p.timer0 := hf.regs_eq (d := .timer0) hreach.1 p
    have hintr : (f p).timerIntr = p.timerIntr := hf.regs_eq (d := .timerIntr) hreach.2 p
    have hheld : (f p).cbs.held .timer0ClkIncrCb = p.cbs.held .timer0ClkIncrCb :=
      congrArg Prod.fst (hf.view (g := .timer0ClkIncrCb) hreach.1 p)
    rw [timer0Part, htimer, hintr, hheld]
    rfl

/-- A tick does to the timer what one run of its callback does. -/
theorem IoStep.timer0_tick
    {d ck : Nat} {p q : Peripherals} (hstep : IoStep (.tick ck) p q) (hd : 0 < d)
    (hp : Timer0Runs d p) :
  timer0Part q = timer0Ticked ck (timer0Part p) ∧ Timer0Runs d q
  := by
  have hdivisor : 0 < (timer0Part p).1.divisor := by
    rw [show (timer0Part p).1.divisor = d from hp.divisor]
    exact Int.natCast_pos.mpr hd
  obtain ⟨hpart, hcount⟩ := hstep.tick_once (fun _ _ => rfl)
    (fun g hmem hg => callback_timer0Part (hp.separate.clk g hmem) hg ck)
    (timer0ClkIncrCb_ticked hp.held hdivisor) hp.once
  have hstays : (timer0Ticked ck (timer0Part p)).1.divisor = p.timer0.divisor ∧
      (timer0Ticked ck (timer0Part p)).2.1 = p.cbs.held .timer0ClkIncrCb := by
    rw [timer0Ticked]
    split <;> exact ⟨rfl, rfl⟩
  rw [← hpart] at hstays
  use hpart
  constructor
  · exact hstays.2.trans hp.held
  · exact hcount
  · exact hstep.separate hp.separate
  · exact hstays.1.trans hp.divisor

/-! ### The flag -/

/-- The registers of the timer interrupts but TIFR -/
def timerIntrBut (p : Peripherals) : TimerIntr :=
  { p.timerIntr with tifr := 0 }

/-- The callbacks leave them. -/
theorem callback_timerIntrBut
    (time : Nat) (g : CallBackFP) :
  Leaves timerIntrBut (callbackExecute time g)
  := by
  have hraise (vect : IntVectTable) (mask : Byte) : Leaves timerIntrBut (timerIntrRaise vect mask) :=
    .bind (.set fun _ => rfl) fun _ => .pure _
  by_cases hintr : .timerIntr ∈ g.reach
  · cases g with
    | timerIntrCb =>
      exact .bind (.get fun _ => .get fun _ => .ite (.pure _) (.ite (.pure _) (.ite (hraise _ _)
        (.ite (hraise _ _) (.ite (hraise _ _) (.ite (hraise _ _) (.ite (hraise _ _)
          (.error _ _)))))))) fun _ => .pure _
    | timer0ClkIncrCb =>
      exact .bind (.bind (.get fun _ => .get fun _ => .ite (.pure _) (.ite (.error _ _)
        (.bind (.set fun _ => rfl) fun _ => .bind (.devIf (.set fun _ => rfl)) fun _ =>
          .pure _))) fun _ => .pure _) fun _ => .pure _
    | timer16ClkIncrCb =>
      exact timer16ClkIncrCb_leaves (fun _ _ => rfl) (fun _ _ => .set fun _ => rfl) time
    | _ => simp [CallBackFP.reach, CallBackFP.owner] at hintr
  · apply Leaves.of_touches (callbackExecute_touches time g)
    intro f p hf
    have hregs : (f p).timerIntr = p.timerIntr := hf.regs_eq (d := .timerIntr) hintr p
    rw [timerIntrBut, hregs]
    rfl

/-- The interrupt of the overflow is disabled, and TIFR and the mask are where they are said to be. -/
structure OverflowMasked (tifrAddr : Int) (funcMask : Byte) (ti : TimerIntr) : Prop where
  tifrAddr : ti.tifrAddr = tifrAddr
  funcMask : ti.funcMask = funcMask
  toie0 : ti.timsk &&& maskTOIE0 = 0

section

variable {tifrAddr : Int} {funcMask : Byte}

theorem OverflowMasked.of_but
    {p q : Peripherals} (h : OverflowMasked tifrAddr funcMask p.timerIntr)
    (hbut : timerIntrBut q = timerIntrBut p) :
  OverflowMasked tifrAddr funcMask q.timerIntr
  := by
  constructor
  · exact (congrArg TimerIntr.tifrAddr hbut).trans h.tifrAddr
  · exact (congrArg TimerIntr.funcMask hbut).trans h.funcMask
  · have htimsk : q.timerIntr.timsk = p.timerIntr.timsk := (congrArg TimerIntr.timsk hbut :)
    rw [htimsk]
    exact h.toie0

/-- The interrupt of the overflow is disabled, and the flag is `b`. -/
def HasFlag (tifrAddr : Int) (funcMask : Byte) (b : Byte) (p : Peripherals) : Prop :=
  OverflowMasked tifrAddr funcMask p.timerIntr ∧ p.timerIntr.tifr &&& maskTOV0 = b

/-- The access neither writes to TIFR nor enables the interrupt of the overflow, and resets
neither. -/
def DevAccess.SparesFlag (vdevAt : Int → Option IoVDev) (tifrAddr : Int) (funcMask : Byte) :
    DevAccess → Prop
  | .read _ => True
  | .write addr val =>
    vdevAt addr = some .timerIntr → addr ≠ tifrAddr ∧ val &&& funcMask &&& maskTOIE0 = 0
  | .reset addr => vdevAt addr ≠ some .timerIntr

/-- A write to TIMSK -/
theorem timerIntrWrite_flag
    {addr : Int} {val b : Byte} (haddr : addr ≠ tifrAddr)
    (hval : val &&& funcMask &&& maskTOIE0 = 0) :
  Keeps (HasFlag tifrAddr funcMask b) (fun _ => True) (timerIntrWrite addr val)
  := by
  rintro p ⟨hp, hflag⟩
  rw [timerIntrWrite, run_bind_of_ok rfl]
  by_cases htimsk : addr = p.timerIntr.timskAddr
  · have hkeeps (x y : CallBacks → CallBacks) : Keeps (HasFlag tifrAddr funcMask b) (fun _ => True)
        (if val &&& p.timerIntr.funcMask = 0 then setCbs x else setCbs y) :=
      Triple.ite (fun _ _ h => ⟨⟨h.1.tifrAddr, h.1.funcMask, h.1.toie0⟩, h.2⟩)
        fun _ _ h => ⟨⟨h.1.tifrAddr, h.1.funcMask, h.1.toie0⟩, h.2⟩
    rw [if_pos htimsk, run_bind_of_ok rfl]
    apply hkeeps
    refine ⟨⟨hp.tifrAddr, hp.funcMask, ?_⟩, hflag⟩
    change val &&& p.timerIntr.funcMask &&& maskTOIE0 = 0
    rw [hp.funcMask]
    exact hval
  · rw [if_neg htimsk, hp.tifrAddr, if_neg haddr]
    trivial

/-- A raise of another interrupt -/
theorem timerIntrRaise_flag
    {b mask : Byte} (vect : IntVectTable) (hmask : ~~~mask &&& maskTOV0 = maskTOV0) :
  Keeps (HasFlag tifrAddr funcMask b) (fun _ => True) (timerIntrRaise vect mask)
  := by
  apply Triple.bind (Q := fun _ => HasFlag tifrAddr funcMask b)
  · rintro p ⟨hp, rfl⟩
    refine ⟨⟨hp.tifrAddr, hp.funcMask, hp.toie0⟩, ?_⟩
    change p.timerIntr.tifr &&& ~~~mask &&& maskTOV0 = _
    rw [BitVec.and_assoc, hmask]
  · exact fun _ => Triple.pure fun _ h => h

/-- The callback of the timer interrupts leaves the flag of a disabled interrupt. -/
theorem timerIntrCb_flag
    {b : Byte} (time : Nat) :
  Keeps (HasFlag tifrAddr funcMask b) (fun _ => True) (callbackExecute time .timerIntrCb)
  := by
  have hcb : Keeps (HasFlag tifrAddr funcMask b) (fun _ => True) timerIntrCb := by
    rintro p ⟨hp, hflag⟩
    have htov0 : ¬ p.timerIntr.timsk &&& p.timerIntr.tifr &&& p.timerIntr.funcMask &&& maskTOV0 ≠ 0
        := by
      have hswap : p.timerIntr.timsk &&& p.timerIntr.tifr &&& p.timerIntr.funcMask &&& maskTOV0
          = p.timerIntr.timsk &&& maskTOIE0 &&& (p.timerIntr.tifr &&& p.timerIntr.funcMask) := by
        ac_rfl
      rw [hswap, hp.toie0, not_not]
      exact BitVec.zero_and
    rw [timerIntrCb, run_bind_of_ok rfl, run_bind_of_ok rfl]
    have hpure (r : CbRet × List DevEvent) :
        Keeps (HasFlag tifrAddr funcMask b) (fun _ => True) (pure r : DevM _) :=
      Triple.pure fun _ h => h
    exact (Triple.ite (fun _ => hpure _) fun _ => Triple.ite (fun _ => hpure _) fun _ =>
      Triple.ite (fun h => absurd h htov0) fun _ =>
      Triple.ite (fun _ => timerIntrRaise_flag _ rfl) fun _ =>
      Triple.ite (fun _ => timerIntrRaise_flag _ rfl) fun _ =>
      Triple.ite (fun _ => timerIntrRaise_flag _ rfl) fun _ =>
      Triple.ite (fun _ => timerIntrRaise_flag _ rfl) fun _ => Triple.throw trivial :
        Keeps (HasFlag tifrAddr funcMask b) (fun _ => True) _) p ⟨hp, hflag⟩
  exact Triple.bind hcb fun _ => Triple.pure fun _ h => h

/-- A change of other devices -/
theorem Change.flag
    {b : Byte} {S : List IoVDev} {f : Peripherals → Peripherals} (hf : Change S f)
    (hS : .timerIntr ∉ S) {p : Peripherals} (hp : HasFlag tifrAddr funcMask b p) :
  HasFlag tifrAddr funcMask b (f p)
  := by
  have hregs : (f p).timerIntr = p.timerIntr := hf.regs_eq (d := .timerIntr) hS p
  rw [HasFlag, hregs]
  exact hp

theorem Touches.flag
    {b : Byte} {S : List IoVDev} {α : Type} {x : DevM α} (hx : Touches S x) (hS : .timerIntr ∉ S) :
  Keeps (HasFlag tifrAddr funcMask b) (fun _ => True) x
  := hx.keeps fun _ _ hf hp => hf.flag hS hp

/-- Steps that are no ticks leave the flag of a disabled interrupt, where they spare it. -/
theorem IoStep.flag_rest
    {b : Byte} {e : IoEvent} {p q : Peripherals} (hstep : IoStep e p q) (he : e.time = none)
    (hspares : ∀ a ∈ e.access, a.SparesFlag p.vdevAt tifrAddr funcMask) (hsep : p.cbs.Separate)
    (hp : HasFlag tifrAddr funcMask b p) :
  HasFlag tifrAddr funcMask b q
  := by
  have hreach {d : IoVDev} (hd : d ≠ .timerIntr) : .timerIntr ∉ d.reach := by
    cases d <;> first | contradiction | simp [IoVDev.reach]
  have hread (d : IoVDev) (addr : Int) :
      Keeps (HasFlag tifrAddr funcMask b) (fun _ => True) (d.read addr) := by
    apply (d.read_touches addr).flag
    cases d <;> simp [IoVDev.readReach]
  have hwrite (d : IoVDev) (addr : Int) (val : Byte) (h : e = .write addr val)
      (hat : p.vdevAt addr = some d) :
      Keeps (HasFlag tifrAddr funcMask b) (fun _ => True) (d.write addr val) := by
    by_cases hd : d = .timerIntr
    · subst hd h
      obtain ⟨haddr, hval⟩ := hspares _ rfl hat
      apply timerIntrWrite_flag haddr hval
    · exact (d.write_touches addr val).flag (hreach hd)
  have hreset (d : IoVDev) (addr : Int) (h : e = .reset addr) (hat : p.vdevAt addr = some d)
      (s : Peripherals) (hs : HasFlag tifrAddr funcMask b s) :
      HasFlag tifrAddr funcMask b (d.reset s) := by
    subst h
    apply d.reset_change.flag _ hs
    apply hreach
    rintro rfl
    exact hspares _ rfl hat
  cases e with
  | tick ck => contradiction
  | async =>
    apply (hstep.async_keeps (fun _ _ h => h) (fun _ _ h => h) _ hp).1
    intro time g hg
    by_cases htimer : g = .timerIntrCb
    · subst htimer
      apply timerIntrCb_flag
    · apply (callbackExecute_touches time g).flag
      have hclk := hsep.async g hg
      cases g <;> first | contradiction | simp [CallBackFP.reach, CallBackFP.owner]
  | _ =>
    apply hstep.access_keeps rfl (fun _ _ h => h) _ _ _ hp
    · exact fun addr d _ _ => hread d addr
    · exact fun addr val d h hat => hwrite d addr val h hat
    · exact fun addr d h hat s hs => hreset d addr h hat s hs

end

/-! ### Paths -/

/-- The divisors are powers of two. -/
theorem divisor_two_pow
    {d : Nat} (hd : d ∈ [1, 8, 64, 256, 1024]) :
  ∃ k ≤ 64, d = 2 ^ k
  := by
  simp only [List.mem_cons, List.not_mem_nil, or_false] at hd
  obtain rfl | rfl | rfl | rfl | rfl := hd
  · exact ⟨0, by decide, rfl⟩
  · exact ⟨3, by decide, rfl⟩
  · exact ⟨6, by decide, rfl⟩
  · exact ⟨8, by decide, rfl⟩
  · exact ⟨10, by decide, rfl⟩

section

variable {d : Nat} (hd : d ∈ [1, 8, 64, 256, 1024])
include hd

/-- A tick counts at the multiples of the divisor, and sets the flag where the counter wraps. -/
theorem timer0_counted
    {ck : Nat} {p q : Peripherals} (hstep : IoStep (.tick ck) p q) (hp : Timer0Runs d p) :
  Timer0Runs d q ∧ q.timer0.tcnt = (if d ∣ ck then p.timer0.tcnt + 1 else p.timer0.tcnt) ∧
    q.timerIntr.tifr &&& maskTOV0
      = if d ∣ ck ∧ p.timer0.tcnt + 1 = 0 then maskTOV0 else p.timerIntr.tifr &&& maskTOV0
  := by
  obtain ⟨k, hk, rfl⟩ := divisor_two_pow hd
  obtain ⟨hpart, hq⟩ := hstep.timer0_tick (Nat.two_pow_pos k) hp
  have hmult : isMultipleOf ck p.timer0.divisor = decide (2 ^ k ∣ ck) := by
    rw [hp.divisor]
    exact isMultipleOf_two_pow hk ck
  use hq
  change (timer0Part q).1.tcnt = _ ∧ (timer0Part q).2.2 = _
  rw [hpart, timer0Ticked]
  change (if isMultipleOf ck p.timer0.divisor = true then _ else _ : Timer0 × Bool × Byte).1.tcnt = _
    ∧ (if isMultipleOf ck p.timer0.divisor = true then _ else _ : Timer0 × Bool × Byte).2.2 = _
  rw [hmult]
  by_cases hdvd : 2 ^ k ∣ ck
  · simp only [hdvd, decide_true, if_true, true_and]
    exact ⟨rfl, rfl⟩
  · simp only [hdvd, decide_false, if_false, false_and, Bool.false_eq_true]
    exact ⟨rfl, rfl⟩

/-- Along a path TCNT0 counts the ticks at the multiples of the divisor. -/
theorem path_timer0
    {p q : Peripherals} {taken : List (Peripherals × IoEvent)} (hpath : Path IoStep p taken q)
    (hspares : ∀ a ∈ accesses taken, a.SparesCounter p.vdevAt) (hp : Timer0Runs d p) :
  q.timer0.tcnt.toNat = (p.timer0.tcnt.toNat + (ticks taken).countP (d ∣ ·)) % 256
  := by
  induction hpath with
  | nil p =>
    have hlt := p.timer0.tcnt.isLt
    change _ = (_ + 0) % 256
    omega
  | @cons p t q e taken hst _ ih =>
    rw [accesses_cons, List.forall_mem_append] at hspares
    have hrest : ∀ a ∈ accesses taken, a.SparesCounter t.vdevAt := hst.vdevAt_eq ▸ hspares.2
    rw [ticks_cons, List.countP_append]
    cases he : e.time with
    | none =>
      obtain ⟨htimer, ht⟩ := hst.timer0_rest he
        (fun a ha => hspares.1 a (Option.mem_toList.mpr ha)) hp
      rw [ih hrest ht, htimer]
      change _ = (_ + (0 + _)) % 256
      rw [Nat.zero_add]
    | some ck =>
      obtain rfl := IoEvent.time_eq_some he
      obtain ⟨ht, htcnt, -⟩ := timer0_counted hd hst hp
      rw [ih hrest ht, htcnt]
      change _ = (_ + ([ck].countP (d ∣ ·) + _)) % 256
      by_cases hdvd : d ∣ ck
      · rw [if_pos hdvd, List.countP_singleton, if_pos (decide_eq_true hdvd), BitVec.toNat_add]
        change ((_ + 1) % 256 + _) % 256 = _
        omega
      · rw [if_neg hdvd, List.countP_singleton, if_neg (by simpa using hdvd), Nat.zero_add]

omit hd in
/-- An increment wraps or counts. -/
theorem byte_wraps
    (x : Byte) :
  x + 1 = 0 ∧ x.toNat = 255 ∨ x + 1 ≠ 0 ∧ (x + 1).toNat = x.toNat + 1
  := by
  revert x
  decide

/-- Along a path that spares the flag of a disabled interrupt TOV0 tells whether TCNT0 has
wrapped. -/
theorem path_tov0
    {tifrAddr : Int} {funcMask : Byte} {p q : Peripherals} {taken : List (Peripherals × IoEvent)}
    (hpath : Path IoStep p taken q) (hspares : ∀ a ∈ accesses taken, a.SparesCounter p.vdevAt)
    (hflag : ∀ a ∈ accesses taken, a.SparesFlag p.vdevAt tifrAddr funcMask)
    (hmasked : OverflowMasked tifrAddr funcMask p.timerIntr) (hp : Timer0Runs d p) :
  q.timerIntr.tifr &&& maskTOV0 ≠ 0 ↔
    p.timerIntr.tifr &&& maskTOV0 ≠ 0 ∨ 256 ≤ p.timer0.tcnt.toNat + (ticks taken).countP (d ∣ ·)
  := by
  induction hpath with
  | nil p =>
    have hlt := p.timer0.tcnt.isLt
    have hnone : ¬ 256 ≤ p.timer0.tcnt.toNat + (ticks []).countP (d ∣ ·) := by
      change ¬ 256 ≤ _ + 0
      omega
    rw [or_iff_left hnone]
  | @cons p t q e taken hst _ ih =>
    rw [accesses_cons, List.forall_mem_append] at hspares hflag
    have hrest : ∀ a ∈ accesses taken, a.SparesCounter t.vdevAt := hst.vdevAt_eq ▸ hspares.2
    have hflagRest : ∀ a ∈ accesses taken, a.SparesFlag t.vdevAt tifrAddr funcMask :=
      hst.vdevAt_eq ▸ hflag.2
    rw [ticks_cons, List.countP_append]
    cases he : e.time with
    | none =>
      obtain ⟨htimer, ht⟩ := hst.timer0_rest he
        (fun a ha => hspares.1 a (Option.mem_toList.mpr ha)) hp
      obtain ⟨hmaskedT, htov⟩ := hst.flag_rest he
        (fun a ha => hflag.1 a (Option.mem_toList.mpr ha)) hp.separate ⟨hmasked, rfl⟩
      rw [ih hrest hflagRest hmaskedT ht, htimer, htov]
      change _ ↔ _ ∨ 256 ≤ _ + (0 + _)
      rw [Nat.zero_add]
    | some ck =>
      obtain rfl := IoEvent.time_eq_some he
      obtain ⟨ht, htcnt, htov⟩ := timer0_counted hd hst hp
      have hbut : timerIntrBut t = timerIntrBut p :=
        (hst.tick_leaves (fun _ _ => rfl) fun g _ => callback_timerIntrBut ck g).1
      rw [ih hrest hflagRest (hmasked.of_but hbut) ht, htcnt, htov]
      change _ ↔ _ ∨ 256 ≤ _ + ([ck].countP (d ∣ ·) + _)
      have hlt := p.timer0.tcnt.isLt
      by_cases hdvd : d ∣ ck
      · rw [if_pos hdvd, List.countP_singleton, if_pos (decide_eq_true hdvd)]
        obtain ⟨hwrap, hmax⟩ | ⟨hwrap, hnext⟩ := byte_wraps p.timer0.tcnt
        · rw [if_pos ⟨hdvd, hwrap⟩]
          constructor
          · intro _
            right
            omega
          · intro _
            left
            decide
        · rw [if_neg fun h => hwrap h.2, hnext, Nat.add_assoc]
      · rw [if_neg hdvd, if_neg fun h => hdvd h.1, List.countP_singleton,
          if_neg (by simpa using hdvd), Nat.zero_add]

end

/-! ### Runs of a core -/

/-- The number of multiples of `d` from `a` on and below `b` -/
def multiplesBetween (d a b : Nat) : Nat :=
  ((Finset.Ico a b).filter (d ∣ ·)).card

theorem countP_range'
    (d a n : Nat) :
  (List.range' a n).countP (d ∣ ·) = multiplesBetween d a (a + n)
  := by
  rw [multiplesBetween, Nat.Ico_eq_range', Nat.add_sub_cancel_left]
  exact List.countP_eq_length_filter

/-- Over the steps of a core, where one callback of the timer is installed and no access writes to
its registers or resets it, TCNT0 counts the multiples of the divisor that CK goes through; with
the interrupt disabled and TIFR spared, TOV0 tells whether TCNT0 has wrapped; and CK counts the
clocks of the instructions. -/
theorem timer0_counts_clock
    {c c' : AvrCore Peripherals} {taken : List (AvrCore Peripherals × OpRet)} {d : Nat}
    {made : List DevAccess} (hrun : Path StepReturns c taken c') (hc : c.BetweenSteps)
    (hd : d ∈ [1, 8, 64, 256, 1024]) (htimer : Timer0Runs d c.dev)
    (hmade : c'.dev.history = c.dev.history ++ made)
    (hspares : ∀ a ∈ made, a.SparesCounter c.dev.vdevAt) :
  c'.dev.timer0.tcnt.toNat = (c.dev.timer0.tcnt.toNat + multiplesBetween d c.ck c'.ck) % 256
    ∧ (c.dev.timerIntr.timsk &&& maskTOIE0 = 0 →
      (∀ a ∈ made,
        a.SparesFlag c.dev.vdevAt c.dev.timerIntr.tifrAddr c.dev.timerIntr.funcMask) →
      (c'.dev.timerIntr.tifr &&& maskTOV0 ≠ 0 ↔ c.dev.timerIntr.tifr &&& maskTOV0 ≠ 0
        ∨ 256 ≤ c.dev.timer0.tcnt.toNat + multiplesBetween d c.ck c'.ck))
    ∧ (c'.ck : Int) - c.ck = (taken.map fun p => p.1.executedCKS).sum
  := by
  obtain ⟨⟨events, n, hpath, hck, hticks⟩, hsum⟩ := steps_follow hrun hc
  -- the accesses of the path are those that the history has more
  have haccesses : made = accesses events := by
    rw [history_path hpath] at hmade
    exact (List.append_cancel_left hmade).symm
  have hcount : (ticks events).countP (d ∣ ·) = multiplesBetween d c.ck c'.ck := by
    rw [hticks, hck]
    apply countP_range'
  subst haccesses
  rw [← hcount]
  refine ⟨path_timer0 hd hpath hspares htimer, ?_, hsum⟩
  intro htoie0 hflag
  exact path_tov0 hd hpath hspares hflag ⟨rfl, rfl, htoie0⟩ htimer

/-- A timer that is to wrap at the next multiple of 8 -/
def timer0Peripherals : Peripherals :=
  { (default : Peripherals) with
    timer0 := { (default : Timer0) with tcnt := 0xff, divisor := 8 }
    cbs := { clkCb := [.timer0ClkIncrCb], asyncCb := [], held := fun f => f = .timer0ClkIncrCb } }

/-- A core before NOPs, where CK is 7 -/
def timer0Core : AvrCore Peripherals :=
  { AvrCore.construct defnOsEID128 timer0Peripherals with
    state := .running
    flash := { base := 0, size := 0x100, data := fun _ => 0 }
    ck := 7 }

/-- The timer wraps in the second of two NOPs. -/
theorem timer0_counts_clock_wraps :
  ∃ c' taken, Path StepReturns timer0Core taken c'
    ∧ taken.map Prod.snd = [.opcode .NOP, .opcode .NOP]
    ∧ c'.dev.timer0.tcnt.toNat = (255 + multiplesBetween 8 7 9) % 256
    ∧ (c'.dev.timerIntr.tifr &&& maskTOV0 ≠ 0 ↔ (0 : Byte) &&& maskTOV0 ≠ 0
      ∨ 256 ≤ 255 + multiplesBetween 8 7 9)
    ∧ (9 : Int) - 7 = (taken.map fun p => p.1.executedCKS).sum
  := by
  have hexec : (exec nextStep (fun _ _ => true) [.opcode .NOP, .opcode .NOP] timer0Core).map
      (fun c => (c.dev.history, c.ck)) = some ([], 9) := by decide +kernel
  obtain ⟨c', hc', hend⟩ := Option.map_eq_some_iff.mp hexec
  obtain ⟨hhistory, hck⟩ := Prod.mk.inj hend
  obtain ⟨taken, hpath, hrets, -⟩ := exec_path_events StepReturns.of_next hc'
  have hruns : Timer0Runs 8 timer0Core.dev := by
    refine ⟨rfl, rfl, ⟨?_, nofun⟩, rfl⟩
    rintro f hf
    rw [List.mem_singleton.mp hf]
    rfl
  have hnew := construct_betweenSteps (by decide : 0 ≤ defnOsEID128.pc) timer0Peripherals
  have hlaw := timer0_counts_clock hpath ⟨hnew.instCKS, hnew.pcSize⟩ (by decide) hruns hhistory nofun
  rw [hck] at hlaw
  exact ⟨c', taken, hpath, hrets, hlaw.1, hlaw.2.1 rfl nofun, hlaw.2.2⟩

end SimulAvr
