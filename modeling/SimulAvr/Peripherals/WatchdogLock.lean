import SimulAvr.Lib.BitMask
import SimulAvr.Peripherals.Dispatch

/-!
# The lock of the watchdog

On a device with the WDTOE function, WDE goes from 1 to 0 only by a write made while WDTOE is
set.  Setting WDTOE opens a window that the clock closes: while it is open, the callback that
closes it is in the list of the clock once, and the counter falls at every tick.
-/

namespace SimulAvr

open Program CallbackList Transition

/-! ### Bits -/

/-- WDE is set. -/
def WDTCR.Wde (reg : WDTCR) : Prop :=
  reg.wdtcr &&& maskWDE ≠ 0

/-- WDTOE is set. -/
def WDTCR.Wdtoe (reg : WDTCR) : Prop :=
  reg.wdtcr &&& maskWDTOE ≠ 0

theorem wde_bit
    (x : Byte) :
  x &&& maskWDE ≠ 0 ↔ x.getLsbD 3 = true
  := BitMask.and_twoPow_ne_zero x 3

theorem wdtoe_bit
    (x : Byte) :
  x &&& maskWDTOE ≠ 0 ↔ x.getLsbD 4 = true
  := BitMask.and_twoPow_ne_zero x 4

/-- The lock leaves WDTOE as written. -/
theorem wdtcrLocked_wdtoe
    (reg : WDTCR) (val : Byte) :
  wdtcrLocked reg val &&& maskWDTOE ≠ 0 ↔ val &&& maskWDTOE ≠ 0
  := by
  rw [wdtoe_bit, wdtoe_bit, wdtcrLocked]
  split
  · rw [BitVec.getLsbD_or, show (0x08 : Byte).getLsbD 4 = false from rfl, Bool.or_false]
  · rfl

/-- A locked WDE stays. -/
theorem wdtcrLocked_wde
    {reg : WDTCR} (hfunc : reg.funcMask &&& maskWDTOE ≠ 0) (hwde : reg.Wde) (hclosed : ¬ reg.Wdtoe)
    (val : Byte) :
  wdtcrLocked reg val &&& maskWDE ≠ 0
  := by
  rw [wdtcrLocked, if_pos ⟨hfunc, hwde, not_not.mp hclosed⟩, wde_bit, BitVec.getLsbD_or]
  exact Bool.or_true _

/-! ### One step -/

/-- What the lock depends on: the device and its callback that clears WDTOE -/
def wdtcrPart (p : Peripherals) : WDTCR × Bool × Nat × Nat :=
  (p.wdtcr, p.cbs.view .wdtcrToeClrCb)

theorem wdtcrPart_part : Part .wdtcr wdtcrPart where
  change S f p h hd := by
    have hregs : (f p).wdtcr = p.wdtcr := h.regs_eq (d := .wdtcr) hd p
    rw [wdtcrPart, hregs, h.view (g := .wdtcrToeClrCb) hd]
    rfl
  history _ _ := rfl

/-- The callback that clears WDTOE is in the list of the clock once if the device holds it, and
in no list otherwise. -/
def ToeInstalled (p : Peripherals) : Prop :=
  p.cbs.view .wdtcrToeClrCb = (true, 1, 0) ∨ p.cbs.view .wdtcrToeClrCb = (false, 0, 0)

/-- The state after a write to WDTCR -/
structure WdtcrWritten (val : Byte) (p q : Peripherals) : Prop where
  funcMask : q.wdtcr.funcMask = p.wdtcr.funcMask
  wdtcr : q.wdtcr.wdtcr = wdtcrLocked p.wdtcr val &&& p.wdtcr.funcMask
  opens (hval : val &&& maskWDTOE ≠ 0) :
    q.wdtcr.toeClk = toeClks
      ∧ q.cbs.view .wdtcrToeClrCb = (p.cbs.ensure .wdtcrToeClrCb).view .wdtcrToeClrCb
  leaves (hval : val &&& maskWDTOE = 0) :
    q.wdtcr.toeClk = p.wdtcr.toeClk
      ∧ q.cbs.view .wdtcrToeClrCb = p.cbs.view .wdtcrToeClrCb

/-- The state after the callback that clears WDTOE has run -/
structure ToeTicked (p q : Peripherals) : Prop where
  counts (h : 0 < p.wdtcr.toeClk) :
    q.wdtcr = { p.wdtcr with toeClk := p.wdtcr.toeClk - 1 }
      ∧ q.cbs.view .wdtcrToeClrCb = p.cbs.view .wdtcrToeClrCb
  clears (h : p.wdtcr.toeClk ≤ 0) :
    q.wdtcr = { p.wdtcr with wdtcr := p.wdtcr.wdtcr &&& ~~~maskWDTOE &&& p.wdtcr.funcMask }
      ∧ q.cbs.view .wdtcrToeClrCb = (false, 0, 0)

/-- `wdtcr_write`, on a device with the WDTOE function -/
theorem wdtcrWrite_written
    {p q : Peripherals} {val : Byte} (hfunc : p.wdtcr.funcMask &&& maskWDTOE ≠ 0)
    (hrun : (wdtcrWrite val).run p = .ok ((), q)) :
  WdtcrWritten val p q
  := by
  have htoe : wdtcrLocked p.wdtcr val &&& maskWDTOE ≠ 0 ↔ val &&& maskWDTOE ≠ 0 :=
    wdtcrLocked_wdtoe p.wdtcr val
  -- the changes of the other callback leave the lock
  have hkeep (f : CallBacks → CallBacks)
      (hf : ∀ cbs, (f cbs).view .wdtcrToeClrCb = cbs.view .wdtcrToeClrCb) (c : Prop) [Decidable c] :
      Triple (WdtcrWritten val p) (devIf c (setCbs f)) (fun _ => WdtcrWritten val p)
        (fun _ => True) := by
    apply triple_devIf
    · rintro r - ⟨hmask, hreg, hopens, hleaves⟩
      exact ⟨hmask, hreg, fun h => ⟨(hopens h).1, (hf _).trans (hopens h).2⟩,
        fun h => ⟨(hleaves h).1, (hf _).trans (hleaves h).2⟩⟩
    · exact fun _ _ h => h
  rw [wdtcrWrite, run_bind_of_ok rfl] at hrun
  refine Triple.of_ok (P := fun s => s = p) (Q := fun _ => WdtcrWritten val p)
    (E := fun _ => True) ?_ rfl hrun
  apply Triple.bind (Q := fun _ s => wdtcrPart s
    = if val &&& maskWDTOE ≠ 0 then
        ({ p.wdtcr with toeClk := toeClks },
          (p.cbs.ensure .wdtcrToeClrCb).view .wdtcrToeClrCb)
      else wdtcrPart p)
  · apply Triple.ite
    · rintro ⟨-, h⟩ s rfl
      rw [if_pos (htoe.mp h)]
      rfl
    · intro h
      apply Triple.pure
      rintro s rfl
      rw [if_neg fun hval => h ⟨hfunc, htoe.mpr hval⟩]
  · rintro ⟨⟩
    apply Triple.bind (Q := fun _ => WdtcrWritten val p)
    · rintro s hs
      split at hs
      · next hval =>
        obtain ⟨hreg, hview⟩ := Prod.mk.inj hs
        have hmask : s.wdtcr.funcMask = p.wdtcr.funcMask := by rw [hreg]
        have hclk : s.wdtcr.toeClk = toeClks := by rw [hreg]
        exact {
          funcMask := hmask
          wdtcr := congrArg (wdtcrLocked p.wdtcr val &&& ·) hmask
          opens := fun _ => ⟨hclk, hview⟩
          leaves := fun h => absurd h hval }
      · next hval =>
        obtain ⟨hreg, hview⟩ := Prod.mk.inj hs
        have hmask : s.wdtcr.funcMask = p.wdtcr.funcMask := by rw [hreg]
        have hclk : s.wdtcr.toeClk = p.wdtcr.toeClk := by rw [hreg]
        exact {
          funcMask := hmask
          wdtcr := congrArg (wdtcrLocked p.wdtcr val &&& ·) hmask
          opens := fun h => absurd h hval
          leaves := fun _ => ⟨hclk, hview⟩ }
    · rintro ⟨⟩
      apply Triple.bind (hkeep _ (fun cbs => view_ensure cbs (by decide)) _)
      rintro ⟨⟩
      apply hkeep _ fun cbs => view_withdraw cbs (by decide)

/-- The state after a run of the callback that clears WDTOE, within a pass over the list -/
def ToeRan (reg : WDTCR) (removed : Bool) (s : Peripherals) : Prop :=
  if 0 < reg.toeClk then
    removed = false ∧ wdtcrPart s = ({ reg with toeClk := reg.toeClk - 1 }, true, 1, 0)
  else
    removed = true ∧ wdtcrPart s
      = ({ reg with wdtcr := reg.wdtcr &&& ~~~maskWDTOE &&& reg.funcMask }, false, 1, 0)

/-- `wdtcr_toe_clr_cb`, which the device holds -/
theorem wdtcrToeClrCb_held
    (reg : WDTCR) (time : Nat) :
  Triple (fun s => wdtcrPart s = (reg, true, 1, 0)) (callbackExecute time .wdtcrToeClrCb)
    (fun r => ToeRan reg r.1) (fun _ => True)
  := by
  apply callbackExecute_clk rfl
  apply triple_getDev
  intro reg'
  apply triple_getDev
  intro cbs
  apply Triple.ite
  · rintro hheld s ⟨⟨hs, rfl⟩, rfl⟩
    exact absurd (congrArg (·.2.1) hs) hheld
  · intro _
    apply Triple.ite
    · intro hclk
      apply Triple.bind (Q := fun _ => ToeRan reg false)
      · rintro s ⟨⟨hs, rfl⟩, rfl⟩
        obtain ⟨rfl, hview⟩ := Prod.mk.inj hs
        change if 0 < s.wdtcr.toeClk then _ else _
        rw [if_pos hclk]
        exact ⟨rfl, congrArg (Prod.mk _) hview⟩
      · exact fun _ => Triple.pure fun _ h => h
    · intro hclk
      apply Triple.bind (Q := fun _ s => ¬ 0 < reg.toeClk ∧ wdtcrPart s
        = ({ reg with wdtcr := reg.wdtcr &&& ~~~maskWDTOE &&& reg.funcMask }, true, 1, 0))
      · rintro s ⟨⟨hs, rfl⟩, rfl⟩
        obtain ⟨rfl, hview⟩ := Prod.mk.inj hs
        exact ⟨hclk, congrArg (Prod.mk _) hview⟩
      · intro _
        apply Triple.bind (Q := fun _ => ToeRan reg true)
        · rintro s ⟨hclk, hs⟩
          obtain ⟨hreg, hview⟩ := Prod.mk.inj hs
          change if 0 < reg.toeClk then _ else _
          rw [if_neg hclk]
          use rfl
          rw [wdtcrPart, view_withdraw_self, hview, hreg]
        · exact fun _ => Triple.pure fun _ h => h

/-- Other callbacks leave the watchdog. -/
theorem callback_wdtcr
    (part : WDTCR × Bool × Nat × Nat) (time : Nat) :
  ∀ g ≠ .wdtcrToeClrCb,
    Keeps (fun s => wdtcrPart s = part) (fun _ => True) (callbackExecute time g)
  := by
  intro g hg
  apply wdtcrPart_part.keeps _ (callbackExecute_touches time g)
  cases g <;> simp_all [CallBackFP.reach, CallBackFP.owner]

theorem callback_toeRan
    (reg : WDTCR) (time : Nat) (removed : Bool) :
  ∀ g ≠ .wdtcrToeClrCb, Keeps (ToeRan reg removed) (fun _ => True) (callbackExecute time g)
  := by
  intro g hg
  by_cases hclk : 0 < reg.toeClk
  · have hran : ToeRan reg removed = fun s => removed = false ∧ wdtcrPart s = _ :=
      funext fun _ => if_pos hclk
    rw [hran]
    exact Triple.fact fun _ => callback_wdtcr _ time g hg
  · have hran : ToeRan reg removed = fun s => removed = true ∧ wdtcrPart s = _ :=
      funext fun _ => if_neg hclk
    rw [hran]
    exact Triple.fact fun _ => callback_wdtcr _ time g hg

/-- What a step other than a reset does to the watchdog -/
theorem IoStep.wdtcr_cases
    {e : IoEvent} {p q : Peripherals} (hstep : IoStep e p q)
    (hreset : e.resets .wdtcr p = false)
    (hfunc : p.wdtcr.funcMask &&& maskWDTOE ≠ 0) (hinst : ToeInstalled p) :
  (∃ addr val, e = .write addr val ∧ p.vdevAt addr = some .wdtcr ∧ WdtcrWritten val p q)
    ∨ (∃ ck, e = .tick ck ∧ p.cbs.held .wdtcrToeClrCb = true ∧ ToeTicked p q)
    ∨ ((∀ ck, e = .tick ck → p.cbs.held .wdtcrToeClrCb = false) ∧ wdtcrPart q = wdtcrPart p)
  := by
  cases e with
  | read addr =>
    cases hstep with
    | read h =>
      refine .inr (.inr ⟨fun _ h => IoEvent.noConfusion h, wdtcrPart_part.read ?_ h⟩)
      intro d _
      cases d <;> simp [IoVDev.readReach]
  | write addr val =>
    by_cases hat : p.vdevAt addr = some .wdtcr
    · cases hstep with
      | write h =>
        rw [devWrite_at hat] at h
        obtain ⟨hmask, hreg, hopens, hleaves⟩ := wdtcrWrite_written
          (p := { p with history := p.history ++ [.write addr val] }) hfunc h
        exact .inl ⟨addr, val, rfl, hat, hmask, hreg, hopens, hleaves⟩
    · cases hstep with
      | write h =>
        refine .inr (.inr ⟨fun _ h => IoEvent.noConfusion h, wdtcrPart_part.write ?_ h⟩)
        rintro d hd
        cases d <;> simp_all [IoVDev.reach]
  | reset addr =>
    cases hstep with
    | reset =>
      refine .inr (.inr ⟨fun _ h => IoEvent.noConfusion h, wdtcrPart_part.reset ?_⟩)
      intro d hd
      have hne : p.vdevAt addr ≠ some .wdtcr := of_decide_eq_false hreset
      cases d <;> simp_all [IoVDev.reach]
  | tick ck =>
    obtain ⟨r, s, hpass, rfl⟩ := hstep.tick_pass
    rcases hinst with hview | hview
    · have hcount : p.cbs.clkCb.count .wdtcrToeClrCb = 1 := congrArg (·.2.1) hview
      obtain ⟨hran, hle⟩ := (pass_once (fun g _ => callback_wdtcr _ ck g)
        (fun b g _ => callback_toeRan p.wdtcr ck b g)
        (wdtcrToeClrCb_held p.wdtcr ck) hcount).of_ok (congrArg (Prod.mk _) hview) hpass
      refine .inr (.inl ⟨ck, rfl, congrArg Prod.fst hview, ?_⟩)
      constructor
      · intro hclk
        rw [ToeRan, if_pos hclk] at hran
        obtain ⟨hr, hs⟩ := hran
        obtain ⟨hreg, hs⟩ := Prod.mk.inj hs
        use hreg
        have hne : r.1.count .wdtcrToeClrCb ≠ 0 := of_decide_eq_false hr
        rw [view_clkCb, hs, hview, show r.1.count .wdtcrToeClrCb = 1 by omega]
      · intro hclk
        rw [ToeRan, if_neg (Int.not_lt.mpr hclk)] at hran
        obtain ⟨hr, hs⟩ := hran
        obtain ⟨hreg, hs⟩ := Prod.mk.inj hs
        use hreg
        rw [view_clkCb, hs, of_decide_eq_true hr]
    · have hcount : p.cbs.clkCb.count .wdtcrToeClrCb = 0 := congrArg (·.2.1) hview
      obtain ⟨hs, hr⟩ := (pass_others (fun g _ => callback_wdtcr (wdtcrPart p) ck g) hcount).of_ok rfl hpass
      refine .inr (.inr ⟨fun _ _ => congrArg Prod.fst hview, ?_⟩)
      obtain ⟨hreg, hs⟩ := Prod.mk.inj hs
      rw [wdtcrPart, view_clkCb, hs, hr, hview, hreg, ← hview]
      rfl
  | async =>
    obtain ⟨time, world, r, s, hpass, rfl⟩ := hstep.async_pass
    refine .inr (.inr ⟨fun _ h => IoEvent.noConfusion h, ?_⟩)
    have hcount : p.cbs.asyncCb.count .wdtcrToeClrCb = 0 := by
      rcases hinst with hview | hview <;> exact congrArg (·.2.2) hview
    obtain ⟨hs, hr⟩ := (pass_others (fun g _ => callback_wdtcr (wdtcrPart p) time g) hcount).of_ok
      (s := { p with world := world }) rfl hpass
    obtain ⟨hreg, hs⟩ := Prod.mk.inj hs
    rw [wdtcrPart, view_asyncCb, hs, hr, ← hcount, hreg]
    rfl

/-! ### Runs -/

/-- The event writes WDTCR with WDTOE set. -/
def IoEvent.setsWdtoe (p : Peripherals) : IoEvent → Bool
  | .write addr val => p.vdevAt addr = some .wdtcr ∧ val &&& maskWDTOE ≠ 0
  | _ => false

/-- The lock, `n` ticks after the last write that set WDTOE -/
structure WdtcrLock (n : Nat) (p : Peripherals) : Prop where
  func : p.wdtcr.funcMask &&& maskWDTOE ≠ 0
  masked : p.wdtcr.wdtcr &&& p.wdtcr.funcMask = p.wdtcr.wdtcr
  installed : ToeInstalled p
  window (h : p.wdtcr.Wdtoe) :
    p.cbs.held .wdtcrToeClrCb = true ∧ 0 ≤ p.wdtcr.toeClk ∧ p.wdtcr.toeClk + n ≤ toeClks

/-- WDTOE is clear once the callback has cleared it. -/
theorem cleared_wdtoe
    {reg : WDTCR} {x mask : Byte} (hbyte : reg.wdtcr = x &&& ~~~maskWDTOE &&& mask) :
  ¬ reg.Wdtoe
  := by
  rw [WDTCR.Wdtoe, hbyte, wdtoe_bit, BitVec.getLsbD_and, BitVec.getLsbD_and,
    show (~~~maskWDTOE).getLsbD 4 = false from rfl, Bool.and_false, Bool.false_and]
  exact Bool.false_ne_true

namespace WdtcrLock

variable {n : Nat} {p q : Peripherals}

/-- While WDTOE is set, the callback that clears it is installed. -/
theorem view
    (h : WdtcrLock n p) (htoe : p.wdtcr.Wdtoe) :
  p.cbs.view .wdtcrToeClrCb = (true, 1, 0)
  := by
  rcases h.installed with hview | hview
  · exact hview
  · have hheld : p.cbs.held .wdtcrToeClrCb = false := congrArg Prod.fst hview
    rw [(h.window htoe).1] at hheld
    contradiction

theorem of_part
    (h : WdtcrLock n p) (hpart : wdtcrPart q = wdtcrPart p) :
  WdtcrLock n q
  := by
  obtain ⟨hreg, hview⟩ := Prod.mk.inj hpart
  have hheld : q.cbs.held .wdtcrToeClrCb = p.cbs.held .wdtcrToeClrCb := congrArg Prod.fst hview
  obtain ⟨hfunc, hmasked, hinst, hwindow⟩ := h
  rw [← hreg] at hfunc hmasked hwindow
  rw [ToeInstalled, ← hview] at hinst
  rw [← hheld] at hwindow
  exact ⟨hfunc, hmasked, hinst, hwindow⟩

/-- A write keeps the mask, and the callback installed. -/
theorem written
    (h : WdtcrLock n p) {val : Byte} (hw : WdtcrWritten val p q) :
  q.wdtcr.funcMask &&& maskWDTOE ≠ 0 ∧ q.wdtcr.wdtcr &&& q.wdtcr.funcMask = q.wdtcr.wdtcr
    ∧ ToeInstalled q ∧ (q.wdtcr.Wdtoe → val &&& maskWDTOE ≠ 0)
  := by
  split_ands
  · rw [hw.funcMask]
    exact h.func
  · rw [hw.wdtcr, hw.funcMask, BitVec.and_assoc, BitVec.and_self]
  · by_cases hval : val &&& maskWDTOE = 0
    · rw [ToeInstalled, (hw.leaves hval).2]
      exact h.installed
    · rw [ToeInstalled, (hw.opens hval).2]
      rcases h.installed with hview | hview
      · exact .inl (view_ensure_held p.cbs hview)
      · exact .inl (view_ensure_clk p.cbs rfl hview)
  · rw [WDTCR.Wdtoe, hw.wdtcr, wdtoe_bit, BitVec.getLsbD_and, Bool.and_eq_true, ← wdtoe_bit,
      wdtcrLocked_wdtoe]
    exact And.left

/-- A write that does not set WDTOE -/
theorem write
    (h : WdtcrLock n p) {val : Byte} (hw : WdtcrWritten val p q) (hval : val &&& maskWDTOE = 0) :
  WdtcrLock n q
  := by
  obtain ⟨hfunc, hmasked, hinst, htoe⟩ := h.written hw
  exact ⟨hfunc, hmasked, hinst, fun h => absurd hval (htoe h)⟩

/-- A write that sets WDTOE opens the window. -/
theorem open_window
    (h : WdtcrLock n p) {val : Byte} (hw : WdtcrWritten val p q) (hval : val &&& maskWDTOE ≠ 0) :
  WdtcrLock 0 q
  := by
  obtain ⟨hfunc, hmasked, hinst, -⟩ := h.written hw
  have hclk : q.wdtcr.toeClk = toeClks := (hw.opens hval).1
  refine ⟨hfunc, hmasked, hinst, fun _ => ⟨?_, ?_, ?_⟩⟩
  rotate_left
  · rw [hclk]
    decide
  · rw [hclk]
    decide
  have hheld := congrArg Prod.fst (hw.opens hval).2
  apply hheld.trans
  rcases h.installed with hview | hview
  · exact congrArg Prod.fst (view_ensure_held p.cbs hview)
  · exact congrArg Prod.fst (view_ensure_clk p.cbs rfl hview)

/-- A tick of the callback that clears WDTOE -/
theorem tick
    (h : WdtcrLock n p) (ht : ToeTicked p q) :
  WdtcrLock (n + 1) q
  := by
  rcases Int.lt_or_le 0 p.wdtcr.toeClk with hclk | hclk
  · obtain ⟨hreg, hview⟩ := ht.counts hclk
    have hmask : q.wdtcr.funcMask = p.wdtcr.funcMask := by rw [hreg]
    have hbyte : q.wdtcr.wdtcr = p.wdtcr.wdtcr := by rw [hreg]
    have htoe : q.wdtcr.toeClk = p.wdtcr.toeClk - 1 := by rw [hreg]
    have hheld : q.cbs.held .wdtcrToeClrCb = p.cbs.held .wdtcrToeClrCb := congrArg Prod.fst hview
    constructor
    · rw [hmask]
      exact h.func
    · rw [hmask, hbyte]
      exact h.masked
    · rw [ToeInstalled, hview]
      exact h.installed
    · rw [WDTCR.Wdtoe, hbyte, hheld, htoe]
      intro hset
      obtain ⟨hheld, hpos, hle⟩ := h.window hset
      refine ⟨hheld, by omega, ?_⟩
      push_cast
      omega
  · obtain ⟨hreg, hview⟩ := ht.clears hclk
    have hmask : q.wdtcr.funcMask = p.wdtcr.funcMask := by rw [hreg]
    have hbyte : q.wdtcr.wdtcr = p.wdtcr.wdtcr &&& ~~~maskWDTOE &&& p.wdtcr.funcMask := by rw [hreg]
    constructor
    · rw [hmask]
      exact h.func
    · rw [hmask, hbyte, BitVec.and_assoc, BitVec.and_self]
    · exact .inr hview
    · intro hset
      exact absurd hset (cleared_wdtoe hbyte)

/-- A closed window stays closed. -/
theorem closed
    (h : WdtcrLock n p) (hclosed : ¬ p.wdtcr.Wdtoe) (m : Nat) :
  WdtcrLock m p
  := ⟨h.func, h.masked, h.installed, fun h => absurd h hclosed⟩

/-- What a step other than a reset does to the lock -/
theorem step
    {e : IoEvent} (h : WdtcrLock n p) (hstep : IoStep e p q) (hreset : e.resets .wdtcr p = false) :
  ∃ m, WdtcrLock m q ∧ (e.setsWdtoe p = false → m = n + if e.isTick then 1 else 0)
  := by
  rcases hstep.wdtcr_cases hreset h.func h.installed with
    ⟨addr, val, rfl, hat, hw⟩ | ⟨ck, rfl, hheld, ht⟩ | ⟨hheld, hpart⟩
  · by_cases hval : val &&& maskWDTOE = 0
    · exact ⟨n, h.write hw hval, fun _ => rfl⟩
    · use 0, h.open_window hw hval
      intro hsets
      exact absurd ⟨hat, hval⟩ (of_decide_eq_false hsets)
  · exact ⟨n + 1, h.tick ht, fun _ => rfl⟩
  · use n + if e.isTick then 1 else 0
    refine ⟨?_, fun _ => rfl⟩
    cases e with
    | tick ck =>
      have hclosed : ¬ p.wdtcr.Wdtoe := by
        intro hset
        have := hheld ck rfl
        rw [(h.window hset).1] at this
        contradiction
      exact (h.closed hclosed (n + 1)).of_part hpart
    | read addr => exact h.of_part hpart
    | write addr val => exact h.of_part hpart
    | reset addr => exact h.of_part hpart
    | async => exact h.of_part hpart

/-- A step other than a reset clears WDE only if it is a write made while WDTOE is set. -/
theorem step_wde
    {e : IoEvent} (h : WdtcrLock n p) (hstep : IoStep e p q) (hreset : e.resets .wdtcr p = false)
    (hwde : p.wdtcr.Wde) :
  q.wdtcr.Wde ∨ e.writesTo .wdtcr p = true ∧ p.wdtcr.Wdtoe
  := by
  have hmask : p.wdtcr.funcMask.getLsbD 3 = true := by
    have hbit := (wde_bit _).mp hwde
    rw [← h.masked, BitVec.getLsbD_and, Bool.and_eq_true] at hbit
    exact hbit.2
  rcases hstep.wdtcr_cases hreset h.func h.installed with
    ⟨addr, val, rfl, hat, hw⟩ | ⟨ck, rfl, hheld, ht⟩ | ⟨hheld, hpart⟩
  · by_cases hset : p.wdtcr.Wdtoe
    · exact .inr ⟨decide_eq_true hat, hset⟩
    · apply Or.inl
      rw [WDTCR.Wde, hw.wdtcr, wde_bit, BitVec.getLsbD_and, hmask, Bool.and_true, ← wde_bit]
      exact wdtcrLocked_wde h.func hwde hset val
  · apply Or.inl
    rcases Int.lt_or_le 0 p.wdtcr.toeClk with hclk | hclk
    · rw [(ht.counts hclk).1]
      exact hwde
    · have hbit := (wde_bit _).mp hwde
      rw [(ht.clears hclk).1, WDTCR.Wde, wde_bit, BitVec.getLsbD_and, BitVec.getLsbD_and, hmask,
        hbit]
      decide
  · apply Or.inl
    rw [(Prod.mk.inj hpart).1]
    exact hwde

/-- WDTOE is set by a write only. -/
theorem step_wdtoe
    {e : IoEvent} (h : WdtcrLock n p) (hstep : IoStep e p q) (hreset : e.resets .wdtcr p = false)
    (hclosed : ¬ p.wdtcr.Wdtoe) :
  ¬ q.wdtcr.Wdtoe ∨ e.writesTo .wdtcr p = true
  := by
  rcases hstep.wdtcr_cases hreset h.func h.installed with
    ⟨addr, val, rfl, hat, hw⟩ | ⟨ck, rfl, hheld, ht⟩ | ⟨hheld, hpart⟩
  · exact .inr (decide_eq_true hat)
  · apply Or.inl
    rcases Int.lt_or_le 0 p.wdtcr.toeClk with hclk | hclk
    · rw [(ht.counts hclk).1]
      exact hclosed
    · exact cleared_wdtoe (congrArg WDTCR.wdtcr (ht.clears hclk).1)
  · apply Or.inl
    rw [(Prod.mk.inj hpart).1]
    exact hclosed

/-- A path none of whose writes sets WDTOE, with its ticks counted -/
theorem path
    {taken : List (Peripherals × IoEvent)} (hpath : Path IoStep p taken q) (h : WdtcrLock n p)
    (htaken : ∀ x ∈ taken, x.2.resets .wdtcr x.1 = false ∧ x.2.setsWdtoe x.1 = false) :
  WdtcrLock (n + taken.countP (·.2.isTick)) q
  := by
  induction hpath generalizing n with
  | nil => exact h
  | cons hst _ ih =>
    rw [List.forall_mem_cons] at htaken
    obtain ⟨m, hm, heq⟩ := h.step hst htaken.1.1
    have hend := ih hm htaken.2
    rw [heq htaken.1.2] at hend
    rw [List.countP_cons, Nat.add_comm (List.countP _ _), ← Nat.add_assoc]
    exact hend

/-- A path without a reset, whatever it writes -/
theorem exists_path
    {taken : List (Peripherals × IoEvent)} (hpath : Path IoStep p taken q) (h : WdtcrLock n p)
    (hreset : ∀ x ∈ taken, x.2.resets .wdtcr x.1 = false) :
  ∃ m, WdtcrLock m q
  := by
  induction hpath generalizing n with
  | nil => exact ⟨n, h⟩
  | cons hst _ ih =>
    rw [List.forall_mem_cons] at hreset
    obtain ⟨m, hm, -⟩ := h.step hst hreset.1
    exact ih hm hreset.2

/-- A path with one write to WDTCR at most, none if WDTOE is set, keeps WDE. -/
theorem path_wde
    {taken : List (Peripherals × IoEvent)} (hpath : Path IoStep p taken q) (h : WdtcrLock n p)
    (hreset : ∀ x ∈ taken, x.2.resets .wdtcr x.1 = false)
    (hwrites : taken.countP (fun x => x.2.writesTo .wdtcr x.1) ≤ 1)
    (htoe : p.wdtcr.Wdtoe → taken.countP (fun x => x.2.writesTo .wdtcr x.1) = 0)
    (hwde : p.wdtcr.Wde) :
  q.wdtcr.Wde
  := by
  induction hpath generalizing n with
  | nil => exact hwde
  | @cons p r q e taken hst _ ih =>
    rw [List.forall_mem_cons] at hreset
    obtain ⟨m, hm, -⟩ := h.step hst hreset.1
    rw [List.countP_cons] at hwrites htoe
    by_cases hw : e.writesTo .wdtcr p = true
    · rw [if_pos hw] at hwrites htoe
      have hclosed : ¬ p.wdtcr.Wdtoe := fun hset => Nat.succ_ne_zero _ (htoe hset)
      apply ih hm hreset.2 (by omega) fun _ => by omega
      rcases h.step_wde hst hreset.1 hwde with hkept | ⟨-, hset⟩
      · exact hkept
      · exact absurd hset hclosed
    · rw [if_neg hw, Nat.add_zero] at hwrites htoe
      apply ih hm hreset.2 hwrites
      · intro hset
        by_contra hne
        rcases h.step_wdtoe hst hreset.1 (fun hp => hne (htoe hp)) with hclosed | hw'
        · exact hclosed hset
        · exact hw hw'
      · rcases h.step_wde hst hreset.1 hwde with hkept | ⟨hw', -⟩
        · exact hkept
        · exact absurd hw' hw

end WdtcrLock

/-- The watchdog as constructed -/
structure WdtcrNew (p : Peripherals) : Prop where
  wdtcr : p.wdtcr.wdtcr = 0
  view : p.cbs.view .wdtcrToeClrCb = (false, 0, 0)

/-- In every run without a reset of a watchdog with the WDTOE function, the callback that clears
WDTOE is installed while WDTOE is set; WDE goes from 1 to 0 only by a write made while WDTOE is
set; `TOE_CLKS + 1` ticks without a write that sets WDTOE clear it; and a single write does not
disable an enabled watchdog. -/
theorem watchdog_lock
    {p q : Peripherals} {taken : List (Peripherals × IoEvent)}
    (hfunc : p.wdtcr.funcMask &&& maskWDTOE ≠ 0) (hnew : WdtcrNew p)
    (hpath : Path IoStep p taken q) (hreset : ∀ x ∈ taken, x.2.resets .wdtcr x.1 = false) :
  (q.wdtcr.Wdtoe → q.cbs.view .wdtcrToeClrCb = (true, 1, 0))
    ∧ (∀ e r, IoStep e q r → e.resets .wdtcr q = false → q.wdtcr.Wde → ¬ r.wdtcr.Wde →
      e.writesTo .wdtcr q = true ∧ q.wdtcr.Wdtoe)
    ∧ (∀ later r, Path IoStep q later r →
      (∀ x ∈ later, x.2.resets .wdtcr x.1 = false ∧ x.2.setsWdtoe x.1 = false) →
      toeClks + 1 ≤ later.countP (·.2.isTick) → ¬ r.wdtcr.Wdtoe)
    ∧ (∀ later r, Path IoStep q later r → (∀ x ∈ later, x.2.resets .wdtcr x.1 = false) →
      later.countP (fun x => x.2.writesTo .wdtcr x.1) ≤ 1 → q.wdtcr.Wde → ¬ q.wdtcr.Wdtoe →
      r.wdtcr.Wde)
  := by
  have hstart : WdtcrLock 0 p := by
    refine ⟨hfunc, ?_, .inr hnew.view, ?_⟩
    · rw [hnew.wdtcr]
      exact BitVec.zero_and
    · rw [WDTCR.Wdtoe, hnew.wdtcr]
      exact fun h => absurd BitVec.zero_and h
  obtain ⟨n, hlock⟩ := WdtcrLock.exists_path hpath hstart hreset
  split_ands
  · exact hlock.view
  · intro e r hst hreset hwde hcleared
    rcases hlock.step_wde hst hreset hwde with hkept | hwrite
    · exact absurd hkept hcleared
    · exact hwrite
  · intro later r hlater htaken hticks hset
    obtain ⟨-, hpos, hle⟩ := (WdtcrLock.path hlater hlock htaken).window hset
    push_cast at hle
    omega
  · intro later r hlater hreset hwrites hwde hclosed
    exact WdtcrLock.path_wde hlater hlock hreset hwrites (fun h => absurd h hclosed) hwde

/-- A watchdog with the WDTOE function, at the address 0x41 -/
def wdtcrPeripherals : Peripherals :=
  { (default : Peripherals) with
    vdevAt := fun addr => if addr = 0x41 then some .wdtcr else none
    wdtcr := { (default : WDTCR) with funcMask := 0x1f } }

/-- The watchdog is enabled, unlocked, and disabled after a tick. -/
theorem watchdog_lock_unlocked :
  ∃ q, exec IoEvent.next (fun p e => !e.resets .wdtcr p)
      [.write 0x41 0x08, .write 0x41 0x18, .tick 7, .write 0x41 0x10] wdtcrPeripherals = some q
    ∧ q.cbs.view .wdtcrToeClrCb = (true, 1, 0)
  := by
  obtain ⟨q, hq⟩ := Option.isSome_iff_exists.mp (show (exec IoEvent.next
    (fun p e => !e.resets .wdtcr p)
    [.write 0x41 0x08, .write 0x41 0x18, .tick 7, .write 0x41 0x10] wdtcrPeripherals).isSome = true
    by decide +kernel)
  obtain ⟨taken, hpath, hcheck⟩ := exec_path IoStep.of_next hq
  have hwdtcr : (exec IoEvent.next (fun p e => !e.resets .wdtcr p)
      [.write 0x41 0x08, .write 0x41 0x18, .tick 7, .write 0x41 0x10] wdtcrPeripherals).map
      (·.wdtcr.wdtcr) = some 0x10 := by decide +kernel
  rw [hq] at hwdtcr
  have hreg : q.wdtcr.wdtcr = 0x10 := Option.some.inj hwdtcr
  use q, hq
  apply (watchdog_lock (by decide) ⟨rfl, rfl⟩ hpath
    fun x hx => Bool.not_eq_true' _ |>.mp (hcheck x hx)).1
  rw [WDTCR.Wdtoe, hreg]
  decide

end SimulAvr
