import SimulAvr.Lib.BitMask
import SimulAvr.Peripherals.Dispatch

/-!
# Writes of the EEPROM

An EEPROM with the EEMWE function changes a cell only where a write strobe has completed its
delay, as long as no reset comes while the callback of a write is queued: the reset clears the
registers, and leaves the callback in its list.
-/

namespace SimulAvr

open Program CallbackList Transition

/-! ### The part of a write -/

/-- What a write of the EEPROM depends on: the device without EEMWE and its counter, and the
callback of the write operation -/
def eepromPart (p : Peripherals) : EEProm × Bool × Nat × Nat :=
  ({ p.eeprom with eecr := p.eeprom.eecr &&& maskEEWE, mweClk := 0 }, p.cbs.view .eepromWrOpCb)

theorem eepromPart_part : Part .eeprom eepromPart where
  change S f p h hd := by
    have hregs : (f p).eeprom = p.eeprom := h.regs_eq (d := .eeprom) hd p
    rw [eepromPart, hregs, h.view (g := .eepromWrOpCb) hd]
    rfl
  history _ _ := rfl

/-- `eeprom_mwe_clr_cb` changes EEMWE and its counter only. -/
theorem eepromMweClrCb_keeps
    (part : EEProm × Bool × Nat × Nat) (time : Nat) :
  Keeps (fun s => eepromPart s = part) (fun _ => True) (callbackExecute time .eepromMweClrCb)
  := by
  apply callbackExecute_clk (Q := fun _ s => eepromPart s = part) rfl
  apply triple_getDev
  intro ee
  apply Triple.ite
  · intro _
    apply Triple.bind (Q := fun _ s => eepromPart s = part)
    · rintro s ⟨hs, -⟩
      exact hs
    · exact fun _ => Triple.pure fun _ h => h
  · intro _
    apply Triple.bind (Q := fun _ s => eepromPart s = part)
    · rintro s ⟨rfl, -⟩
      change ({ s.eeprom with
        eecr := s.eeprom.eecr &&& ~~~maskEEMWE &&& maskEEWE, mweClk := 0 }, _) = _
      rw [BitVec.and_assoc]
      rfl
    · intro _
      apply Triple.bind (Q := fun _ s => eepromPart s = part)
      · rintro s rfl
        exact congrArg (Prod.mk _) (view_withdraw s.cbs (g := .eepromMweClrCb) (by decide))
      · exact fun _ => Triple.pure fun _ h => h

/-- Callbacks other than the one of the write operation -/
theorem callback_eeprom
    (part : EEProm × Bool × Nat × Nat) (time : Nat) :
  ∀ g ≠ .eepromWrOpCb,
    Keeps (fun s => eepromPart s = part) (fun _ => True) (callbackExecute time g)
  := by
  intro g hg
  by_cases hmwe : g = .eepromMweClrCb
  · subst hmwe
    exact eepromMweClrCb_keeps part time
  · apply eepromPart_part.keeps _ (callbackExecute_touches time g)
    cases g <;> simp_all [CallBackFP.reach, CallBackFP.owner]

/-! ### One step -/

/-- No write operation goes on. -/
structure EEIdle (p : Peripherals) : Prop where
  eewe : p.eeprom.eecr &&& maskEEWE = 0
  view : p.cbs.view .eepromWrOpCb = (false, 0, 0)

/-- A write operation goes on, with the passes before the one that completes it, the address and
the byte. -/
structure EEPending (passes addr : Int) (byte : Byte) (p : Peripherals) : Prop where
  eewe : p.eeprom.eecr &&& maskEEWE = maskEEWE
  view : p.cbs.view .eepromWrOpCb = (true, 0, 1)
  wrOpClk : p.eeprom.wrOpClk = passes
  addr : p.eeprom.addr = addr
  eedr : p.eeprom.eedr = byte

/-- The event writes EEWE while EEMWE is set. -/
def IoEvent.strobesEEWE (p : Peripherals) : IoEvent → Bool
  | .write addr val => p.vdevAt addr = some .eeprom ∧ addr = eecrAddr
      ∧ val &&& p.eeprom.eecrMask &&& maskEEWE ≠ 0 ∧ p.eeprom.eecr &&& maskEEMWE ≠ 0
  | _ => false

/-- The event writes EERE. -/
def IoEvent.strobesEERE (p : Peripherals) : IoEvent → Bool
  | .write addr val => p.vdevAt addr = some .eeprom ∧ addr = eecrAddr
      ∧ val &&& p.eeprom.eecrMask &&& maskEERE ≠ 0
  | _ => false

/-- The event is a pass over the asynchronous callbacks. -/
def IoEvent.isAsync : IoEvent → Bool
  | .async => true
  | _ => false

/-- `eeprom_wr_eecr`, where it starts a write operation -/
theorem eepromStartWrite_cases
    {p q : Peripherals} (hmask : p.eeprom.eecrMask &&& maskEEMWE ≠ 0)
    (hrun : eepromStartWrite.run p = .ok ((), q)) :
  if p.eeprom.eecr &&& maskEEMWE ≠ 0 then
    q = { p with
      eeprom := { p.eeprom with eecr := p.eeprom.eecr ||| maskEEWE, wrOpClk := eepromWrOpClks }
      cbs := p.cbs.ensure .eepromWrOpCb }
  else
    q = p
  := by
  have hset : p.eeprom.eecr &&& p.eeprom.eecrMask &&& maskEEMWE ≠ 0
      ↔ p.eeprom.eecr &&& maskEEMWE ≠ 0 := by
    have hbit (x : Byte) : x &&& maskEEMWE ≠ 0 ↔ x.getLsbD 2 = true :=
      BitMask.and_twoPow_ne_zero x 2
    rw [hbit] at hmask
    rw [hbit, hbit, BitVec.getLsbD_and, hmask, Bool.and_true]
  rw [eepromStartWrite, run_bind_of_ok rfl] at hrun
  split at hrun
  · next h =>
    rw [if_pos (hset.mp (h.resolve_left hmask))]
    cases hrun
    rfl
  · next h =>
    rw [if_neg fun hmwe => h (.inr (hset.mpr hmwe))]
    cases hrun
    rfl

/-- The state after a write to a register of an EEPROM with the EEMWE function -/
structure EEWritten (addr : Int) (val : Byte) (p q : Peripherals) : Prop where
  idle : p.eeprom.eecr &&& maskEEWE = 0
  stor : q.eeprom.stor = p.eeprom.stor
  eecrMask : q.eeprom.eecrMask = p.eeprom.eecrMask
  eere (haddr : addr = eecrAddr) (hval : val &&& p.eeprom.eecrMask &&& maskEERE ≠ 0) :
    q.eeprom.eedr = p.eeprom.stor.data (p.eeprom.addr - p.eeprom.stor.base)
  eewe (haddr : addr = eecrAddr) (hval : val &&& p.eeprom.eecrMask &&& maskEEWE ≠ 0)
      (hmwe : p.eeprom.eecr &&& maskEEMWE ≠ 0) :
    q.eeprom = { p.eeprom with eecr := p.eeprom.eecr ||| maskEEWE, wrOpClk := eepromWrOpClks }
      ∧ q.cbs = p.cbs.ensure .eepromWrOpCb
  other (h : ¬ (addr = eecrAddr ∧ val &&& p.eeprom.eecrMask &&& maskEEWE ≠ 0
      ∧ p.eeprom.eecr &&& maskEEMWE ≠ 0)) :
    q.eeprom.eecr &&& maskEEWE = 0 ∧ q.cbs.view .eepromWrOpCb = p.cbs.view .eepromWrOpCb

/-- A start of a write operation, by a value that has EEWE and not EERE -/
theorem EEWritten.start
    {p q : Peripherals} {addr : Int} {val : Byte} (hidle : p.eeprom.eecr &&& maskEEWE = 0)
    (hmask : p.eeprom.eecrMask &&& maskEEMWE ≠ 0)
    (heere : val &&& p.eeprom.eecrMask &&& maskEERE = 0)
    (heewe : val &&& p.eeprom.eecrMask &&& maskEEWE ≠ 0) (haddr : addr = eecrAddr)
    (hrun : eepromStartWrite.run p = .ok ((), q)) :
  EEWritten addr val p q
  := by
  have hcases := eepromStartWrite_cases hmask hrun
  split at hcases
  · next hmwe =>
    subst hcases
    exact {
      idle := hidle
      stor := rfl
      eecrMask := rfl
      eere := fun _ h => absurd heere h
      eewe := fun _ _ _ => ⟨rfl, rfl⟩
      other := fun h => absurd ⟨haddr, heewe, hmwe⟩ h }
  · next hmwe =>
    subst hcases
    exact {
      idle := hidle
      stor := rfl
      eecrMask := rfl
      eere := fun _ h => absurd heere h
      eewe := fun _ _ h => absurd h hmwe
      other := fun _ => ⟨hidle, rfl⟩ }

/-- A method of the storage that does not abort -/
theorem liftStorage_ok
    {α : Type} {x : Except AvrError α} {p q : Peripherals} {a : α}
    (hrun : (liftStorage x).run p = .ok (a, q)) :
  q = p ∧ x = .ok a
  := by
  cases x with
  | error e => contradiction
  | ok b =>
    cases hrun
    exact ⟨rfl, rfl⟩

theorem triple_liftStorage
    {α : Type} {x : Except AvrError α} {P : Peripherals → Prop} {Q : α → Peripherals → Prop}
    (h : ∀ a, x = .ok a → ∀ p, P p → Q a p) :
  Triple P (liftStorage x) Q (fun _ => True)
  := by
  intro p hp
  cases x with
  | error e => trivial
  | ok a => exact h a rfl p hp

/-- A write of a byte to a storage -/
theorem storageWriteb_ok
    {stor stor' : Storage} {addr : Int} {val : Byte} (h : storageWriteb stor addr val = .ok stor') :
  stor' = { stor with data := Function.update stor.data (addr - stor.base) val }
  := by
  rw [storageWriteb] at h
  split at h
  · contradiction
  · exact (Except.ok.inj h).symm

/-- A byte of a storage -/
theorem storageReadb_ok
    {stor : Storage} {addr : Int} {val : Byte} (h : storageReadb stor addr = .ok val) :
  stor.data (addr - stor.base) = val
  := by
  rw [storageReadb] at h
  split at h
  · contradiction
  · exact Except.ok.inj h

/-- EEMWE is not EEWE. -/
theorem eewe_or_eemwe
    {x : Byte} (h : x &&& maskEEWE = 0) :
  (x ||| maskEEMWE) &&& maskEEWE = 0
  := by
  rw [BitVec.and_or_distrib_right, h]
  rfl

/-- A write to a register of an EEPROM with the EEMWE function, which does not abort -/
theorem eepromRegWrite_written
    {p q : Peripherals} {addr : Int} {val : Byte} (hmask : p.eeprom.eecrMask &&& maskEEMWE ≠ 0)
    (hrun : (eepromRegWrite addr val).run p = .ok ((), q)) :
  EEWritten addr val p q
  := by
  rw [eepromRegWrite, run_bind_of_ok rfl] at hrun
  split at hrun
  · contradiction
  · next hidle =>
    have hidle := not_not.mp hidle
    split at hrun
    · next haddr =>
      rw [eepromWrEecr, run_bind_of_ok rfl] at hrun
      split at hrun
      · next hval =>
        rw [run_bind_eq_ok] at hrun
        obtain ⟨data, s, hread, hset⟩ := hrun
        obtain ⟨rfl, hread⟩ := liftStorage_ok hread
        cases hset
        exact {
          idle := hidle
          stor := rfl
          eecrMask := rfl
          eere := fun _ _ => (storageReadb_ok hread).symm
          eewe := fun _ h => absurd (congrArg (· &&& maskEEWE) hval) h
          other := fun _ => ⟨hidle, rfl⟩ }
      split at hrun
      · next hval =>
        apply EEWritten.start hidle hmask _ _ haddr hrun
        · rw [hval]
          rfl
        · rw [hval]
          decide
      split at hrun
      · next hval =>
        cases hrun
        exact {
          idle := hidle
          stor := rfl
          eecrMask := rfl
          eere := fun _ h => absurd (congrArg (· &&& maskEERE) hval) h
          eewe := fun _ h => absurd (congrArg (· &&& maskEEWE) hval) h
          other := fun _ => ⟨eewe_or_eemwe hidle, view_ensure p.cbs (by decide)⟩ }
      split at hrun
      · next hval =>
        apply EEWritten.start hidle hmask _ _ haddr hrun
        · rw [hval]
          rfl
        · rw [hval]
          decide
      · contradiction
    · next hne =>
      have hregister (f : EEProm → EEProm) (hf : ∀ ee, (f ee).stor = ee.stor ∧ (f ee).eecr = ee.eecr
          ∧ (f ee).eecrMask = ee.eecrMask) (hq : q = { p with eeprom := f p.eeprom }) :
          EEWritten addr val p q := by
        obtain ⟨hstor, heecr, hm⟩ := hf p.eeprom
        subst hq
        exact {
          idle := hidle
          stor := hstor
          eecrMask := hm
          eere := fun h => absurd h hne
          eewe := fun h => absurd h hne
          other := fun _ => ⟨(congrArg (· &&& maskEEWE) heecr).trans hidle, rfl⟩ }
      split at hrun
      · cases hrun
        exact hregister (fun ee => { ee with eedr := val }) (fun _ => ⟨rfl, rfl, rfl⟩) rfl
      split at hrun
      · cases hrun
        exact hregister (fun ee => { ee with eearl := val }) (fun _ => ⟨rfl, rfl, rfl⟩) rfl
      split at hrun
      · cases hrun
        exact hregister (fun ee => { ee with eearh := val }) (fun _ => ⟨rfl, rfl, rfl⟩) rfl
      · contradiction

/-- The storage once the write operation is complete -/
def EEProm.written (ee : EEProm) : Storage :=
  { ee.stor with data := Function.update ee.stor.data (ee.addr - ee.stor.base) ee.eedr }

/-- The state after a run of the callback of the write operation, within a pass over the list -/
def WrOpRan (ee : EEProm) (removed : Bool) (s : Peripherals) : Prop :=
  if 0 < ee.wrOpClk then
    removed = false ∧ eepromPart s = ({ ee with wrOpClk := ee.wrOpClk - 1 }, true, 0, 1)
  else
    removed = true ∧ eepromPart s = ({ ee with stor := ee.written, eecr := 0 }, false, 0, 1)

/-- `eeprom_wr_op_cb` -/
theorem eepromWrOpCb_ran
    (ee : EEProm) (time : Nat) :
  Triple (fun s => eepromPart s = (ee, true, 0, 1)) (callbackExecute time .eepromWrOpCb)
    (fun r => WrOpRan ee r.1) (fun _ => True)
  := by
  apply Triple.bind (Q := fun r => WrOpRan ee (decide (r.1 = .remove)))
  · apply triple_getDev
    intro ee'
    apply Triple.ite
    · intro hclk
      apply Triple.bind (Q := fun _ => WrOpRan ee false)
      · rintro s ⟨hs, rfl⟩
        obtain ⟨rfl, hview⟩ := Prod.mk.inj hs
        change if 0 < s.eeprom.wrOpClk then _ else _
        rw [if_pos hclk]
        exact ⟨rfl, congrArg (Prod.mk _) hview⟩
      · exact fun _ => Triple.pure fun _ h => h
    · intro hclk
      apply Triple.bind (Q := fun stor s => eepromPart s = (ee, true, 0, 1)
        ∧ ¬ 0 < ee.wrOpClk ∧ stor = ee.written)
      · apply triple_liftStorage
        rintro stor hwrite s ⟨hs, rfl⟩
        obtain ⟨rfl, hview⟩ := Prod.mk.inj hs
        exact ⟨hs, hclk, storageWriteb_ok hwrite⟩
      · intro stor
        apply Triple.bind (Q := fun _ s => ¬ 0 < ee.wrOpClk
          ∧ eepromPart s = ({ ee with stor := ee.written, eecr := 0 }, true, 0, 1))
        · rintro s ⟨hs, hclk, rfl⟩
          obtain ⟨rfl, hview⟩ := Prod.mk.inj hs
          use hclk
          have heewe : s.eeprom.eecr &&& ~~~maskEEWE &&& maskEEWE = 0 := by
            rw [BitVec.and_assoc]
            exact BitVec.and_zero
          rw [eepromPart, heewe, hview]
        · intro _
          apply Triple.bind (Q := fun _ => WrOpRan ee true)
          · rintro s ⟨hclk, hs⟩
            obtain ⟨hee, hview⟩ := Prod.mk.inj hs
            change if 0 < ee.wrOpClk then _ else _
            rw [if_neg hclk]
            use rfl
            rw [eepromPart, view_withdraw_self, hview, hee]
          · exact fun _ => Triple.pure fun _ h => h
  · exact fun _ => Triple.pure fun _ h => h

theorem callback_wrOpRan
    (ee : EEProm) (time : Nat) (removed : Bool) :
  ∀ g ≠ .eepromWrOpCb, Keeps (WrOpRan ee removed) (fun _ => True) (callbackExecute time g)
  := by
  intro g hg
  by_cases hclk : 0 < ee.wrOpClk
  · have hran : WrOpRan ee removed = fun s => removed = false ∧ eepromPart s = _ :=
      funext fun _ => if_pos hclk
    rw [hran]
    exact Triple.fact fun _ => callback_eeprom _ time g hg
  · have hran : WrOpRan ee removed = fun s => removed = true ∧ eepromPart s = _ :=
      funext fun _ => if_neg hclk
    rw [hran]
    exact Triple.fact fun _ => callback_eeprom _ time g hg

section

variable {p q : Peripherals} {e : IoEvent} {passes addr : Int} {byte : Byte}

theorem EEIdle.of_part
    (h : EEIdle p) (hpart : eepromPart q = eepromPart p) :
  EEIdle q
  := by
  obtain ⟨hee, hview⟩ := Prod.mk.inj hpart
  have heecr : q.eeprom.eecr &&& maskEEWE = p.eeprom.eecr &&& maskEEWE := congrArg EEProm.eecr hee
  exact ⟨heecr.trans h.eewe, hview.trans h.view⟩

theorem EEPending.of_part
    (h : EEPending passes addr byte p) (hpart : eepromPart q = eepromPart p) :
  EEPending passes addr byte q
  := by
  obtain ⟨hee, hview⟩ := Prod.mk.inj hpart
  have heecr : q.eeprom.eecr &&& maskEEWE = p.eeprom.eecr &&& maskEEWE := congrArg EEProm.eecr hee
  have hclk : q.eeprom.wrOpClk = p.eeprom.wrOpClk := (congrArg EEProm.wrOpClk hee :)
  have haddr : q.eeprom.addr = p.eeprom.addr := (congrArg EEProm.addr hee :)
  have heedr : q.eeprom.eedr = p.eeprom.eedr := (congrArg EEProm.eedr hee :)
  exact ⟨heecr.trans h.eewe, hview.trans h.view, hclk.trans h.wrOpClk, haddr.trans h.addr,
    heedr.trans h.eedr⟩

/-- A step leaves the part of a write, unless it writes a register of the EEPROM, resets the
EEPROM or runs its callback. -/
theorem IoStep.eeprom_part
    (hstep : IoStep e p q) (hwrite : e.writesTo .eeprom p = false)
    (hreset : e.resets .eeprom p = false) (hclk : p.cbs.clkCb.count .eepromWrOpCb = 0)
    (hasync : e.isAsync = true → p.cbs.asyncCb.count .eepromWrOpCb = 0) :
  eepromPart q = eepromPart p
  := by
  cases e with
  | read addr =>
    cases hstep with
    | read h =>
      apply eepromPart_part.read _ h
      intro d _
      cases d <;> simp [IoVDev.readReach]
  | write addr val =>
    cases hstep with
    | write h =>
      have hne : p.vdevAt addr ≠ some .eeprom := of_decide_eq_false hwrite
      apply eepromPart_part.write _ h
      intro d hd
      cases d <;> simp_all [IoVDev.reach]
  | reset addr =>
    cases hstep with
    | reset =>
      have hne : p.vdevAt addr ≠ some .eeprom := of_decide_eq_false hreset
      apply eepromPart_part.reset
      intro d hd
      cases d <;> simp_all [IoVDev.reach]
  | tick ck =>
    obtain ⟨r, s, hpass, rfl⟩ := hstep.tick_pass
    obtain ⟨hs, hr⟩ := (pass_others (fun g _ => callback_eeprom (eepromPart p) ck g) hclk).of_ok
      rfl hpass
    obtain ⟨hee, hview⟩ := Prod.mk.inj hs
    rw [eepromPart, view_clkCb, hview, hr, ← hclk, hee]
    rfl
  | async =>
    obtain ⟨time, world, r, s, hpass, rfl⟩ := hstep.async_pass
    have hasync := hasync rfl
    obtain ⟨hs, hr⟩ := (pass_others (fun g _ => callback_eeprom (eepromPart p) time g) hasync).of_ok
      (s := { p with world := world }) rfl hpass
    obtain ⟨hee, hview⟩ := Prod.mk.inj hs
    rw [eepromPart, view_asyncCb, hview, hr, ← hasync, hee]
    rfl

/-- A write to a register of the EEPROM -/
theorem IoStep.eeprom_written
    (hstep : IoStep e p q) (hmask : p.eeprom.eecrMask &&& maskEEMWE ≠ 0)
    (hwrite : e.writesTo .eeprom p = true) :
  ∃ addr val, e = .write addr val ∧ EEWritten addr val p q
  := by
  cases hstep with
  | @write addr val _ _ h =>
    have hat : p.vdevAt addr = some .eeprom := of_decide_eq_true hwrite
    rw [devWrite_at hat] at h
    obtain ⟨hidle, hstor, hm, heere, heewe, hother⟩ := eepromRegWrite_written
      (p := { p with history := p.history ++ [.write addr val] }) hmask h
    exact ⟨addr, val, rfl, hidle, hstor, hm, heere, heewe, hother⟩
  | read => contradiction
  | reset => contradiction
  | tick => contradiction
  | async => contradiction

/-- A reset of the EEPROM -/
theorem IoStep.eeprom_reset
    (hstep : IoStep e p q) (hreset : e.resets .eeprom p = true) :
  q.eeprom.stor = p.eeprom.stor ∧ q.eeprom.eecrMask = p.eeprom.eecrMask ∧ q.eeprom.eecr = 0
    ∧ q.cbs.view .eepromWrOpCb = (false, (p.cbs.view .eepromWrOpCb).2)
  := by
  cases hstep with
  | @reset addr =>
    have hat : p.vdevAt addr = some .eeprom := of_decide_eq_true hreset
    rw [devReset_at hat]
    refine ⟨rfl, rfl, rfl, ?_⟩
    exact (view_withdraw _ (g := .eepromMweClrCb) (by decide)).trans (view_withdraw_self p.cbs)
  | read => contradiction
  | write => contradiction
  | tick => contradiction
  | async => contradiction

/-- A step of an EEPROM without a write operation -/
theorem EEIdle.step
    (h : EEIdle p) (hmask : p.eeprom.eecrMask &&& maskEEMWE ≠ 0) (hstep : IoStep e p q) :
  q.eeprom.stor = p.eeprom.stor ∧ q.eeprom.eecrMask = p.eeprom.eecrMask
    ∧ if e.strobesEEWE p then EEPending eepromWrOpClks p.eeprom.addr p.eeprom.eedr q
      else EEIdle q
  := by
  by_cases hwrite : e.writesTo .eeprom p = true
  · obtain ⟨addr, val, rfl, hw⟩ := hstep.eeprom_written hmask hwrite
    have hat : p.vdevAt addr = some .eeprom := of_decide_eq_true hwrite
    use hw.stor, hw.eecrMask
    split
    · next hstrobe =>
      obtain ⟨-, haddr, hval, hmwe⟩ := of_decide_eq_true hstrobe
      obtain ⟨hee, hcbs⟩ := hw.eewe haddr hval hmwe
      have heewe : (p.eeprom.eecr ||| maskEEWE) &&& maskEEWE = maskEEWE := by
        rw [BitVec.and_or_distrib_right, h.eewe]
        rfl
      constructor
      · rw [hee, heewe]
      · rw [hcbs]
        exact view_ensure_async p.cbs rfl h.view
      · rw [hee]
      · rw [hee]
        rfl
      · rw [hee]
    · next hstrobe =>
      obtain ⟨heewe, hview⟩ := hw.other fun hs => hstrobe (decide_eq_true ⟨hat, hs⟩)
      exact ⟨heewe, hview.trans h.view⟩
  · have hstrobe : e.strobesEEWE p ≠ true := by
      intro hs
      cases e with
      | write addr val => exact hwrite (decide_eq_true (of_decide_eq_true hs).1)
      | _ => contradiction
    rw [if_neg hstrobe]
    by_cases hreset : e.resets .eeprom p = true
    · obtain ⟨hstor, hm, heecr, hview⟩ := hstep.eeprom_reset hreset
      use hstor, hm
      constructor
      · rw [heecr]
        rfl
      · rw [hview, h.view]
    · have hpart := hstep.eeprom_part (eq_false_of_ne_true hwrite) (eq_false_of_ne_true hreset)
        (congrArg (·.2.1) h.view) (fun _ => congrArg (·.2.2) h.view)
      have hee := (Prod.mk.inj hpart).1
      exact ⟨(congrArg EEProm.stor hee :), (congrArg EEProm.eecrMask hee :), h.of_part hpart⟩

/-- A step of an EEPROM with a write operation, other than a reset -/
theorem EEPending.step
    (h : EEPending passes addr byte p) (hmask : p.eeprom.eecrMask &&& maskEEMWE ≠ 0)
    (hstep : IoStep e p q) (hreset : e.resets .eeprom p = false) :
  e.strobesEEWE p = false ∧ q.eeprom.eecrMask = p.eeprom.eecrMask
    ∧ if e.isAsync then
        if 0 < passes then q.eeprom.stor = p.eeprom.stor ∧ EEPending (passes - 1) addr byte q
        else q.eeprom.stor = { p.eeprom.stor with
            data := Function.update p.eeprom.stor.data (addr - p.eeprom.stor.base) byte }
          ∧ EEIdle q
      else q.eeprom.stor = p.eeprom.stor ∧ EEPending passes addr byte q
  := by
  have hwrite : e.writesTo .eeprom p = false := by
    rw [← Bool.not_eq_true]
    intro hwrite
    obtain ⟨_, _, -, hw⟩ := hstep.eeprom_written hmask hwrite
    have hidle := hw.idle
    rw [h.eewe] at hidle
    contradiction
  have hstrobe : e.strobesEEWE p = false := by
    cases e with
    | write addr val =>
      apply decide_eq_false
      rintro ⟨hat, -⟩
      exact of_decide_eq_false hwrite hat
    | _ => rfl
  use hstrobe
  by_cases hasync : e.isAsync = true
  · cases e with
    | async =>
      obtain ⟨time, world, r, s, hpass, rfl⟩ := hstep.async_pass
      have hcount : p.cbs.asyncCb.count .eepromWrOpCb = 1 := congrArg (·.2.2) h.view
      obtain ⟨hran, hle⟩ := (pass_once (fun g _ => callback_eeprom _ time g)
        (fun b g _ => callback_wrOpRan (eepromPart p).1 time b g)
        (eepromWrOpCb_ran (eepromPart p).1 time) hcount).of_ok
        (s := { p with world := world }) (congrArg (Prod.mk _) h.view) hpass
      by_cases hclk : 0 < (eepromPart p).1.wrOpClk
      · rw [WrOpRan, if_pos hclk] at hran
        obtain ⟨hr, hs⟩ := hran
        obtain ⟨hee, hview⟩ := Prod.mk.inj hs
        have hne : r.1.count .eepromWrOpCb ≠ 0 := of_decide_eq_false hr
        have hpos : 0 < passes := by rw [← h.wrOpClk]; exact hclk
        rw [if_pos hasync, if_pos hpos]
        refine ⟨(congrArg EEProm.eecrMask hee :), (congrArg EEProm.stor hee :), ?_, ?_, ?_, ?_, ?_⟩
        · exact (congrArg EEProm.eecr hee :).trans h.eewe
        · rw [view_asyncCb, hview, show r.1.count .eepromWrOpCb = 1 by omega]
        · rw [← h.wrOpClk]
          exact (congrArg EEProm.wrOpClk hee :)
        · exact (congrArg EEProm.addr hee :).trans h.addr
        · exact (congrArg EEProm.eedr hee :).trans h.eedr
      · rw [WrOpRan, if_neg hclk] at hran
        obtain ⟨hr, hs⟩ := hran
        obtain ⟨hee, hview⟩ := Prod.mk.inj hs
        have hpos : ¬ 0 < passes := by rw [← h.wrOpClk]; exact hclk
        rw [if_pos hasync, if_neg hpos]
        refine ⟨(congrArg EEProm.eecrMask hee :), ?_, ?_, ?_⟩
        · rw [← h.addr, ← h.eedr]
          exact (congrArg EEProm.stor hee :)
        · exact (congrArg EEProm.eecr hee :)
        · rw [view_asyncCb, hview, of_decide_eq_true hr]
    | _ => contradiction
  · rw [if_neg hasync]
    have hpart := hstep.eeprom_part hwrite hreset (congrArg (·.2.1) h.view)
      (fun h => absurd h hasync)
    have hee := (Prod.mk.inj hpart).1
    exact ⟨(congrArg EEProm.eecrMask hee :), (congrArg EEProm.stor hee :), h.of_part hpart⟩

end

/-! ### A write operation alone -/

/-- A pass over a list of one callback -/
theorem next_async_singleton
    {p q : Peripherals} {f : CallBackFP} {removed : Bool} {events : List DevEvent}
    (hcbs : p.cbs.asyncCb = [f])
    (hcall : ∀ time, (callbackExecute time f).run
      { p with world := { p.world with programTime := p.world.programTime.tail } }
        = .ok ((removed, events), q)) :
  IoEvent.next .async p
    = some { q with cbs := { q.cbs with asyncCb := if removed then [] else [f] } }
  := by
  have hpass (time : Nat) : (callbackListExecuteAll time [f]).run
      { p with world := { p.world with programTime := p.world.programTime.tail } }
        = .ok ((if removed then [] else [f], events ++ []), q) := by
    rw [callbackListExecuteAll, CallbackList.pass, run_bind_of_ok (hcall time)]
    rfl
  have hexec : asyncCbExec.run p = .ok (events ++ [],
      { q with cbs := { q.cbs with asyncCb := if removed then [] else [f] } }) := by
    rw [asyncCbExec, run_bind_of_ok rfl, run_bind_of_ok rfl]
    rw [show Peripherals.cbs { p with world := { p.world with
      programTime := p.world.programTime.tail } } = p.cbs from rfl, hcbs,
      run_bind_of_ok (hpass _)]
    rfl
  rw [IoEvent.next, hexec]
  rfl

/-- A pass before the one that completes the write operation -/
theorem next_async_waiting
    {p : Peripherals} (hcbs : p.cbs.asyncCb = [.eepromWrOpCb]) (hclk : 0 < p.eeprom.wrOpClk) :
  ∃ world, IoEvent.next .async p = some { p with
    world := world, eeprom := { p.eeprom with wrOpClk := p.eeprom.wrOpClk - 1 } }
  := by
  have hcall (s : Peripherals) (h : 0 < s.eeprom.wrOpClk) :
      eepromWrOpCb.run s = .ok ((.retain, []), { s with
        eeprom := { s.eeprom with wrOpClk := s.eeprom.wrOpClk - 1 } }) := by
    rw [eepromWrOpCb, run_bind_of_ok rfl, if_pos h]
    rfl
  have hnext := next_async_singleton hcbs fun time => run_bind_of_ok (hcall _ hclk)
  rw [← hcbs] at hnext
  exact ⟨_, hnext⟩

/-- The pass that completes the write operation -/
theorem next_async_complete
    {p : Peripherals} {stor : Storage} (hcbs : p.cbs.asyncCb = [.eepromWrOpCb])
    (hclk : ¬ 0 < p.eeprom.wrOpClk)
    (hstor : storageWriteb p.eeprom.stor p.eeprom.addr p.eeprom.eedr = .ok stor) :
  ∃ q, IoEvent.next .async p = some q ∧ q.vdevAt = p.vdevAt ∧
    q.eeprom = { p.eeprom with stor := stor, eecr := p.eeprom.eecr &&& ~~~maskEEWE }
  := by
  have hcall (s : Peripherals) (h : ¬ 0 < s.eeprom.wrOpClk)
      (hs : storageWriteb s.eeprom.stor s.eeprom.addr s.eeprom.eedr = .ok stor) :
      eepromWrOpCb.run s = .ok ((.remove, []), { s with
        eeprom := { s.eeprom with stor := stor, eecr := s.eeprom.eecr &&& ~~~maskEEWE }
        cbs := s.cbs.withdraw .eepromWrOpCb }) := by
    have hlift : (liftStorage (storageWriteb s.eeprom.stor s.eeprom.addr s.eeprom.eedr)).run s
        = .ok (stor, s) := by
      rw [hs]
      rfl
    rw [eepromWrOpCb, run_bind_of_ok rfl, if_neg h, run_bind_of_ok hlift]
    rfl
  exact ⟨_, next_async_singleton hcbs fun time => run_bind_of_ok (hcall _ hclk hstor), rfl, rfl⟩

/-- A strobe of EERE -/
theorem next_write_eere
    {p : Peripherals} {val : Byte} {data : Byte} (hat : p.vdevAt 0x3c = some .eeprom)
    (heewe : p.eeprom.eecr &&& maskEEWE = 0) (hval : val &&& p.eeprom.eecrMask = maskEERE)
    (hdata : storageReadb p.eeprom.stor p.eeprom.addr = .ok data) :
  ∃ q, IoEvent.next (.write 0x3c val) p = some q
  := by
  have hwrite (s : Peripherals) (hs : s.eeprom = p.eeprom) :
      (eepromRegWrite 0x3c val).run s
        = .ok ((), { s with eeprom := { s.eeprom with eedr := data } }) := by
    have hlift : (liftStorage (storageReadb p.eeprom.stor p.eeprom.addr)).run s
        = .ok (data, s) := by
      rw [hdata]
      rfl
    rw [eepromRegWrite, run_bind_of_ok rfl, hs, if_neg (not_not.mpr heewe), if_pos rfl,
      eepromWrEecr, run_bind_of_ok rfl, hs, if_pos hval, run_bind_of_ok hlift, ← hs]
    rfl
  have hrun := hwrite { p with history := p.history ++ [.write 0x3c val] } rfl
  rw [IoEvent.next, devWrite_at hat]
  exact ⟨_, congrArg (fun r => r.toOption.map Prod.snd) hrun⟩

/-- The passes before the one that completes the write operation -/
theorem exists_path_waiting
    {p : Peripherals} (hcbs : p.cbs.asyncCb = [.eepromWrOpCb]) {n : Nat}
    (hclk : p.eeprom.wrOpClk = n) :
  ∃ taken q, Path IoStep p taken q ∧ taken.map Prod.snd = List.replicate n .async
    ∧ q.vdevAt = p.vdevAt ∧ q.cbs = p.cbs ∧ q.eeprom = { p.eeprom with wrOpClk := 0 }
  := by
  induction n generalizing p with
  | zero =>
    refine ⟨[], p, .nil p, rfl, rfl, rfl, ?_⟩
    rw [← Nat.cast_zero, ← hclk]
  | succ n ih =>
    obtain ⟨world, hnext⟩ := next_async_waiting hcbs (by omega)
    obtain ⟨taken, q, hpath, hevents, hregs⟩ := ih (p := { p with
      world := world, eeprom := { p.eeprom with wrOpClk := p.eeprom.wrOpClk - 1 } }) hcbs
      (show p.eeprom.wrOpClk - 1 = n by omega)
    refine ⟨_, q, .cons (.of_next _ _ _ hnext) hpath, ?_, hregs⟩
    rw [List.map_cons, hevents, List.replicate_succ]

/-- The passes up to the one that completes the write operation -/
theorem exists_path_complete
    {p : Peripherals} (hcbs : p.cbs.asyncCb = [.eepromWrOpCb]) {n : Nat}
    (hclk : p.eeprom.wrOpClk = n) {stor : Storage}
    (hstor : storageWriteb p.eeprom.stor p.eeprom.addr p.eeprom.eedr = .ok stor) :
  ∃ taken q r, Path IoStep p taken q ∧ taken.map Prod.snd = List.replicate n .async
    ∧ q.eeprom.stor = p.eeprom.stor ∧ IoEvent.next .async q = some r ∧ r.vdevAt = p.vdevAt
    ∧ r.eeprom = { p.eeprom with
      wrOpClk := 0, stor := stor, eecr := p.eeprom.eecr &&& ~~~maskEEWE }
  := by
  obtain ⟨taken, q, hpath, hevents, hat, hqcbs, hee⟩ := exists_path_waiting hcbs hclk
  rw [← hqcbs] at hcbs
  have hidle : ¬ 0 < q.eeprom.wrOpClk := by
    rw [hee]
    exact lt_irrefl 0
  have hqstor : storageWriteb q.eeprom.stor q.eeprom.addr q.eeprom.eedr = .ok stor := by
    rw [hee]
    exact hstor
  obtain ⟨r, hr, hrat, hree⟩ := next_async_complete hcbs hidle hqstor
  rw [hee] at hree
  exact ⟨taken, q, r, hpath, hevents, (congrArg EEProm.stor hee :), hr, hrat.trans hat,
    hree⟩

/-- A path without a reset -/
theorem no_resets
    {taken : List (Peripherals × IoEvent)} {events : List IoEvent}
    (hevents : taken.map Prod.snd = events) (h : ∀ addr, .reset addr ∉ events) :
  ∀ x ∈ taken, x.2.resets .eeprom x.1 = false
  := by
  rintro ⟨p, e⟩ hx
  cases e with
  | reset addr =>
    rw [← hevents] at h
    exact absurd (List.mem_map_of_mem hx) (h addr)
  | _ => rfl

/-! ### Runs -/

/-- A reset of the EEPROM comes while no callback of a write operation is queued. -/
def ResetsIdle (p : Peripherals) (e : IoEvent) : Prop :=
  e.resets .eeprom p = true → p.cbs.asyncCb.count .eepromWrOpCb = 0

/-- A write strobe of a path, and what came after it without a reset -/
def Strobed (taken : List (Peripherals × IoEvent)) (s : Peripherals)
    (after : List (Peripherals × IoEvent)) : Prop :=
  ∃ before strobe, taken = before ++ (s, strobe) :: after ∧ strobe.strobesEEWE s = true
    ∧ ∀ x ∈ after, x.2.resets .eeprom x.1 = false

/-- The EEPROM after a path: idle, or writing since a strobe -/
def EEState (taken : List (Peripherals × IoEvent)) (q : Peripherals) : Prop :=
  q.eeprom.eecrMask &&& maskEEMWE ≠ 0
    ∧ (EEIdle q ∨ ∃ s after, Strobed taken s after
      ∧ after.countP (·.2.isAsync) ≤ eepromWrOpClks
      ∧ EEPending (eepromWrOpClks - after.countP (·.2.isAsync)) s.eeprom.addr s.eeprom.eedr q)

/-- A path with one more step after a strobe -/
theorem Strobed.concat
    {taken after : List (Peripherals × IoEvent)} {s p : Peripherals} {e : IoEvent}
    (h : Strobed taken s after) (hreset : e.resets .eeprom p = false) :
  Strobed (taken ++ [(p, e)]) s (after ++ [(p, e)])
  := by
  obtain ⟨before, strobe, rfl, hstrobe, hafter⟩ := h
  refine ⟨before, strobe, ?_, hstrobe, ?_⟩
  · rw [List.append_assoc, List.cons_append]
  · rw [List.forall_mem_append, List.forall_mem_singleton]
    exact ⟨hafter, hreset⟩

/-- The passes of a path with one more step -/
theorem countP_concat
    (after : List (Peripherals × IoEvent)) (p : Peripherals) (e : IoEvent) :
  (after ++ [(p, e)]).countP (·.2.isAsync)
    = after.countP (·.2.isAsync) + if e.isAsync = true then 1 else 0
  := by
  rw [List.countP_append, List.countP_singleton]

/-- A reset while a write operation goes on is no reset while idle. -/
theorem EEPending.no_reset
    {passes addr : Int} {byte : Byte} {p : Peripherals} (h : EEPending passes addr byte p)
    {e : IoEvent} (hreset : ResetsIdle p e) :
  e.resets .eeprom p = false
  := by
  rw [← Bool.not_eq_true]
  intro hr
  have hcount : p.cbs.asyncCb.count .eepromWrOpCb = 1 := congrArg (·.2.2) h.view
  rw [hreset hr] at hcount
  contradiction

theorem EEState.step
    {taken : List (Peripherals × IoEvent)} {p q : Peripherals} {e : IoEvent} (h : EEState taken p)
    (hreset : ResetsIdle p e) (hstep : IoStep e p q) :
  EEState (taken ++ [(p, e)]) q
  := by
  obtain ⟨hmask, hidle | ⟨s, after, hstrobed, hle, hpending⟩⟩ := h
  · obtain ⟨-, hm, hq⟩ := hidle.step hmask hstep
    rw [EEState, hm]
    use hmask
    split at hq
    · next hstrobe =>
      refine .inr ⟨p, [], ⟨taken, e, rfl, hstrobe, List.forall_mem_nil _⟩, ?_⟩
      rw [List.countP_nil, Nat.cast_zero, Int.sub_zero]
      exact ⟨by decide, hq⟩
    · exact .inl hq
  · have hreset := hpending.no_reset hreset
    obtain ⟨-, hm, hq⟩ := hpending.step hmask hstep hreset
    rw [EEState, hm]
    use hmask
    split at hq
    · next hasync =>
      split at hq
      · next hpos =>
        refine .inr ⟨s, after ++ [(p, e)], hstrobed.concat hreset, ?_⟩
        rw [countP_concat, if_pos hasync]
        push_cast
        rw [← Int.sub_sub]
        exact ⟨by omega, hq.2⟩
      · exact .inl hq.2
    · next hasync =>
      refine .inr ⟨s, after ++ [(p, e)], hstrobed.concat hreset, ?_⟩
      rw [countP_concat, if_neg hasync]
      exact ⟨hle, hq.2⟩

/-- A write operation along a path without a reset -/
theorem EEPending.path
    {passes addr : Int} {byte : Byte} {p q : Peripherals} {taken : List (Peripherals × IoEvent)}
    (hpath : Path IoStep p taken q) (h : EEPending passes addr byte p)
    (hmask : p.eeprom.eecrMask &&& maskEEMWE ≠ 0)
    (hreset : ∀ x ∈ taken, x.2.resets .eeprom x.1 = false)
    (hpasses : taken.countP (·.2.isAsync) ≤ passes) :
  EEPending (passes - taken.countP (·.2.isAsync)) addr byte q
    ∧ q.eeprom.eecrMask &&& maskEEMWE ≠ 0
  := by
  induction hpath generalizing passes with
  | nil =>
    rw [List.countP_nil, Nat.cast_zero, Int.sub_zero]
    exact ⟨h, hmask⟩
  | @cons p r q e taken hst _ ih =>
    rw [List.forall_mem_cons] at hreset
    obtain ⟨-, hm, hr⟩ := h.step hmask hst hreset.1
    rw [← hm] at hmask
    rw [List.countP_cons] at hpasses ⊢
    split at hr
    · next hasync =>
      rw [if_pos hasync] at hpasses ⊢
      push_cast at hpasses ⊢
      rw [if_pos (by omega)] at hr
      rw [Int.add_comm, ← Int.sub_sub]
      exact ih hr.2 hmask hreset.2 (by omega)
    · next hasync =>
      rw [if_neg hasync] at hpasses ⊢
      exact ih hr.2 hmask hreset.2 hpasses

/-- After a path, a step changes the cells only by the pass that completes a write operation: the
cell that EEAR addressed at the strobe receives the EEDR of the strobe. -/
def CellsChange (taken : List (Peripherals × IoEvent)) (q : Peripherals) (e : IoEvent)
    (r : Peripherals) : Prop :=
  r.eeprom.stor.data ≠ q.eeprom.stor.data →
    e = .async ∧ ∃ s after, Strobed taken s after
      ∧ after.countP (·.2.isAsync) = eepromWrOpClks
      ∧ r.eeprom.stor.data
        = Function.update q.eeprom.stor.data (s.eeprom.addr - q.eeprom.stor.base) s.eeprom.eedr

/-- A step from the state after a path -/
theorem EEState.cellsChange
    {taken : List (Peripherals × IoEvent)} {q r : Peripherals} {e : IoEvent} (h : EEState taken q)
    (hstep : IoStep e q r) :
  CellsChange taken q e r
  := by
  intro hne
  obtain ⟨hmask, hidle | ⟨s, after, hstrobed, hle, hpending⟩⟩ := h
  · exact absurd (congrArg Storage.data (hidle.step hmask hstep).1) hne
  · by_cases hreset : e.resets .eeprom q = true
    · exact absurd (congrArg Storage.data (hstep.eeprom_reset hreset).1) hne
    · obtain ⟨-, -, hr⟩ := hpending.step hmask hstep (eq_false_of_ne_true hreset)
      split at hr
      · next hasync =>
        split at hr
        · exact absurd (congrArg Storage.data hr.1) hne
        · next hpos =>
          cases e with
          | async =>
            use rfl, s, after, hstrobed, by omega
            rw [hr.1]
          | _ => contradiction
      · exact absurd (congrArg Storage.data hr.1) hne

/-- The pass that completes a write operation -/
theorem EEState.completes
    {before after : List (Peripherals × IoEvent)} {s q r : Peripherals} {strobe : IoEvent}
    (h : EEState before s) (hstrobe : strobe.strobesEEWE s = true)
    (hpath : Path IoStep s ((s, strobe) :: after) q)
    (hreset : ∀ x ∈ after, x.2.resets .eeprom x.1 = false)
    (hpasses : after.countP (·.2.isAsync) = eepromWrOpClks) (hstep : IoStep .async q r) :
  r.eeprom.stor.data
    = Function.update q.eeprom.stor.data (s.eeprom.addr - q.eeprom.stor.base) s.eeprom.eedr
  := by
  obtain ⟨hmask, hidle | ⟨_, _, -, -, hpending⟩⟩ := h
  · cases hpath with
    | cons hst hafter =>
      obtain ⟨-, hm, ht⟩ := hidle.step hmask hst
      rw [if_pos hstrobe] at ht
      obtain ⟨hq, hmq⟩ := EEPending.path hafter ht (by rw [hm]; exact hmask) hreset
        (Int.le_of_eq hpasses)
      rw [hpasses, Int.sub_self] at hq
      obtain ⟨-, -, hr⟩ := hq.step hmq hstep rfl
      rw [if_pos (show IoEvent.isAsync .async = true from rfl), if_neg (Int.lt_irrefl 0)] at hr
      rw [hr.1]
  · cases hpath with
    | cons hst hafter =>
      have hno : strobe.resets .eeprom s = false := by
        cases strobe with
        | write => rfl
        | _ => contradiction
      rw [(hpending.step hmask hst hno).1] at hstrobe
      contradiction

/-- In every run of an EEPROM with the EEMWE function in which no reset comes while a callback of
a write operation is queued, a step changes the cells only by the pass that completes a write
operation, every write operation without a reset completes, and a strobe of EERE loads EEDR with
the addressed cell. -/
theorem eeprom_cells
    {p q : Peripherals} {taken : List (Peripherals × IoEvent)}
    (hmask : p.eeprom.eecrMask &&& maskEEMWE ≠ 0) (hidle : EEIdle p) (hpath : Path IoStep p taken q)
    (hreset : ∀ x ∈ taken, ResetsIdle x.1 x.2) :
  (∀ e r, IoStep e q r → CellsChange taken q e r)
    ∧ (∀ s after r, Strobed taken s after → after.countP (·.2.isAsync) = eepromWrOpClks →
      IoStep .async q r →
      r.eeprom.stor.data
        = Function.update q.eeprom.stor.data (s.eeprom.addr - q.eeprom.stor.base) s.eeprom.eedr)
    ∧ (∀ e r, IoStep e q r → e.strobesEERE q = true →
      r.eeprom.eedr = q.eeprom.stor.data (q.eeprom.addr - q.eeprom.stor.base))
  := by
  have hstate {t : Peripherals} {taken : List (Peripherals × IoEvent)}
      (hpath : Path IoStep p taken t) (hreset : ∀ x ∈ taken, ResetsIdle x.1 x.2) :
      EEState taken t := by
    have hstart : EEState [] p := ⟨hmask, .inl hidle⟩
    exact hpath.invariant_history hreset (fun _ _ _ _ h hok hst => h.step hok hst) hstart
  have hq := hstate hpath hreset
  split_ands
  · exact fun e r hstep => hq.cellsChange hstep
  · rintro s after r ⟨before, strobe, rfl, hstrobe, hafter⟩ hpasses hstep
    obtain ⟨t, hbefore, hst, hrest⟩ := hpath.of_append_cons
    rw [List.forall_mem_append] at hreset
    exact (hstate hbefore hreset.1).completes hstrobe (hrest.cons hst) hafter hpasses hstep
  · intro e r hstep hstrobe
    cases e with
    | write addr val =>
      obtain ⟨hat, haddr, hval⟩ := of_decide_eq_true hstrobe
      obtain ⟨_, _, heq, hw⟩ := hstep.eeprom_written hq.1 (decide_eq_true hat)
      cases heq
      exact hw.eere haddr hval
    | _ => contradiction

/-- An EEPROM of 512 bytes with the EEMWE function, as the definitions of the devices attach it -/
def eepromPeripherals : Peripherals :=
  { (default : Peripherals) with
    vdevAt := fun addr => if 0x3c ≤ addr ∧ addr ≤ 0x3f then some .eeprom else none
    eeprom := { (default : EEProm) with
      stor := { base := 0, size := 512, data := fun _ => 0xff }
      eecrMask := 0x07 } }

/-- EEMWE, EEWE, a reset, and a pass: cell 0 becomes 0. -/
theorem eeprom_cells_reset :
  ∃ p q r e taken, p.eeprom.eecrMask &&& maskEEMWE ≠ 0 ∧ EEIdle p ∧ Path IoStep p taken q
    ∧ IoStep e q r ∧ ¬ CellsChange taken q e r
  := by
  have hcells : ((exec IoEvent.next (fun _ _ => true)
      [.write 0x3c 0x04, .write 0x3c 0x02, .reset 0x3c] eepromPeripherals).bind
      fun q => (IoEvent.next .async q).map fun r =>
        (q.eeprom.stor.data 0, r.eeprom.stor.data 0)) = some (0xff, 0) := by decide +kernel
  obtain ⟨q, hq, hcells⟩ := Option.bind_eq_some_iff.mp hcells
  obtain ⟨r, hr, hcells⟩ := Option.map_eq_some_iff.mp hcells
  obtain ⟨hq0, hr0⟩ := Prod.mk.inj hcells
  obtain ⟨taken, hpath, hevents, -⟩ := exec_path_events IoStep.of_next hq
  use eepromPeripherals, q, r, .async, taken, by decide, ⟨rfl, rfl⟩, hpath, .of_next _ q r hr
  intro h
  have hne : r.eeprom.stor.data ≠ q.eeprom.stor.data := by
    intro heq
    rw [heq, hq0] at hr0
    contradiction
  obtain ⟨-, s, after, ⟨before, strobe, htaken, -⟩, hpasses, -⟩ := h hne
  have hlength := congrArg List.length hevents
  rw [htaken, List.map_append, List.map_cons, List.length_append, List.length_cons,
    List.length_map, List.length_map] at hlength
  have hle := List.countP_le_length (p := fun x => x.2.isAsync) (l := after)
  have hthree : before.length + (after.length + 1) = 3 := hlength
  rw [eepromWrOpClks] at hpasses
  omega

/-- The cell 5 is written, and read back. -/
theorem eeprom_cells_write :
  ∃ taken q r t, Path IoStep eepromPeripherals taken q
    ∧ taken.map Prod.snd = [.write 0x3e 5, .write 0x3d 0xab, .write 0x3c 0x04]
      ++ .write 0x3c 0x02 :: List.replicate 2500 .async
    ∧ IoStep .async q r ∧ r.eeprom.stor.data = Function.update q.eeprom.stor.data 5 0xab
    ∧ IoStep (.write 0x3c 0x01) r t ∧ t.eeprom.eedr = 0xab
  := by
  obtain ⟨s, s', stor, data, hs, hs', haddr, heedr, hstrobe, hcbs, hclk, hat, hbase, hval, heewe,
      hdiff, hstor, hdata⟩ : ∃ s s' stor data,
      exec IoEvent.next (fun _ _ => true) [.write 0x3e 5, .write 0x3d 0xab, .write 0x3c 0x04]
        eepromPeripherals = some s
      ∧ IoEvent.next (.write 0x3c 0x02) s = some s' ∧ s.eeprom.addr = 5 ∧ s.eeprom.eedr = 0xab
      ∧ (IoEvent.write 0x3c 0x02).strobesEEWE s = true ∧ s'.cbs.asyncCb = [.eepromWrOpCb]
      ∧ s'.eeprom.wrOpClk = (2500 : Nat) ∧ s'.vdevAt 0x3c = some .eeprom
      ∧ s'.eeprom.stor.base = 0 ∧ 0x01 &&& s'.eeprom.eecrMask = maskEERE
      ∧ s'.eeprom.eecr &&& ~~~maskEEWE &&& maskEEWE = 0 ∧ s'.eeprom.addr - stor.base = 5
      ∧ storageWriteb s'.eeprom.stor s'.eeprom.addr s'.eeprom.eedr = .ok stor
      ∧ storageReadb stor s'.eeprom.addr = .ok data :=
    ⟨_, _, _, _, rfl, rfl, rfl, rfl, rfl, rfl, rfl, rfl, rfl, rfl, rfl, rfl, rfl, rfl⟩
  obtain ⟨before, hbefore, hbeforeEvents, -⟩ := exec_path_events IoStep.of_next hs
  obtain ⟨after, q, r, hafter, hafterEvents, hqstor, hr, hrat, hree⟩ :=
    exists_path_complete hcbs hclk hstor
  rw [← hrat] at hat
  have hreewe : r.eeprom.eecr &&& maskEEWE = 0 := by
    rw [hree]
    exact heewe
  have hreval : 0x01 &&& r.eeprom.eecrMask = maskEERE := by
    rw [hree]
    exact hval
  have hredata : storageReadb r.eeprom.stor r.eeprom.addr = .ok data := by
    rw [hree]
    exact hdata
  obtain ⟨t, ht⟩ := next_write_eere hat hreewe hreval hredata
  have hpath := hbefore.append (.cons (.of_next _ _ _ hs') hafter)
  have hevents : (before ++ (s, .write 0x3c 0x02) :: after).map Prod.snd
      = [.write 0x3e 5, .write 0x3d 0xab, .write 0x3c 0x04]
        ++ .write 0x3c 0x02 :: List.replicate 2500 .async := by
    rw [List.map_append, List.map_cons, hbeforeEvents, hafterEvents]
  have hafterNone : ∀ x ∈ after, x.2.resets .eeprom x.1 = false :=
    no_resets hafterEvents (by simp [-List.reduceReplicate])
  have hnone : ∀ x ∈ before ++ (s, .write 0x3c 0x02) :: after, ResetsIdle x.1 x.2 := by
    intro x hx hreset
    rw [no_resets hevents (by simp [-List.reduceReplicate]) x hx] at hreset
    contradiction
  have hnone' : ∀ x ∈ before ++ (s, .write 0x3c 0x02) :: after ++ [(q, .async)],
      ResetsIdle x.1 x.2 := by
    rw [List.forall_mem_append, List.forall_mem_singleton]
    exact ⟨hnone, nofun⟩
  have hwritten : r.eeprom.stor.data = Function.update q.eeprom.stor.data 5 0xab := by
    have hcount : after.countP (·.2.isAsync) = 2500 := by
      rw [← Function.comp_def, ← List.countP_map, hafterEvents, List.countP_replicate]
      rfl
    have hcell := (eeprom_cells (by decide) ⟨rfl, rfl⟩ hpath hnone).2.1 s after r
      ⟨before, _, rfl, hstrobe, hafterNone⟩ (by rw [hcount]; rfl) (.of_next _ _ _ hr)
    rw [hcell, haddr, heedr, hqstor, hbase]
    rfl
  have hread := (eeprom_cells (by decide) ⟨rfl, rfl⟩ (hpath.append (.single (.of_next _ _ _ hr)))
    hnone').2.2 _ t (.of_next _ _ _ ht) (decide_eq_true ⟨hat, rfl, by rw [hreval]; decide⟩)
  refine ⟨_, q, r, t, hpath, hevents, .of_next _ _ _ hr, hwritten, .of_next _ _ _ ht, ?_⟩
  have hindex : r.eeprom.addr - r.eeprom.stor.base = 5 := by
    rw [hree]
    exact hdiff
  rw [hread, hwritten, hindex, Function.update_self]

end SimulAvr
