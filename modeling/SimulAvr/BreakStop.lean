import SimulAvr.Cells
import SimulAvr.Device
import SimulAvr.Interrupts
import SimulAvr.Target

/-!
# Stops at breakpoints

A step that stops at BREAK executes nothing and takes no clock, but still runs the asynchronous
callbacks and services an interrupt.  It leaves the registers, the data memory and the clock
exactly when neither of these touches them (`break_stop_clean`).
-/

namespace SimulAvr

open Program

section

variable {δ : Type} [IoDevices δ]

/-! ### Data memory -/

omit [IoDevices δ] in
/-- The value of a program in two cores that it does not tell apart. -/
theorem read_eq_of_respects
    {α : Type} {R : AvrCore δ → AvrCore δ → Prop} {x : CoreM δ α} (hx : Respects R x)
    {c d : AvrCore δ} (h : R c d) :
  c.read x = d.read x
  := by
  have hxs := hx c d h
  rw [AvrCore.read, AvrCore.read]
  cases hc : x.run c with
  | error e =>
    cases hd : x.run d with
    | error e' => rfl
    | ok r =>
      rw [hc, hd] at hxs
      contradiction
  | ok r =>
    cases hd : x.run d with
    | error e' =>
      rw [hc, hd] at hxs
      contradiction
    | ok r' =>
      rw [hc, hd] at hxs
      apply congrArg some hxs.1

/-- Data memory reads the same. -/
def AvrCore.SameData (c d : AvrCore δ) : Prop :=
  ∀ addr, c.read (memRead addr) = d.read (memRead addr)

theorem SameCells.sameData
    {c d : AvrCore δ} (h : SameCells c d) :
  c.SameData d
  := by
  intro addr
  apply read_eq_of_respects (memRead_respects (fun _ _ h => h) _ addr) h
  rintro c d ⟨hmem, hgpwr, hsreg, hsp, hrampz, hsram, hspm, -⟩ dev
  constructor <;> first | assumption | rfl

/-! ### The reset -/

/-- A reset of a virtual device treats cores with the same cells alike. -/
theorem SameCells.vdevReset
    {c d : AvrCore δ} (h : SameCells c d) (addr : Int) (vdev : VDevice) :
  SameCells (c.vdevReset addr vdev) (d.vdevReset addr vdev)
  := by
  obtain ⟨hmem, hgpwr, hsreg, hsp, hrampz, hsram, hspm, hdev⟩ := h
  cases vdev with
  | gpwr =>
    obtain ⟨display, hc⟩ := AvrCore.vdevReset_gpwr_eq c addr
    obtain ⟨display', hd⟩ := AvrCore.vdevReset_gpwr_eq d addr
    rw [hc, hd]
    constructor <;> first | assumption | rfl
  | stackPointer =>
    constructor <;> try assumption
    simp only [AvrCore.vdevReset, AvrCore.displaySend, hsp]
  | io =>
    constructor <;> try assumption
    simp only [AvrCore.vdevReset, hdev]
  | _ => constructor <;> first | assumption | rfl

theorem SameCells.memReset
    {c d : AvrCore δ} (h : SameCells c d) :
  SameCells c.memReset d.memReset
  := by
  have hloop (i n : Nat) (c d : AvrCore δ) (h : SameCells c d) :
      SameCells (c.memResetFrom i n) (d.memResetFrom i n) := by
    induction n generalizing c d i with
    | zero => apply h
    | succ n ih =>
      rw [AvrCore.memResetFrom, AvrCore.memResetFrom, h.mem]
      split
      · apply ih _ _ _ h
      · apply ih _ _ _ (h.vdevReset _ _)
  rw [AvrCore.memReset, AvrCore.memReset, h.mem]
  apply hloop _ _ _ _ h

/-! ### A step at BREAK -/

/-- The interrupts pending after the events of callbacks. -/
def AvrCore.irqPendingAfter (c : AvrCore δ) (events : List DevEvent) :
    UniqueList IntVect.addr :=
  events.foldl (fun pending event =>
    match event with
    | .irqRaise irq => pending.add (c.irqVtable irq)) c.irqPending

omit [IoDevices δ] in
/-- The events of callbacks change the pending interrupts and send messages. -/
theorem foldl_devEvent
    (c : AvrCore δ) (events : List DevEvent) :
  ∃ display, events.foldl AvrCore.devEvent c =
    { c with irqPending := c.irqPendingAfter events, display := display }
  := by
  induction events generalizing c with
  | nil =>
    use c.display
    rfl
  | cons event events ih =>
    obtain ⟨display, h⟩ := ih (c.devEvent event)
    use display
    rw [List.foldl_cons, h]
    cases event
    rfl

/-- A pass over the asynchronous callbacks. -/
theorem avrCoreAsyncCbExec_eq_ok
    {c c' : AvrCore δ} (h : avrCoreAsyncCbExec.run c = .ok ((), c')) :
  ∃ dev events, IoDevices.asyncCbExec c.dev = .ok (dev, events) ∧
    c' = events.foldl AvrCore.devEvent { c with dev := dev }
  := by
  rw [avrCoreAsyncCbExec, run_bind_of_ok (run_gets _ c)] at h
  cases hcb : IoDevices.asyncCbExec c.dev with
  | error e =>
    rw [hcb] at h
    contradiction
  | ok r =>
    obtain ⟨dev, events⟩ := r
    rw [hcb] at h
    cases h
    exact ⟨dev, events, rfl, rfl⟩

/-- A step at BREAK: the core is as it was, but for the callbacks and the interrupts. -/
theorem break_step_eq_ok
    {c c' : AvrCore δ} (hbreak : flashRead c.flash c.pc = .ok breakOpcode)
    (hstep : avrCoreStep.run c = .ok (.breakPoint, c')) :
  c.state ≠ .sleep ∧ ∃ dev events display, IoDevices.asyncCbExec c.dev = .ok (dev, events) ∧
    avrCoreCheckInterrupts.run { c.fetched with
      dev := dev, irqPending := c.irqPendingAfter events, display := display } = .ok ((), c')
  := by
  obtain ⟨c₁, c₂, c₃, hexec, hclocks, hasync, hcheck⟩ := avrCoreStep_eq_ok.mp hstep
  rw [execUnlessAsleep, run_bind_of_ok (run_gets _ c)] at hexec
  split at hexec
  · cases hexec
  · next hstate =>
    refine ⟨hstate, ?_⟩
    have hrun : execNextInstruction.run c = .ok (.breakPoint, c.fetched) := by
      rw [execNextInstruction_of_fetch hbreak]
      rfl
    rw [hrun] at hexec
    cases hexec
    cases hclocks
    rw [if_neg (by decide)] at hcheck
    obtain ⟨dev, events, hcb, rfl⟩ := avrCoreAsyncCbExec_eq_ok hasync
    obtain ⟨display, hevents⟩ := foldl_devEvent { c.fetched with dev := dev } events
    refine ⟨dev, events, display, hcb, ?_⟩
    rw [hevents] at hcheck
    apply hcheck

/-- What a stop leaves. -/
structure AvrCore.Clean (c c' : AvrCore δ) : Prop where
  pc : c'.pc = c.pc
  sp : c'.sp = c.sp
  sreg : c'.sreg = c.sreg
  gpwr : c'.gpwr = c.gpwr
  ck : c'.ck = c.ck
  data : c.SameData c'

/-- A reset would leave the core as it is, when its peripherals are `dev`. -/
structure AvrCore.AtReset (c : AvrCore δ) (dev : δ) : Prop where
  pc : c.pc = adjustPCToMax c.pcMax 0
  gpwr : c.mem.Attached .gpwr → c.gpwr = fun _ => 0
  sp : c.mem.Attached .stackPointer → (c.sp.spl, c.sp.sph) = (0, 0)
  sreg : c.mem.Attached .sreg → c.sreg = 0
  I : c.sregGetBit SREG.I = false
  data : c.SameData { c with dev := dev }.memReset

/-- No interrupt is serviced after the asynchronous callbacks, which leave the registers of the
peripherals, or the reset is, which has nothing to change. -/
def AvrCore.StopsClean (c : AvrCore δ) : Prop :=
  ∀ dev events, IoDevices.asyncCbExec c.dev = .ok (dev, events) →
    match (c.irqPendingAfter events).entries with
    | [] => c.SameData { c with dev := dev }
    | irq :: _ =>
      if irq.addr = irqResetAddr then c.AtReset dev
      else c.sregGetBit SREG.I = false ∧ c.SameData { c with dev := dev }

/-- A core that differs in parts that no program reads from data memory. -/
theorem clean_iff_sameData
    {c c' : AvrCore δ} {dev : δ} (hpc : c'.pc = c.pc) (hck : c'.ck = c.ck)
    (hcells : SameCells c' { c with dev := dev }) :
  c.Clean c' ↔ c.SameData { c with dev := dev }
  := by
  constructor
  · intro h addr
    rw [h.data addr]
    apply hcells.sameData addr
  · intro h
    constructor
    · apply hpc
    · apply hcells.sp
    · apply hcells.sreg
    · apply hcells.gpwr
    · apply hck
    · intro addr
      rw [h addr, hcells.sameData addr]

/-- A reset is clean exactly when the core is at reset. -/
theorem clean_reset_iff
    {c d : AvrCore δ} {dev : δ} (hpcMax : d.pcMax = c.pcMax) (hck : d.ck = c.ck)
    (hcells : SameCells d { c with dev := dev }) (hI : d.reset.sregGetBit SREG.I = false) :
  c.Clean d.reset ↔ c.AtReset dev
  := by
  obtain ⟨display, heq⟩ := AvrCore.reset_eq d
  have hframe := AvrCore.reset_frame d
  have hmem : d.mem = c.mem := hcells.mem
  have hgpwr : d.reset.gpwr = c.gpwr ↔ (c.mem.Attached .gpwr → c.gpwr = fun _ => 0) := by
    rw [heq, ← hmem, ← show d.gpwr = c.gpwr from hcells.gpwr]
    apply AvrCore.memReset_field_iff AvrCore.vdevReset_gpwr
  have hsreg : d.reset.sreg = c.sreg ↔ (c.mem.Attached .sreg → c.sreg = 0) := by
    rw [heq, ← hmem, ← show d.sreg = c.sreg from hcells.sreg]
    apply AvrCore.memReset_field_iff AvrCore.vdevReset_sreg
  have hsp : (d.reset.sp.spl, d.reset.sp.sph) = (c.sp.spl, c.sp.sph) ↔
      (c.mem.Attached .stackPointer → (c.sp.spl, c.sp.sph) = (0, 0)) := by
    rw [heq, ← hmem, ← show d.sp = c.sp from hcells.sp]
    apply AvrCore.memReset_field_iff (f := fun c => (c.sp.spl, c.sp.sph)) AvrCore.vdevReset_sp
  have hcells' : SameCells d.reset { c with dev := dev }.memReset := by
    rw [heq]
    apply SameCells.memReset
    obtain ⟨hmem, hgpwr, hsreg, hsp, hrampz, hsram, hspm, hdev⟩ := hcells
    constructor <;> assumption
  constructor
  · intro h
    constructor
    · rw [← h.pc, ← hpcMax, (AvrCore.reset_spec d).pc]
    · apply hgpwr.mp h.gpwr
    · apply hsp.mp
      rw [h.sp]
    · apply hsreg.mp h.sreg
    · rw [AvrCore.sregGetBit, ← h.sreg]
      apply hI
    · intro addr
      rw [h.data addr, hcells'.sameData addr]
  · intro h
    constructor
    · rw [h.pc, ← hpcMax, (AvrCore.reset_spec d).pc]
    · obtain ⟨hspl, hsph⟩ := Prod.mk.inj (hsp.mpr h.sp)
      have haddr : d.reset.sp.splAddr = c.sp.splAddr := by
        rw [← show d.sp = c.sp from hcells.sp]
        apply hframe.splAddr
      change StackPointer.mk _ _ _ = StackPointer.mk _ _ _
      rw [haddr, hspl, hsph]
    · apply hsreg.mpr h.sreg
    · apply hgpwr.mpr h.gpwr
    · rw [hframe.ck, ← hck]
      rfl
    · intro addr
      rw [h.data addr, hcells'.sameData addr]

/-- Vectoring to an interrupt clears I. -/
theorem vectorTo_sreg
    {c c' : AvrCore δ} {irq : IntVect} (h : (vectorTo irq).run c = .ok ((), c')) :
  c'.sregGetBit SREG.I = false
  := by
  obtain ⟨c₁, -, -, rfl⟩ := vectorTo_eq_ok h
  change (setBitInByte c₁.sreg SREG.I false).getLsbD SREG.I = false
  rw [getLsbD_setBitInByte _ (by decide), if_pos rfl]

/-- A reset does not set I. -/
theorem reset_sreg_I
    {c : AvrCore δ} (h : c.sregGetBit SREG.I = false) :
  c.reset.sregGetBit SREG.I = false
  := by
  by_cases hattached : c.mem.Attached .sreg
  · rw [AvrCore.sregGetBit, (AvrCore.reset_spec c).sreg hattached]
    rfl
  · obtain ⟨display, heq⟩ := AvrCore.reset_eq c
    have hsreg : c.reset.sreg = c.sreg := by
      rw [heq]
      apply (AvrCore.memReset_field_iff AvrCore.vdevReset_sreg _).mpr
      intro h
      contradiction
    rw [AvrCore.sregGetBit, hsreg]
    apply h

/-- A step that stops at BREAK leaves PC, SP, SREG, the working registers, the data memory and
the clock as they are exactly when no interrupt is pending after the asynchronous callbacks or
the one that is selected is masked, and the callbacks leave the registers of the peripherals;
or when the one that is selected is RESET and the core is at reset. -/
theorem break_stop_clean
    (c c' : AvrCore δ) (hbreak : flashRead c.flash c.pc = .ok breakOpcode)
    (hstep : avrCoreStep.run c = .ok (.breakPoint, c')) :
  c.Clean c' ↔ c.StopsClean
  := by
  obtain ⟨hstate, dev, events, display, hcb, hcheck⟩ := break_step_eq_ok hbreak hstep
  have honly : c.StopsClean ↔ match (c.irqPendingAfter events).entries with
      | [] => c.SameData { c with dev := dev }
      | irq :: _ =>
        if irq.addr = irqResetAddr then c.AtReset dev
        else c.sregGetBit SREG.I = false ∧ c.SameData { c with dev := dev } := by
    constructor
    · intro h
      apply h dev events hcb
    · intro h dev' events' hcb'
      rw [hcb] at hcb'
      cases hcb'
      apply h
  rw [honly]
  generalize hc₃ : { c.fetched with
    dev := dev, irqPending := c.irqPendingAfter events, display := display } = c₃ at hcheck
  have hcells : SameCells c₃ { c with dev := dev } := by
    subst hc₃
    constructor <;> rfl
  have hsame : c.Clean c₃ ↔ c.SameData { c with dev := dev } := by
    apply clean_iff_sameData _ _ hcells
    · subst hc₃
      rfl
    · subst hc₃
      rfl
  have hpending : c₃.irqPending = c.irqPendingAfter events := by
    subst hc₃
    rfl
  rw [← hpending]
  cases hentries : c₃.irqPending.entries with
  | nil =>
    rw [check_of_nil hentries] at hcheck
    cases hcheck
    apply hsame
  | cons irq irqs =>
    have hstate' : c₃.state ≠ .sleep := by
      subst hc₃
      apply hstate
    rw [check_of_cons hstate' hentries] at hcheck
    obtain ⟨-, hcases⟩ := takeInterrupt_cases hcheck
    have hI₃ : c₃.sregGetBit SREG.I = c.sregGetBit SREG.I := by
      rw [AvrCore.sregGetBit, show c₃.sreg = c.sreg from hcells.sreg]
      rfl
    -- vectoring to the interrupt clears I, so that it was clear if SREG is as before
    have hclear {d : AvrCore δ} (hvector : (vectorTo irq).run d = .ok ((), c'))
        (hclean : c.Clean c') : c.sregGetBit SREG.I = false := by
      rw [AvrCore.sregGetBit, ← hclean.sreg]
      apply vectorTo_sreg hvector
    by_cases haddr : irq.addr = irqResetAddr
    · rw [AvrCore.resetFor, if_pos haddr] at hcases
      simp only [if_pos haddr]
      obtain ⟨hI, rfl⟩ | ⟨hI, hvector⟩ := hcases
      · apply clean_reset_iff _ _ hcells hI
        · subst hc₃
          rfl
        · subst hc₃
          rfl
      · have hset : c.sregGetBit SREG.I ≠ false := by
          intro h
          rw [reset_sreg_I (hI₃.trans h)] at hI
          contradiction
        constructor
        · intro hclean
          exact absurd (hclear hvector hclean) hset
        · intro hreset
          exact absurd hreset.I hset
    · rw [AvrCore.resetFor, if_neg haddr, hI₃] at hcases
      simp only [if_neg haddr]
      obtain ⟨hI, rfl⟩ | ⟨hI, hvector⟩ := hcases
      · rw [hsame, hI]
        simp
      · rw [hI]
        constructor
        · intro hclean
          rw [hclear hvector hclean] at hI
          contradiction
        · rintro ⟨h, -⟩
          contradiction

end

/-- A stop of the at90s2313 with INT0 pending, which is masked and stays pending. -/
theorem break_stop_clean_at90s2313 :
  ∃ c', avrCoreStep.run ((AvrCore.atOpcode 8 breakOpcode).irqRaise 1) = .ok (.breakPoint, c') ∧
    c'.irqPending.entries = [vtabAt90s2313 1] ∧
    ((AvrCore.atOpcode 8 breakOpcode).irqRaise 1).Clean c'
  := by
  obtain ⟨c', hrun, hpending⟩ : ∃ c',
      avrCoreStep.run ((AvrCore.atOpcode 8 breakOpcode).irqRaise 1) = .ok (.breakPoint, c') ∧
      c'.irqPending.entries = [vtabAt90s2313 1] := ⟨_, rfl, rfl⟩
  refine ⟨c', hrun, hpending, ?_⟩
  apply (break_stop_clean ((AvrCore.atOpcode 8 breakOpcode).irqRaise 1) c' rfl hrun).mpr
  intro dev events hcb
  cases hcb
  exact ⟨rfl, fun _ => rfl⟩

/-- A stop at BREAK with INT0 pending and I set vectors to the interrupt. -/
theorem break_stop_not_clean :
  ¬ ∀ c c' : AvrCore Unit, flashRead c.flash c.pc = .ok breakOpcode →
    avrCoreStep.run c = .ok (.breakPoint, c') → c.Clean c'
  := by
  intro h
  let c : AvrCore Unit := ((AvrCore.atOpcode 8 breakOpcode).sregSet 0x80).irqRaise 1
  have hbreak : flashRead c.flash c.pc = .ok breakOpcode := by
    decide +kernel
  have hstep : (avrCoreStep.run c).toOption.map (fun r => (r.1, r.2.pc))
      = some (.breakPoint, 1) := by
    decide +kernel
  cases hrun : avrCoreStep.run c with
  | error e =>
    rw [hrun] at hstep
    contradiction
  | ok r =>
    obtain ⟨ret, c'⟩ := r
    rw [hrun] at hstep
    obtain ⟨rfl, hpc⟩ := Prod.mk.inj (Option.some.inj hstep)
    have hclean := (h c c' hbreak hrun).pc
    rw [show c'.pc = 1 from hpc, show c.pc = 8 from rfl] at hclean
    contradiction

end SimulAvr
