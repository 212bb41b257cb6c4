import SimulAvr.Breakpoints
import SimulAvr.Cells
import SimulAvr.Reset

/-!
# Cores with different flash

Two cores that differ in flash, breakpoints and messages to the display alone are `Twins`.
Accesses to anything but the flash return the same values on twins and leave them twins, with
the same flash as before.
-/

namespace SimulAvr

open Program

section

variable {δ : Type} {f f' : Flash} {b b' : UniqueList BreakPt.pc} {c d : AvrCore δ}

/-- The core `c` has the flash `f` and the breakpoints `b`, and `d` has `f'` and `b'`; but for
these and the messages to the display they are the same. -/
structure Twins (f f' : Flash) (b b' : UniqueList BreakPt.pc) (c d : AvrCore δ) : Prop where
  flash : c.flash = f
  flash' : d.flash = f'
  breakpoints : c.breakpoints = b
  breakpoints' : d.breakpoints = b'
  bare : c.bare = d.bare

/-- The twin of a core. -/
def AvrCore.twin (c : AvrCore δ) (f : Flash) (b : UniqueList BreakPt.pc)
    (display : List DisplayMsg) : AvrCore δ :=
  { c with flash := f, breakpoints := b, display := display }

namespace Twins

theorem eq_twin
    (h : Twins f f' b b' c d) :
  d = c.twin f' b' d.display
  := by
  have hd : d = d.bare.twin d.flash d.breakpoints d.display := rfl
  rw [← h.bare, h.flash', h.breakpoints'] at hd
  apply hd

theorem pc_eq
    (h : Twins f f' b b' c d) :
  c.pc = d.pc
  := by
  rw [h.eq_twin]
  rfl

/-- A function of the core that leaves flash and breakpoints, and reads neither these nor the
messages, keeps twins. -/
theorem map
    {g : AvrCore δ → AvrCore δ} (hflash : ∀ c, (g c).flash = c.flash)
    (hbreakpoints : ∀ c, (g c).breakpoints = c.breakpoints)
    (hbare : ∀ c f b display, (g (c.twin f b display)).bare = (g c).bare)
    (h : Twins f f' b b' c d) :
  Twins f f' b b' (g c) (g d)
  := by
  constructor
  · rw [hflash, h.flash]
  · rw [hflash, h.flash']
  · rw [hbreakpoints, h.breakpoints]
  · rw [hbreakpoints, h.breakpoints']
  · rw [h.eq_twin, hbare]

theorem gets
    {α : Type} {g : AvrCore δ → α} (hg : ∀ c f b display, g (c.twin f b display) = g c) :
  Respects (Twins f f' b b') (gets g)
  := by
  apply gets_respects
  intro c d h
  rw [h.eq_twin, hg]

theorem update
    {g : AvrCore δ → AvrCore δ} (hflash : ∀ c, (g c).flash = c.flash)
    (hbreakpoints : ∀ c, (g c).breakpoints = c.breakpoints)
    (hbare : ∀ c f b display, (g (c.twin f b display)).bare = (g c).bare) :
  Respects (Twins f f' b b') (update g)
  := by
  apply update_respects
  intro c d h
  apply h.map hflash hbreakpoints hbare

theorem sameCells
    (h : Twins f f' b b' c d) :
  SameCells c d
  := by
  rw [h.eq_twin]
  constructor <;> rfl

theorem gpwrSet
    (reg : Int) (val : Byte) :
  Respects (Twins f f' b b') (avrCoreGpwrSet reg val : CoreM δ Unit)
  := by
  intro c d h
  by_cases hreg : 0 ≤ reg ∧ reg < 32
  · obtain ⟨r, rfl⟩ := exists_fin_of_mem hreg
    rw [run_avrCoreGpwrSet, run_avrCoreGpwrSet]
    refine ⟨rfl, ?_⟩
    apply h.map (g := fun c => c.gpwrSet r val) <;> intros <;> rfl
  · have herror (c : AvrCore δ) :
        (avrCoreGpwrSet reg val).run c = .error (.registerOutOfBounds reg) := dif_neg hreg
    rw [herror, herror]

variable [IoDevices δ]

theorem vdevWrite
    (vdev : VDevice) (addr : Int) (val : Byte) :
  Respects (Twins f f' b b') (vdevWrite vdev addr val : CoreM δ Unit)
  := by
  cases vdev with
  | gpwr => apply gpwrSet
  | sreg => apply update <;> intros <;> rfl
  | stackPointer =>
    apply Respects.bind (gets fun _ _ _ _ => rfl)
    intro sp
    apply Respects.ite
    · intro _
      apply update <;> intros <;> rfl
    · intro _
      apply Respects.ite
      · intro _
        apply update <;> intros <;> rfl
      · intro _
        apply Respects.throw
  | rampz => apply update <;> intros <;> rfl
  | sram =>
    apply Respects.bind
    · apply update <;> intros <;> rfl
    · intro _
      apply Respects.bind (gets fun _ _ _ _ => rfl)
      intro stor
      apply Respects.bind (liftExcept_respects _)
      intro stor'
      apply update <;> intros <;> rfl
  | spm =>
    apply Respects.bind (gets fun _ _ _ _ => rfl)
    intro spm
    apply Respects.bind (avrErrorIf_respects _ _ _)
    intro _
    apply Respects.bind (avrErrorIf_respects _ _ _)
    intro _
    apply Respects.bind (avrErrorIf_respects _ _ _)
    intro _
    apply Respects.bind (avrErrorIf_respects _ _ _)
    intro _
    apply Respects.bind (avrErrorIf_respects _ _ _)
    intro _
    apply update <;> intros <;> rfl
  | io =>
    apply Respects.bind (gets fun _ _ _ _ => rfl)
    intro dev
    apply Respects.bind (liftExcept_respects _)
    intro dev'
    apply update <;> intros <;> rfl

theorem memRead
    (addr : Int) :
  Respects (Twins f f' b b') (memRead addr : CoreM δ Byte)
  := by
  apply memRead_respects (fun _ _ h => h.sameCells)
  intro c d h dev
  apply h.map (g := fun c => { c with dev := dev }) <;> intros <;> rfl

theorem memWrite
    (addr : Int) (val : Byte) :
  Respects (Twins f f' b b') (memWrite addr val : CoreM δ Unit)
  := by
  apply Respects.bind (memGetCell_respects (fun _ _ h => h.sameCells) addr)
  rintro ⟨_ | vdev, rdMask, wrMask⟩
  · apply Respects.pure
  · apply Respects.bind
    · apply update
      · intro c
        split <;> rfl
      · intro c
        split <;> rfl
      · intro c f b display
        change (if memIsIoReg c.mem addr then _ else _ : AvrCore δ).bare = _
        split <;> rfl
    · intro _
      apply vdevWrite

omit [IoDevices δ] in
/-- Reads of the same flash. -/
theorem flashRead
    (hflash : f = f') (addr : Int) :
  Respects (Twins f f' b b') (avrCoreFlashRead addr : CoreM δ Word)
  := by
  intro c d h
  have hsame : c.flash = d.flash := by rw [h.flash, h.flash', hflash]
  rw [run_avrCoreFlashRead, run_avrCoreFlashRead, hsame]
  cases SimulAvr.flashRead d.flash addr with
  | error e => rfl
  | ok word => exact ⟨rfl, h⟩

/-- The accesses that do not write the flash, and read only the word after the instruction, of
the same flash. -/
theorem access
    {S : Scope} {pc : Prop} (hoperand : S.operand → f = f') (hflash : ¬ S.flash) {α : Type}
    {x : CoreM δ α} (hx : Access S pc α x) :
  Respects (Twins f f' b b') x
  := by
  cases hx with
  | error h fmt args => apply Respects.throw
  | pcGet => apply gets fun _ _ _ _ => rfl
  | pcSize => apply gets fun _ _ _ _ => rfl
  | pcSet h val => apply update <;> intros <;> rfl
  | pcIncr h val => apply update <;> intros <;> rfl
  | instCKSSet val => apply update <;> intros <;> rfl
  | sregGet => apply gets fun _ _ _ _ => rfl
  | sregSet v => apply update <;> intros <;> rfl
  | sregGetBit b => apply gets fun _ _ _ _ => rfl
  | sregSetBit b v => apply update <;> intros <;> rfl
  | rampzGet => apply gets fun _ _ _ _ => rfl
  | rampzSet v =>
    apply update
    · intro c
      rw [AvrCore.rampzSet]
      split <;> rfl
    · intro c
      rw [AvrCore.rampzSet]
      split <;> rfl
    · intro c f b display
      change (if c.hasRampz then _ else _ : AvrCore δ).bare =
        (if c.hasRampz then _ else _ : AvrCore δ).bare
      split <;> rfl
  | eindGet => apply gets fun _ _ _ _ => rfl
  | gpwrGet reg => apply gpwrGet_respects fun _ _ h => h.sameCells
  | gpwrSet reg val => apply gpwrSet
  | spGet => apply gets fun _ _ _ _ => rfl
  | spSet val => apply update <;> intros <;> rfl
  | stackGet => apply gets fun _ _ _ _ => rfl
  | stackSet stack => apply update <;> intros <;> rfl
  | memRead h => apply memRead
  | memWrite h => apply memWrite
  | flashReadNext h =>
    apply Respects.bind (gets fun _ _ _ _ => rfl)
    intro pc
    apply flashRead (hoperand h)
  | flashRead h addr => contradiction
  | flashWrite h addr val => contradiction
  | spmGet => apply gets fun _ _ _ _ => rfl
  | spmDone pageBuffer => apply update <;> intros <;> rfl

/-- The programs built from such accesses. -/
theorem uses
    {S : Scope} {pc : Prop} (hoperand : S.operand → f = f') (hflash : ¬ S.flash) {α : Type}
    {x : CoreM δ α} (hx : Uses S pc x) :
  Respects (Twins f f' b b') x
  := hx.respects fun _ _ => access hoperand hflash

/-! ### The rest of a step -/

theorem vdevReset
    (h : Twins f f' b b' c d) (addr : Int) (vdev : VDevice) :
  Twins f f' b b' (c.vdevReset addr vdev) (d.vdevReset addr vdev)
  := by
  apply h.map (g := fun c => c.vdevReset addr vdev)
  · intro c
    cases vdev with
    | gpwr =>
      obtain ⟨display, h⟩ := AvrCore.vdevReset_gpwr_eq c addr
      rw [h]
    | _ => rfl
  · intro c
    cases vdev with
    | gpwr =>
      obtain ⟨display, h⟩ := AvrCore.vdevReset_gpwr_eq c addr
      rw [h]
    | _ => rfl
  · intro c f b display
    cases vdev with
    | gpwr =>
      obtain ⟨display₁, h₁⟩ := AvrCore.vdevReset_gpwr_eq c addr
      obtain ⟨display₂, h₂⟩ := AvrCore.vdevReset_gpwr_eq (c.twin f b display) addr
      rw [h₁, h₂]
      rfl
    | _ => rfl

theorem memReset
    (h : Twins f f' b b' c d) :
  Twins f f' b b' c.memReset d.memReset
  := by
  have hloop (i n : Nat) (c d : AvrCore δ) (h : Twins f f' b b' c d) :
      Twins f f' b b' (c.memResetFrom i n) (d.memResetFrom i n) := by
    induction n generalizing c d i with
    | zero => apply h
    | succ n ih =>
      rw [AvrCore.memResetFrom, AvrCore.memResetFrom, h.sameCells.mem]
      split
      · apply ih _ _ _ h
      · apply ih _ _ _ (h.vdevReset _ _)
  rw [AvrCore.memReset, AvrCore.memReset, h.sameCells.mem]
  apply hloop _ _ _ _ h

theorem reset
    (h : Twins f f' b b' c d) :
  Twins f f' b b' c.reset d.reset
  := by
  obtain ⟨display, hc⟩ := AvrCore.reset_eq c
  obtain ⟨display', hd⟩ := AvrCore.reset_eq d
  rw [hc, hd]
  apply memReset
  constructor
  · apply h.flash
  · apply h.flash'
  · apply h.breakpoints
  · apply h.breakpoints'
  · rw [h.eq_twin]
    rfl

omit [IoDevices δ] in
theorem devEvents
    (h : Twins f f' b b' c d) (events : List DevEvent) :
  Twins f f' b b' (events.foldl AvrCore.devEvent c) (events.foldl AvrCore.devEvent d)
  := by
  induction events generalizing c d with
  | nil => apply h
  | cons event events ih =>
    apply ih
    apply h.map (g := fun c => c.devEvent event)
    · intro c
      cases event
      rfl
    · intro c
      cases event
      rfl
    · intro c f b display
      cases event
      rfl

omit [IoDevices δ] in
/-- The passes over lists of callbacks. -/
theorem callbacks
    (x : Except DevError (δ × List DevEvent)) :
  Respects (Twins f f' b b') (do
    let (dev, events) ← liftDev x
    SimulAvr.update (fun c => events.foldl AvrCore.devEvent { c with dev := dev }) : CoreM δ Unit)
  := by
  apply Respects.bind (liftExcept_respects _)
  rintro ⟨dev, events⟩
  apply update_respects
  intro c d h
  apply devEvents
  apply h.map (g := fun c => { c with dev := dev }) <;> intros <;> rfl

theorem asyncCbExec :
  Respects (Twins f f' b b') (avrCoreAsyncCbExec : CoreM δ Unit)
  := by
  apply Respects.bind (gets fun _ _ _ _ => rfl)
  intro dev
  apply callbacks

theorem clkCbExec :
  Respects (Twins f f' b b') (avrCoreClkCbExec : CoreM δ Unit)
  := by
  intro c d h
  have hrun (c : AvrCore δ) : avrCoreClkCbExec.run c = (do
      let (dev, events) ← liftDev (IoDevices.clkCbExec c.ck c.dev)
      SimulAvr.update (fun c => events.foldl AvrCore.devEvent { c with dev := dev }) :
        CoreM δ Unit).run c := rfl
  have hsame : IoDevices.clkCbExec d.ck d.dev = IoDevices.clkCbExec c.ck c.dev := by
    rw [h.eq_twin]
    rfl
  rw [hrun, hrun, hsame]
  apply callbacks _ c d h

theorem propagateClocks
    (n : Nat) :
  Respects (Twins f f' b b') (propagateClocks n : CoreM δ Unit)
  := by
  induction n with
  | zero => apply Respects.pure
  | succ n ih =>
    apply Respects.bind clkCbExec
    intro _
    apply Respects.bind
    · apply update <;> intros <;> rfl
    · intro _
      apply Respects.bind
      · apply update <;> intros <;> rfl
      · intro _
        apply ih

theorem takeInterrupt
    (irq : IntVect) :
  Respects (Twins f f' b b') (takeInterrupt irq : CoreM δ Unit)
  := by
  apply Respects.bind (avrErrorIf_respects _ _ _)
  intro _
  apply Respects.bind
  · apply update_respects
    intro c d h
    split
    · apply h.reset
    · apply h
  · intro _
    apply Respects.bind (gets fun _ _ _ _ => rfl)
    intro I
    apply Respects.ite _ fun _ => Respects.pure _
    intro _
    apply Respects.bind (gets fun _ _ _ _ => rfl)
    intro pc
    apply Respects.bind (gets fun _ _ _ _ => rfl)
    intro pcBytes
    apply Respects.bind
    · have hpush : Uses ⟨fun _ => True, False, False, True⟩ False
          (avrCoreStackPush pcBytes (.ofInt 32 pc) : CoreM δ Unit) := by
        apply avrCoreStackPush_uses <;> intros <;> trivial
      apply uses False.elim id hpush
    · intro _
      apply Respects.bind
      · apply update <;> intros <;> rfl
      · intro _
        apply Respects.bind (gets fun _ _ _ _ => rfl)
        intro irqOffset
        apply Respects.bind
        · apply update <;> intros <;> rfl
        · intro _
          apply update <;> intros <;> rfl

theorem checkInterrupts :
  Respects (Twins f f' b b') (avrCoreCheckInterrupts : CoreM δ Unit)
  := by
  apply Respects.bind (gets fun _ _ _ _ => rfl)
  intro irqPending
  apply Respects.ite fun _ => Respects.pure _
  intro _
  apply Respects.bind _ takeInterrupt
  intro c d h
  have hrun (c : AvrCore δ) : avrCoreIrqGetPending.run c = (liftExcept
      (irqGetPendingVector c.irqPending c.state c.sleepMode) : CoreM δ IntVect).run c := rfl
  have hsame : irqGetPendingVector d.irqPending d.state d.sleepMode
      = irqGetPendingVector c.irqPending c.state c.sleepMode := by
    rw [h.eq_twin]
    rfl
  rw [hrun, hrun, hsame]
  apply liftExcept_respects _ c d h

end Twins

end

end SimulAvr
