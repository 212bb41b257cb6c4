import SimulAvr.CoreFootprint
import SimulAvr.Peripherals.Dispatch

/-!
# The accesses of a core to its peripherals

Instructions, interrupt entries and resets reach the peripherals through accesses to their
registers, one after the other (`execNextInstruction_accesses`, `check_accesses`), and leave
the pending interrupts but for those that are taken or reset.
-/

namespace SimulAvr

open Program Transition

/-- The core `c'` comes from `c` by accesses to the peripherals, with the interrupts as they were. -/
structure Accesses (c c' : AvrCore Peripherals) : Prop where
  path : ∃ taken, Path IoStep c.dev taken c'.dev ∧ ∀ x ∈ taken, x.2.isAccess = true
  irqPending : c'.irqPending = c.irqPending
  irqVtable : c'.irqVtable = c.irqVtable

namespace Accesses

variable {c c' c'' : AvrCore Peripherals}

/-- What leaves the peripherals and the interrupts -/
theorem of_eq
    (hdev : c'.dev = c.dev) (hpending : c'.irqPending = c.irqPending)
    (hvtable : c'.irqVtable = c.irqVtable) :
  Accesses c c'
  := by
  refine ⟨⟨[], ?_, List.forall_mem_nil _⟩, hpending, hvtable⟩
  rw [hdev]
  exact .nil _

/-- An access -/
theorem of_step
    {e : IoEvent} {dev : Peripherals} (hstep : IoStep e c.dev dev) (he : e.isAccess = true) :
  Accesses c { c with dev := dev }
  := ⟨⟨[(c.dev, e)], .single hstep, List.forall_mem_singleton.mpr he⟩, rfl, rfl⟩

theorem trans
    (h : Accesses c c') (h' : Accesses c' c'') :
  Accesses c c''
  := by
  obtain ⟨taken, hpath, hall⟩ := h.path
  obtain ⟨taken', hpath', hall'⟩ := h'.path
  refine ⟨⟨taken ++ taken', hpath.append hpath', ?_⟩, ?_, ?_⟩
  · exact List.forall_mem_append.mpr ⟨hall, hall'⟩
  · rw [h'.irqPending, h.irqPending]
  · rw [h'.irqVtable, h.irqVtable]

end Accesses

/-! ### Programs -/

/-- The program reaches the peripherals through accesses. -/
abbrev KeepsAccesses (c₀ : AvrCore Peripherals) {α : Type} (x : CoreM Peripherals α) : Prop :=
  Keeps (Accesses c₀) (fun _ => True) x

namespace KeepsAccesses

variable {c₀ : AvrCore Peripherals} {α : Type}

theorem gets
    (f : AvrCore Peripherals → α) :
  KeepsAccesses c₀ (gets f)
  := fun _ h => h

theorem update
    {f : AvrCore Peripherals → AvrCore Peripherals} (hdev : ∀ c, (f c).dev = c.dev)
    (hpending : ∀ c, (f c).irqPending = c.irqPending) (hvtable : ∀ c, (f c).irqVtable = c.irqVtable) :
  KeepsAccesses c₀ (update f)
  := fun c h => h.trans (.of_eq (hdev c) (hpending c) (hvtable c))

theorem avrError
    (fmt : String) (args : List Int) :
  KeepsAccesses c₀ (avrError fmt args : CoreM Peripherals α)
  := fun _ _ => trivial

theorem avrErrorIf
    {p : Prop} [Decidable p] (fmt : String) (args : List Int) :
  KeepsAccesses c₀ (avrErrorIf p fmt args)
  := Triple.ite (fun _ => avrError _ _) fun _ => Triple.pure fun _ h => h

theorem liftExcept
    (x : Except AvrError α) :
  KeepsAccesses c₀ (liftExcept x)
  := by
  intro c h
  cases x with
  | error e => trivial
  | ok a => exact h

theorem gpwrGet
    (reg : Int) :
  KeepsAccesses c₀ (avrCoreGpwrGet reg)
  := by
  intro c h
  by_cases hreg : 0 ≤ reg ∧ reg < 32
  · obtain ⟨r, rfl⟩ := exists_fin_of_mem hreg
    rw [run_avrCoreGpwrGet]
    exact h
  · rw [show (avrCoreGpwrGet reg).run c = .error (.registerOutOfBounds reg) from dif_neg hreg]
    trivial

theorem gpwrSet
    (reg : Int) (val : Byte) :
  KeepsAccesses c₀ (avrCoreGpwrSet reg val)
  := by
  intro c h
  by_cases hreg : 0 ≤ reg ∧ reg < 32
  · obtain ⟨r, rfl⟩ := exists_fin_of_mem hreg
    rw [run_avrCoreGpwrSet]
    exact h.trans (.of_eq rfl rfl rfl)
  · rw [show (avrCoreGpwrSet reg val).run c = .error (.registerOutOfBounds reg) from
      dif_neg hreg]
    trivial

/-- `vdev_read` of a peripheral -/
theorem ioRead
    (addr : Int) :
  KeepsAccesses c₀ (ioRead addr)
  := by
  intro c h
  rw [SimulAvr.ioRead, run_bind_of_ok (run_gets _ c)]
  cases hread : IoDevices.read addr c.dev with
  | error e => trivial
  | ok r => exact h.trans (.of_step (.read hread) rfl)

/-- `vdev_write` of a peripheral -/
theorem ioWrite
    (addr : Int) (val : Byte) :
  KeepsAccesses c₀ (ioWrite addr val)
  := by
  intro c h
  rw [SimulAvr.ioWrite, run_bind_of_ok (run_gets _ c)]
  have hwrite : IoDevices.write addr val c.dev = ((devWrite addr val).run c.dev).map Prod.snd := rfl
  rw [hwrite]
  cases hrun : (devWrite addr val).run c.dev with
  | error e => trivial
  | ok r => exact h.trans (.of_step (.write hrun) rfl)

theorem vdevRead
    (vdev : VDevice) (addr : Int) :
  KeepsAccesses c₀ (vdevRead vdev addr)
  := by
  cases vdev with
  | gpwr => apply gpwrGet
  | sreg => apply gets
  | stackPointer =>
    exact Triple.bind (gets _) fun _ => Triple.ite (fun _ => Triple.pure fun _ h => h) fun _ =>
      Triple.ite (fun _ => Triple.pure fun _ h => h) fun _ => avrError _ _
  | rampz => apply gets
  | sram => exact Triple.bind (gets _) fun _ => liftExcept _
  | spm =>
    exact Triple.bind (gets _) fun _ => Triple.ite (fun _ => Triple.pure fun _ h => h) fun _ =>
      avrError _ _
  | io => apply ioRead

theorem vdevWrite
    (vdev : VDevice) (addr : Int) (val : Byte) :
  KeepsAccesses c₀ (vdevWrite vdev addr val)
  := by
  have hupdate {f : AvrCore Peripherals → AvrCore Peripherals} (hdev : ∀ c, (f c).dev = c.dev)
      (hpending : ∀ c, (f c).irqPending = c.irqPending)
      (hvtable : ∀ c, (f c).irqVtable = c.irqVtable) : KeepsAccesses c₀ (SimulAvr.update f) :=
    update hdev hpending hvtable
  cases vdev with
  | gpwr => apply gpwrSet
  | sreg => exact hupdate (fun _ => rfl) (fun _ => rfl) fun _ => rfl
  | stackPointer =>
    exact Triple.bind (gets _) fun _ =>
      Triple.ite (fun _ => hupdate (fun _ => rfl) (fun _ => rfl) fun _ => rfl) fun _ =>
      Triple.ite (fun _ => hupdate (fun _ => rfl) (fun _ => rfl) fun _ => rfl) fun _ => avrError _ _
  | rampz => exact hupdate (fun _ => rfl) (fun _ => rfl) fun _ => rfl
  | sram =>
    exact Triple.bind (hupdate (fun _ => rfl) (fun _ => rfl) fun _ => rfl) fun _ =>
      Triple.bind (gets _) fun _ => Triple.bind (liftExcept _) fun _ =>
      hupdate (fun _ => rfl) (fun _ => rfl) fun _ => rfl
  | spm =>
    exact Triple.bind (gets _) fun _ => Triple.bind (avrErrorIf _ _) fun _ =>
      Triple.bind (avrErrorIf _ _) fun _ => Triple.bind (avrErrorIf _ _) fun _ =>
      Triple.bind (avrErrorIf _ _) fun _ => Triple.bind (avrErrorIf _ _) fun _ =>
      hupdate (fun _ => rfl) (fun _ => rfl) fun _ => rfl
  | io => apply ioWrite

theorem memGetCell
    (addr : Int) :
  KeepsAccesses c₀ (memGetCell addr)
  := by
  intro c h
  by_cases hb : 0 ≤ addr ∧ addr ≤ c.mem.xramEnd
  · rw [run_memGetCell c addr hb]
    exact h
  · rw [run_memGetCell_error c addr hb]
    trivial

theorem memRead
    (addr : Int) :
  KeepsAccesses c₀ (memRead addr)
  := by
  apply Triple.bind (memGetCell addr)
  rintro ⟨vdev, rdMask, wrMask⟩
  cases vdev with
  | none => exact Triple.pure fun _ h => h
  | some vdev => exact Triple.bind (vdevRead vdev addr) fun _ => Triple.pure fun _ h => h

theorem memWrite
    (addr : Int) (val : Byte) :
  KeepsAccesses c₀ (memWrite addr val)
  := by
  apply Triple.bind (memGetCell addr)
  rintro ⟨vdev, rdMask, wrMask⟩
  cases vdev with
  | none => exact Triple.pure fun _ h => h
  | some vdev =>
    apply Triple.bind _ fun _ => vdevWrite vdev addr _
    apply update
    all_goals
      intro c
      dsimp only
      split <;> rfl

theorem stackPush
    (bytes : Int) (val : BitVec 32) :
  KeepsAccesses c₀ (avrCoreStackPush bytes val)
  := by
  have hloop (n : Nat) (sp : Word) (val : BitVec 32) :
      KeepsAccesses c₀ (memPushLoop n sp val) := by
    induction n generalizing sp val with
    | zero => exact Triple.pure fun _ h => h
    | succ n ih => exact Triple.bind (memWrite _ _) fun _ => ih _ _
  apply Triple.bind (gets _)
  rintro (⟨depth, stack⟩ | _)
  · exact update (fun _ => rfl) (fun _ => rfl) fun _ => rfl
  · exact Triple.bind (gets _) fun _ => Triple.bind (avrErrorIf _ _) fun _ =>
      Triple.bind (hloop _ _ _) fun _ => update (fun _ => rfl) (fun _ => rfl) fun _ => rfl

theorem flashRead
    (addr : Int) :
  KeepsAccesses c₀ (avrCoreFlashRead addr)
  := by
  intro c h
  rw [run_avrCoreFlashRead]
  cases SimulAvr.flashRead c.flash addr with
  | error e => trivial
  | ok w => exact h

theorem flashWrite
    (addr : Int) (val : Word) :
  KeepsAccesses c₀ (avrCoreFlashWrite addr val)
  := by
  intro c h
  rw [run_avrCoreFlashWrite]
  cases storageWritew c.flash (addr * 2) val with
  | error e => trivial
  | ok flash => exact h.trans (.of_eq rfl rfl rfl)

/-- What the handlers of the instructions do to a core -/
theorem access
    {S : Scope} {pc : Prop} {x : CoreM Peripherals α} (hx : Access S pc α x) :
  KeepsAccesses c₀ x
  := by
  have hupdate {f : AvrCore Peripherals → AvrCore Peripherals} (hdev : ∀ c, (f c).dev = c.dev)
      (hpending : ∀ c, (f c).irqPending = c.irqPending)
      (hvtable : ∀ c, (f c).irqVtable = c.irqVtable) : KeepsAccesses c₀ (SimulAvr.update f) :=
    update hdev hpending hvtable
  cases hx with
  | error _ fmt args => apply avrError
  | pcGet => apply gets
  | pcSize => apply gets
  | pcSet _ val => exact hupdate (fun _ => rfl) (fun _ => rfl) fun _ => rfl
  | pcIncr _ val => exact hupdate (fun _ => rfl) (fun _ => rfl) fun _ => rfl
  | instCKSSet val => exact hupdate (fun _ => rfl) (fun _ => rfl) fun _ => rfl
  | sregGet => apply gets
  | sregSet v => exact hupdate (fun _ => rfl) (fun _ => rfl) fun _ => rfl
  | sregGetBit b => apply gets
  | sregSetBit b v => exact hupdate (fun _ => rfl) (fun _ => rfl) fun _ => rfl
  | rampzGet => apply gets
  | rampzSet v =>
    apply update
    all_goals
      intro c
      rw [AvrCore.rampzSet]
      split <;> rfl
  | eindGet => apply gets
  | gpwrGet reg => apply gpwrGet
  | gpwrSet reg val => apply gpwrSet
  | spGet => apply gets
  | spSet val => exact hupdate (fun _ => rfl) (fun _ => rfl) fun _ => rfl
  | stackGet => apply gets
  | stackSet stack => exact hupdate (fun _ => rfl) (fun _ => rfl) fun _ => rfl
  | memRead _ => apply memRead
  | memWrite _ => apply memWrite
  | flashReadNext _ => exact Triple.bind (gets _) fun _ => flashRead _
  | flashRead _ addr => apply flashRead
  | flashWrite _ addr val => apply flashWrite
  | spmGet => apply gets
  | spmDone pageBuffer => exact hupdate (fun _ => rfl) (fun _ => rfl) fun _ => rfl

end KeepsAccesses

/-! ### Instructions, interrupts and resets -/

/-- An instruction reaches the peripherals through accesses. -/
theorem execNextInstruction_accesses
    {c c' : AvrCore Peripherals} {ret : OpRet} (h : execNextInstruction.run c = .ok (ret, c')) :
  Accesses c c'
  := by
  obtain ⟨opcode, -, hexec⟩ := execNextInstruction_eq_ok h
  have huses : Uses (decodeOpcode opcode).func.scope True
      (execOpcode opcode : CoreM Peripherals OpRet) :=
    handler_uses (lookupOpcode_admits opcode) opcode
  have hkeeps : KeepsAccesses c (execOpcode opcode) :=
    huses.keeps fun _ _ hx => KeepsAccesses.access hx
  exact hkeeps.of_ok (s := c.fetched) (.of_eq rfl rfl rfl) hexec

/-- Vectoring to an interrupt accesses the peripherals where it pushes the program counter, and deletes
the interrupt. -/
theorem vectorTo_accesses
    {irq : IntVect} {c c' : AvrCore Peripherals} (h : (vectorTo irq).run c = .ok ((), c')) :
  ∃ c₁, Accesses c c₁ ∧ c'.dev = c₁.dev ∧ c'.irqVtable = c.irqVtable
    ∧ c'.irqPending = c.irqPending.delete irq.addr
  := by
  obtain ⟨c₁, hpush, -, rfl⟩ := vectorTo_eq_ok h
  have hrun : Accesses c c₁ :=
    (KeepsAccesses.stackPush c.pcSize (.ofInt 32 c.pc)).of_ok (.of_eq rfl rfl rfl) hpush
  use c₁, hrun, rfl, hrun.irqVtable
  change c₁.irqPending.delete irq.addr = _
  rw [hrun.irqPending]

end SimulAvr
