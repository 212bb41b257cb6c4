import SimulAvr.CoreFootprint
import SimulAvr.InstructionClocks
import SimulAvr.Peripherals.Dispatch

/-!
# The peripherals of a stepping core

The steps of a core are runs of its peripherals: an instruction reads and writes their registers,
the loop of `avr_core_step` ticks once at every value that CK goes through, and the check for
interrupts may push to registers and reset them (`avrCoreStep_follows`).  Between two steps no
clock of an instruction is left, so that CK counts the clocks of the instructions
(`steps_follow`).
-/

namespace SimulAvr

open Program Transition

namespace IoEvent

/-- The time of a tick -/
def time : IoEvent → Option Nat
  | tick ck => some ck
  | _ => none

/-- What the event adds to the history -/
def access : IoEvent → Option DevAccess
  | read addr => some (.read addr)
  | write addr val => some (.write addr val)
  | reset addr => some (.reset addr)
  | tick _ | async => none

theorem time_eq_some
    {e : IoEvent} {ck : Nat} (h : e.time = some ck) :
  e = tick ck
  := by
  cases e <;> cases h
  rfl

end IoEvent

/-- The times of the ticks of a path -/
def ticks (taken : List (Peripherals × IoEvent)) : List Nat :=
  taken.filterMap fun p => p.2.time

/-- The accesses of a path -/
def accesses (taken : List (Peripherals × IoEvent)) : List DevAccess :=
  taken.filterMap fun p => p.2.access

theorem ticks_cons
    (p : Peripherals) (e : IoEvent) (taken : List (Peripherals × IoEvent)) :
  ticks ((p, e) :: taken) = e.time.toList ++ ticks taken
  := by
  rw [ticks, List.filterMap_cons]
  cases e <;> rfl

theorem accesses_cons
    (p : Peripherals) (e : IoEvent) (taken : List (Peripherals × IoEvent)) :
  accesses ((p, e) :: taken) = e.access.toList ++ accesses taken
  := by
  rw [accesses, List.filterMap_cons]
  cases e <;> rfl

/-- An event adds its access to the history. -/
theorem IoStep.history_eq
    {e : IoEvent} {p q : Peripherals} (hstep : IoStep e p q) :
  q.history = p.history ++ e.access.toList
  := by
  have htouches {S : List IoVDev} {α : Type} {x : DevM α} (hx : Touches S x) :
      Leaves Peripherals.history x := .of_touches hx fun _ p hf => (hf.attached p).2
  cases hstep with
  | @read addr val _ _ h =>
    rw [devRead, run_bind_of_ok rfl, run_bind_of_ok rfl] at h
    split at h
    · cases h
      rfl
    · next d hat => exact (htouches (d.read_touches addr)).run h
  | @write addr val _ _ h =>
    rw [devWrite, run_bind_of_ok rfl, run_bind_of_ok rfl] at h
    split at h
    · cases h
      rfl
    · next d hat => exact (htouches (d.write_touches addr val)).run h
  | @reset addr =>
    rw [devReset]
    split
    · rfl
    · next d hat => exact (d.reset_change.attached _).2
  | @tick ck events _ _ h =>
    change _ = p.history ++ []
    rw [List.append_nil]
    exact ((IoStep.tick h).tick_leaves (fun _ _ => rfl)
      fun f _ => htouches (callbackExecute_touches ck f)).1
  | async h =>
    change _ = p.history ++ []
    rw [List.append_nil]
    exact ((IoStep.async h).async_leaves (fun _ _ => rfl) (fun _ _ => rfl)
      fun time f _ => htouches (callbackExecute_touches time f)).1

/-- The history tells the accesses of a path. -/
theorem history_path
    {p q : Peripherals} {taken : List (Peripherals × IoEvent)} (h : Path IoStep p taken q) :
  q.history = p.history ++ accesses taken
  := h.log_eq fun _ _ _ hstep => hstep.history_eq

/-! ### Runs of the peripherals -/

/-- The peripherals of the core `c'` come from those of `c` by a path that ticks once at every
value of CK between them. -/
def Follows (c c' : AvrCore Peripherals) : Prop :=
  ∃ taken n, Path IoStep c.dev taken c'.dev ∧ c'.ck = c.ck + n ∧ ticks taken = List.range' c.ck n

namespace Follows

variable {c c' c'' : AvrCore Peripherals}

/-- What leaves the peripherals and CK -/
theorem of_eq
    (hdev : c'.dev = c.dev) (hck : c'.ck = c.ck) :
  Follows c c'
  := by
  use [], 0
  rw [hdev, hck]
  exact ⟨.nil _, rfl, rfl⟩

/-- A step of the peripherals that is no tick -/
theorem of_step
    {e : IoEvent} (hstep : IoStep e c.dev c'.dev) (he : e.time = none) (hck : c'.ck = c.ck) :
  Follows c c'
  := by
  use [(c.dev, e)], 0, .single hstep, hck
  rw [ticks_cons, he]
  rfl

/-- A tick -/
theorem of_tick
    (hstep : IoStep (.tick c.ck) c.dev c'.dev) (hck : c'.ck = c.ck + 1) :
  Follows c c'
  := ⟨[(c.dev, .tick c.ck)], 1, .single hstep, hck, rfl⟩

theorem trans
    (h : Follows c c') (h' : Follows c' c'') :
  Follows c c''
  := by
  obtain ⟨taken, n, hpath, hck, hticks⟩ := h
  obtain ⟨taken', n', hpath', hck', hticks'⟩ := h'
  use taken ++ taken', n + n', hpath.append hpath'
  constructor
  · rw [hck', hck, Nat.add_assoc]
  · rw [ticks, List.filterMap_append]
    change ticks taken ++ ticks taken' = _
    rw [hticks, hticks', hck, List.range'_append_1]

end Follows

/-! ### Accesses to data memory -/

/-- The program lets the peripherals run along, and keeps what is said of `inst_CKS`. -/
abbrev KeepsFollowing (c₀ : AvrCore Peripherals) (P : Int → Prop) {α : Type}
    (x : CoreM Peripherals α) : Prop :=
  Keeps (fun c => Follows c₀ c ∧ P c.instCKS) (fun _ => True) x

namespace KeepsFollowing

variable {c₀ : AvrCore Peripherals} {P : Int → Prop} {α : Type}

theorem gets
    (f : AvrCore Peripherals → α) :
  KeepsFollowing c₀ P (gets f)
  := fun _ h => h

theorem update
    {f : AvrCore Peripherals → AvrCore Peripherals} (hdev : ∀ c, (f c).dev = c.dev)
    (hck : ∀ c, (f c).ck = c.ck) (hcks : ∀ c, (f c).instCKS = c.instCKS) :
  KeepsFollowing c₀ P (update f)
  := by
  rintro c ⟨hrun, hP⟩
  use hrun.trans (.of_eq (hdev c) (hck c))
  rw [hcks]
  exact hP

theorem avrError
    (fmt : String) (args : List Int) :
  KeepsFollowing c₀ P (avrError fmt args : CoreM Peripherals α)
  := fun _ _ => trivial

theorem avrErrorIf
    {p : Prop} [Decidable p] (fmt : String) (args : List Int) :
  KeepsFollowing c₀ P (avrErrorIf p fmt args)
  := Triple.ite (fun _ => avrError _ _) fun _ => Triple.pure fun _ h => h

theorem liftExcept
    (x : Except AvrError α) :
  KeepsFollowing c₀ P (liftExcept x)
  := by
  intro c h
  cases x with
  | error e => trivial
  | ok a => exact h

theorem gpwrGet
    (reg : Int) :
  KeepsFollowing c₀ P (avrCoreGpwrGet reg)
  := by
  intro c h
  by_cases hreg : 0 ≤ reg ∧ reg < 32
  · obtain ⟨r, rfl⟩ := exists_fin_of_mem hreg
    rw [run_avrCoreGpwrGet]
    exact h
  · rw [show (avrCoreGpwrGet reg).run c = .error (.registerOutOfBounds reg) from dif_neg hreg]
    trivial

theorem gpwrSet
    (reg : Int) (val : Byte) :
  KeepsFollowing c₀ P (avrCoreGpwrSet reg val)
  := by
  rintro c ⟨hrun, hP⟩
  by_cases hreg : 0 ≤ reg ∧ reg < 32
  · obtain ⟨r, rfl⟩ := exists_fin_of_mem hreg
    rw [run_avrCoreGpwrSet]
    exact ⟨hrun.trans (.of_eq rfl rfl), hP⟩
  · rw [show (avrCoreGpwrSet reg val).run c = .error (.registerOutOfBounds reg) from
      dif_neg hreg]
    trivial

/-- `vdev_read` of a peripheral is a step of the peripherals. -/
theorem ioRead
    (addr : Int) :
  KeepsFollowing c₀ P (ioRead addr)
  := by
  rintro c ⟨hrun, hP⟩
  rw [SimulAvr.ioRead, run_bind_of_ok (run_gets _ c)]
  cases hread : IoDevices.read addr c.dev with
  | error e => trivial
  | ok r =>
    obtain ⟨val, dev⟩ := r
    have hstep : Follows c { c with dev := dev } := .of_step (.read hread) rfl rfl
    exact ⟨hrun.trans hstep, hP⟩

/-- `vdev_write` of a peripheral is a step of the peripherals. -/
theorem ioWrite
    (addr : Int) (val : Byte) :
  KeepsFollowing c₀ P (ioWrite addr val)
  := by
  rintro c ⟨hrun, hP⟩
  rw [SimulAvr.ioWrite, run_bind_of_ok (run_gets _ c)]
  have hwrite : IoDevices.write addr val c.dev = ((devWrite addr val).run c.dev).map Prod.snd := rfl
  rw [hwrite]
  cases hrunw : (devWrite addr val).run c.dev with
  | error e => trivial
  | ok r =>
    obtain ⟨_, dev⟩ := r
    have hstep : Follows c { c with dev := dev } := .of_step (.write hrunw) rfl rfl
    exact ⟨hrun.trans hstep, hP⟩

theorem vdevRead
    (vdev : VDevice) (addr : Int) :
  KeepsFollowing c₀ P (vdevRead vdev addr)
  := by
  cases vdev with
  | gpwr => apply gpwrGet
  | sreg => apply gets
  | stackPointer =>
    apply Triple.bind (gets _)
    intro sp
    exact Triple.ite (fun _ => Triple.pure fun _ h => h) fun _ =>
      Triple.ite (fun _ => Triple.pure fun _ h => h) fun _ => avrError _ _
  | rampz => apply gets
  | sram => exact Triple.bind (gets _) fun stor => liftExcept _
  | spm =>
    apply Triple.bind (gets _)
    intro spm
    exact Triple.ite (fun _ => Triple.pure fun _ h => h) fun _ => avrError _ _
  | io => apply ioRead

theorem vdevWrite
    (vdev : VDevice) (addr : Int) (val : Byte) :
  KeepsFollowing c₀ P (vdevWrite vdev addr val)
  := by
  cases vdev with
  | gpwr => apply gpwrSet
  | sreg => exact update (fun _ => rfl) (fun _ => rfl) fun _ => rfl
  | stackPointer =>
    apply Triple.bind (gets _)
    intro sp
    apply Triple.ite
    · exact fun _ => update (fun _ => rfl) (fun _ => rfl) fun _ => rfl
    · intro _
      apply Triple.ite
      · exact fun _ => update (fun _ => rfl) (fun _ => rfl) fun _ => rfl
      · exact fun _ => avrError _ _
  | rampz => exact update (fun _ => rfl) (fun _ => rfl) fun _ => rfl
  | sram =>
    have hsend : KeepsFollowing c₀ P (SimulAvr.update fun c => c.displaySend (.sram addr [val])) :=
      update (fun _ => rfl) (fun _ => rfl) fun _ => rfl
    exact Triple.bind hsend fun _ => Triple.bind (gets _) fun _ => Triple.bind (liftExcept _) fun _ =>
      update (fun _ => rfl) (fun _ => rfl) fun _ => rfl
  | spm =>
    apply Triple.bind (gets _)
    intro spm
    exact Triple.bind (avrErrorIf _ _) fun _ => Triple.bind (avrErrorIf _ _) fun _ =>
      Triple.bind (avrErrorIf _ _) fun _ => Triple.bind (avrErrorIf _ _) fun _ =>
      Triple.bind (avrErrorIf _ _) fun _ => update (fun _ => rfl) (fun _ => rfl) fun _ => rfl
  | io => apply ioWrite

theorem memGetCell
    (addr : Int) :
  KeepsFollowing c₀ P (memGetCell addr)
  := by
  intro c h
  by_cases hb : 0 ≤ addr ∧ addr ≤ c.mem.xramEnd
  · rw [run_memGetCell c addr hb]
    exact h
  · rw [run_memGetCell_error c addr hb]
    trivial

theorem memRead
    (addr : Int) :
  KeepsFollowing c₀ P (memRead addr)
  := by
  apply Triple.bind (memGetCell addr)
  rintro ⟨vdev, rdMask, wrMask⟩
  cases vdev with
  | none => exact Triple.pure fun _ h => h
  | some vdev => exact Triple.bind (vdevRead vdev addr) fun _ => Triple.pure fun _ h => h

theorem memWrite
    (addr : Int) (val : Byte) :
  KeepsFollowing c₀ P (memWrite addr val)
  := by
  apply Triple.bind (memGetCell addr)
  rintro ⟨vdev, rdMask, wrMask⟩
  cases vdev with
  | none => exact Triple.pure fun _ h => h
  | some vdev =>
    apply Triple.bind _ fun _ => vdevWrite vdev addr _
    apply update
    all_goals
      intro c
      dsimp only
      split <;> rfl

/-- A push leaves `inst_CKS`. -/
theorem stackPush
    (bytes : Int) (val : BitVec 32) :
  KeepsFollowing c₀ P (avrCoreStackPush bytes val)
  := by
  have hloop (n : Nat) (sp : Word) (val : BitVec 32) :
      KeepsFollowing c₀ P (memPushLoop n sp val) := by
    induction n generalizing sp val with
    | zero => exact Triple.pure fun _ h => h
    | succ n ih => exact Triple.bind (memWrite _ _) fun _ => ih _ _
  apply Triple.bind (gets _)
  rintro (⟨depth, stack⟩ | _)
  · exact update (fun _ => rfl) (fun _ => rfl) fun _ => rfl
  · exact Triple.bind (gets _) fun _ => Triple.bind (avrErrorIf _ _) fun _ =>
      Triple.bind (hloop _ _ _) fun _ => update (fun _ => rfl) (fun _ => rfl) fun _ => rfl

theorem flashRead
    (addr : Int) :
  KeepsFollowing c₀ P (avrCoreFlashRead addr)
  := by
  intro c h
  rw [run_avrCoreFlashRead]
  cases SimulAvr.flashRead c.flash addr with
  | error e => trivial
  | ok w => exact h

theorem flashWrite
    (addr : Int) (val : Word) :
  KeepsFollowing c₀ P (avrCoreFlashWrite addr val)
  := by
  rintro c ⟨hrun, hP⟩
  rw [run_avrCoreFlashWrite]
  cases storageWritew c.flash (addr * 2) val with
  | error e => trivial
  | ok flash => exact ⟨hrun.trans (.of_eq rfl rfl), hP⟩

/-- The accesses of the instructions let the peripherals run along. -/
theorem access
    {S : Scope} {pc : Prop} {x : CoreM Peripherals α} (hx : Access S pc α x) :
  KeepsFollowing c₀ (fun _ => True) x
  := by
  cases hx with
  | error _ fmt args => apply avrError
  | pcGet => apply gets
  | pcSize => apply gets
  | pcSet _ val => exact update (fun _ => rfl) (fun _ => rfl) fun _ => rfl
  | pcIncr _ val => exact update (fun _ => rfl) (fun _ => rfl) fun _ => rfl
  | instCKSSet val => exact fun c h => ⟨h.1.trans (.of_eq rfl rfl), trivial⟩
  | sregGet => apply gets
  | sregSet v => exact update (fun _ => rfl) (fun _ => rfl) fun _ => rfl
  | sregGetBit b => apply gets
  | sregSetBit b v => exact update (fun _ => rfl) (fun _ => rfl) fun _ => rfl
  | rampzGet => apply gets
  | rampzSet v =>
    apply update
    all_goals
      intro c
      rw [AvrCore.rampzSet]
      split <;> rfl
  | eindGet => apply gets
  | gpwrGet reg => apply gpwrGet
  | gpwrSet reg val => apply gpwrSet
  | spGet => apply gets
  | spSet val => exact update (fun _ => rfl) (fun _ => rfl) fun _ => rfl
  | stackGet => apply gets
  | stackSet stack => exact update (fun _ => rfl) (fun _ => rfl) fun _ => rfl
  | memRead _ => apply memRead
  | memWrite _ => apply memWrite
  | flashReadNext _ =>
    apply Triple.bind (gets (P := fun _ => True) _)
    intro pc
    exact flashRead (P := fun _ => True) _
  | flashRead _ addr => apply flashRead
  | flashWrite _ addr val => apply flashWrite
  | spmGet => apply gets
  | spmDone pageBuffer => exact update (fun _ => rfl) (fun _ => rfl) fun _ => rfl

end KeepsFollowing

/-! ### Callbacks and resets -/

/-- The events of callbacks leave the peripherals and the clocks. -/
theorem devEvents_clocks
    (c : AvrCore Peripherals) (events : List DevEvent) :
  (events.foldl AvrCore.devEvent c).dev = c.dev ∧ (events.foldl AvrCore.devEvent c).ck = c.ck ∧
    (events.foldl AvrCore.devEvent c).instCKS = c.instCKS
  := by
  induction events generalizing c with
  | nil => exact ⟨rfl, rfl, rfl⟩
  | cons event events ih =>
    cases event with
    | irqRaise irq => exact ih (c.irqRaise irq)

/-- `avr_core_clk_cb_exec` is a tick. -/
theorem clkCbExec_tick
    {c c' : AvrCore Peripherals} (h : avrCoreClkCbExec.run c = .ok ((), c')) :
  IoStep (.tick c.ck) c.dev c'.dev ∧ c'.ck = c.ck ∧ c'.instCKS = c.instCKS
  := by
  rw [avrCoreClkCbExec, run_bind_of_ok (run_get c)] at h
  have hexec : IoDevices.clkCbExec c.ck c.dev = ((clkCbExec c.ck).run c.dev).map Prod.swap := rfl
  rw [hexec] at h
  cases hrun : (clkCbExec c.ck).run c.dev with
  | error e =>
    rw [hrun] at h
    contradiction
  | ok r =>
    obtain ⟨events, dev⟩ := r
    rw [hrun] at h
    cases h
    obtain ⟨hdev, hck, hcks⟩ := devEvents_clocks { c with dev := dev } events
    exact ⟨hdev ▸ .tick hrun, hck, hcks⟩

/-- `avr_core_async_cb_exec` is a pass over the asynchronous callbacks. -/
theorem asyncCbExec_async
    {c c' : AvrCore Peripherals} (h : avrCoreAsyncCbExec.run c = .ok ((), c')) :
  IoStep .async c.dev c'.dev ∧ c'.ck = c.ck ∧ c'.instCKS = c.instCKS
  := by
  rw [avrCoreAsyncCbExec, run_bind_of_ok (run_gets _ c)] at h
  have hexec : IoDevices.asyncCbExec c.dev = (asyncCbExec.run c.dev).map Prod.swap := rfl
  rw [hexec] at h
  cases hrun : asyncCbExec.run c.dev with
  | error e =>
    rw [hrun] at h
    contradiction
  | ok r =>
    obtain ⟨events, dev⟩ := r
    rw [hrun] at h
    cases h
    obtain ⟨hdev, hck, hcks⟩ := devEvents_clocks { c with dev := dev } events
    exact ⟨hdev ▸ .async hrun, hck, hcks⟩

/-- A reset of a register -/
theorem vdevReset_follows
    (c : AvrCore Peripherals) (addr : Int) (vdev : VDevice) :
  Follows c (c.vdevReset addr vdev) ∧ (c.vdevReset addr vdev).instCKS = c.instCKS
  := by
  cases vdev with
  | gpwr =>
    rw [AvrCore.vdevReset]
    induction List.finRange 32 generalizing c with
    | nil => exact ⟨.of_eq rfl rfl, rfl⟩
    | cons i regs ih =>
      obtain ⟨hrun, hcks⟩ := ih (c.gpwrSet i 0)
      exact ⟨(Follows.of_eq rfl rfl).trans hrun, hcks⟩
  | sreg | stackPointer | rampz | sram | spm => exact ⟨.of_eq rfl rfl, rfl⟩
  | io =>
    have hstep : IoStep (.reset addr) c.dev (devReset addr c.dev) := .reset
    exact ⟨.of_step hstep rfl rfl, rfl⟩

theorem memResetFrom_follows
    (c : AvrCore Peripherals) (i n : Nat) :
  Follows c (c.memResetFrom i n) ∧ (c.memResetFrom i n).instCKS = c.instCKS
  := by
  induction n generalizing c i with
  | zero => exact ⟨.of_eq rfl rfl, rfl⟩
  | succ n ih =>
    rw [AvrCore.memResetFrom]
    cases (c.mem.cell i).vdev with
    | none => exact ih c (i + 1)
    | some vdev =>
      obtain ⟨hreset, hcks⟩ := vdevReset_follows c i vdev
      obtain ⟨hrest, hrestCks⟩ := ih (c.vdevReset i vdev) (i + 1)
      exact ⟨hreset.trans hrest, hrestCks.trans hcks⟩

/-- A reset leaves no clocks. -/
theorem reset_follows
    (c : AvrCore Peripherals) :
  Follows c c.reset ∧ c.reset.instCKS = 0
  := by
  obtain ⟨display, h⟩ := AvrCore.reset_eq c
  rw [h]
  obtain ⟨hrun, hcks⟩ := memResetFrom_follows { c.pcSet 0 with
    irqPending := .nil, instCKS := 0, display := display } 0 c.mem.xramEnd.toNat
  exact ⟨(Follows.of_eq rfl rfl).trans hrun, hcks⟩

/-! ### Steps -/

/-- The execution of an instruction is a run of the peripherals without ticks. -/
theorem execNextInstruction_follows
    {c c' : AvrCore Peripherals} {ret : OpRet} (h : execNextInstruction.run c = .ok (ret, c')) :
  Follows c c'
  := by
  obtain ⟨opcode, -, hexec⟩ := execNextInstruction_eq_ok h
  have huses : Uses (decodeOpcode opcode).func.scope True
      (execOpcode opcode : CoreM Peripherals OpRet) :=
    handler_uses (lookupOpcode_admits opcode) opcode
  have hkeeps : KeepsFollowing c (fun _ => True) (execOpcode opcode) :=
    huses.keeps fun _ _ hx => KeepsFollowing.access hx
  exact (hkeeps.of_ok (s := c.fetched) ⟨.of_eq rfl rfl, trivial⟩ hexec).1

/-- The loop of `avr_core_step` ticks at every value of CK. -/
theorem propagateClocks_follows
    {n : Nat} {c c' : AvrCore Peripherals} (h : (propagateClocks n).run c = .ok ((), c')) :
  Follows c c' ∧ c'.ck = c.ck + n ∧ c'.instCKS = c.instCKS - n
  := by
  induction n generalizing c with
  | zero =>
    cases h
    exact ⟨.of_eq rfl rfl, rfl, (Int.sub_zero _).symm⟩
  | succ n ih =>
    obtain ⟨⟨⟩, c₁, hclk, h⟩ := run_bind_eq_ok.mp h
    rw [run_bind_of_ok (run_update _ c₁), run_bind_of_ok (run_update _ _)] at h
    obtain ⟨htick, hck, hcks⟩ := clkCbExec_tick hclk
    obtain ⟨hrest, hrestCk, hrestCks⟩ := ih h
    have hckIncr : c₁.ckIncr.ck = c.ck + 1 := congrArg (· + 1) hck
    have htick : Follows c { c₁.ckIncr with instCKS := c₁.instCKS - 1 } := .of_tick htick hckIncr
    refine ⟨htick.trans hrest, ?_, ?_⟩
    · rw [hrestCk]
      change c₁.ckIncr.ck + n = _
      omega
    · rw [hrestCks]
      change c₁.instCKS - 1 - n = _
      omega

/-- The check for interrupts is a run of the peripherals without ticks, and leaves no clocks where
there are none. -/
theorem check_follows
    {c c' : AvrCore Peripherals} (hcks : c.instCKS ≤ 0)
    (h : avrCoreCheckInterrupts.run c = .ok ((), c')) :
  Follows c c' ∧ c'.instCKS ≤ 0 ∧ c'.ck = c.ck
  := by
  obtain rfl | ⟨irq, htake⟩ := check_cases h
  · exact ⟨.of_eq rfl rfl, hcks, rfl⟩
  · have hfor : (Follows c (c.resetFor irq) ∧ (c.resetFor irq).instCKS ≤ 0) ∧
        (c.resetFor irq).ck = c.ck := by
      rw [AvrCore.resetFor]
      split
      · obtain ⟨hrun, hzero⟩ := reset_follows c
        exact ⟨⟨hrun, hzero.le⟩, (AvrCore.reset_frame c).ck⟩
      · exact ⟨⟨.of_eq rfl rfl, hcks⟩, rfl⟩
    obtain ⟨hfor, hck⟩ := hfor
    obtain ⟨-, ⟨-, rfl⟩ | ⟨-, hvector⟩⟩ := takeInterrupt_cases htake
    · exact ⟨hfor.1, hfor.2, hck⟩
    · obtain ⟨c₁, hpush, hframe, rfl⟩ := vectorTo_eq_ok hvector
      have hkeeps : KeepsFollowing c (· ≤ 0)
          (avrCoreStackPush (c.resetFor irq).pcSize (.ofInt 32 (c.resetFor irq).pc)) :=
        KeepsFollowing.stackPush _ _
      obtain ⟨hrun, hcks₁⟩ := hkeeps.of_ok hfor hpush
      exact ⟨hrun.trans (.of_eq rfl rfl), hcks₁, hframe.ck.trans hck⟩

/-- `inst_CKS` of the instruction that a step executes; a sleeping core executes none. -/
def AvrCore.executedCKS (c : AvrCore Peripherals) : Int :=
  if c.state = .sleep then 0
  else
    match execNextInstruction.run c with
    | .ok (_, c') => c'.instCKS
    | .error _ => 0

/-- No clock of an instruction is left to be propagated, and the program counter has a size. -/
structure AvrCore.BetweenSteps (c : AvrCore Peripherals) : Prop where
  instCKS : c.instCKS ≤ 0
  pcSize : 0 ≤ c.pcSize

/-- A step returns. -/
def StepReturns (ret : OpRet) (c c' : AvrCore Peripherals) : Prop :=
  avrCoreStep.run c = .ok (ret, c')

/-- The core after a step that returns `ret`; none where it does not -/
def nextStep (ret : OpRet) (c : AvrCore Peripherals) : Option (AvrCore Peripherals) :=
  match avrCoreStep.run c with
  | .ok (ret', c') => if ret' = ret then some c' else none
  | .error _ => none

theorem StepReturns.of_next
    (ret : OpRet) (c c' : AvrCore Peripherals) (h : nextStep ret c = some c') :
  StepReturns ret c c'
  := by
  rw [nextStep] at h
  split at h
  · next hrun =>
    split at h
    · next heq =>
      cases h
      rw [StepReturns, hrun, heq]
    · contradiction
  · contradiction

/-- A new core is between steps. -/
theorem construct_betweenSteps
    {dev : DevSuppDefn} (hpc : 0 ≤ dev.pc) (io : Peripherals) :
  (AvrCore.construct dev io).BetweenSteps
  := ⟨Int.le_refl 0, hpc⟩

/-- The part of a step before the loop leaves the clocks of the instruction. -/
theorem execUnlessAsleep_follows
    {c c₁ : AvrCore Peripherals} {ret : OpRet} (hc : c.BetweenSteps)
    (h : execUnlessAsleep.run c = .ok (ret, c₁)) :
  Follows c c₁ ∧ c₁.ck = c.ck ∧ (c₁.instCKS.toNat : Int) = c.executedCKS
  := by
  rw [execUnlessAsleep, run_bind_of_ok (run_gets _ c)] at h
  rw [AvrCore.executedCKS]
  by_cases hsleep : c.state = .sleep
  · rw [if_pos hsleep] at h ⊢
    cases h
    refine ⟨.of_eq rfl rfl, rfl, ?_⟩
    rw [Int.toNat_of_nonpos hc.instCKS]
    rfl
  · rw [if_neg hsleep] at h ⊢
    rw [h]
    refine ⟨execNextInstruction_follows h, (execNextInstruction_frame h).ck, ?_⟩
    exact Int.toNat_of_nonneg (execNextInstruction_clocks hc.pcSize h)

/-- A step is a run of the peripherals, and CK counts the clocks of its instruction. -/
theorem avrCoreStep_follows
    {c c' : AvrCore Peripherals} {ret : OpRet} (hc : c.BetweenSteps) (h : StepReturns ret c c') :
  Follows c c' ∧ (c'.ck : Int) = c.ck + c.executedCKS ∧ c'.BetweenSteps
  := by
  obtain ⟨c₁, c₂, c₃, hexec, hclocks, hasync, hrest⟩ := avrCoreStep_eq_ok.mp h
  obtain ⟨hrun₁, hck₁, hcks₁⟩ := execUnlessAsleep_follows hc hexec
  obtain ⟨hrun₂, hck₂, hcks₂⟩ := propagateClocks_follows hclocks
  obtain ⟨hstep, hck₃, hcks₃⟩ := asyncCbExec_async hasync
  have hrun₃ : Follows c c₃ := (hrun₁.trans hrun₂).trans (.of_step hstep rfl hck₃)
  have hnone : c₃.instCKS ≤ 0 := by omega
  have hcheck : Follows c₃ c' ∧ c'.instCKS ≤ 0 ∧ c'.ck = c₃.ck := by
    by_cases hreti : ret = .opcode .RETI
    · rw [if_pos hreti] at hrest
      rw [hrest]
      exact ⟨.of_eq rfl rfl, hnone, rfl⟩
    · rw [if_neg hreti] at hrest
      exact check_follows hnone hrest
  obtain ⟨hrun, hcks, hck⟩ := hcheck
  have hlayout : c'.layout = c.layout :=
    (avrCoreStep_built.keeps fun _ _ => CoreAccess.keepsLayout).of_ok rfl h
  refine ⟨hrun₃.trans hrun, ?_, hcks, ?_⟩
  · omega
  · rw [show c'.pcSize = c.pcSize from congrArg Layout.pcSize hlayout]
    exact hc.pcSize

/-- The steps of a core are a run of its peripherals, and CK counts the clocks of the
instructions. -/
theorem steps_follow
    {c c' : AvrCore Peripherals} {taken : List (AvrCore Peripherals × OpRet)}
    (h : Path StepReturns c taken c') (hc : c.BetweenSteps) :
  Follows c c' ∧ (c'.ck : Int) - c.ck = (taken.map fun p => p.1.executedCKS).sum
  := by
  induction h with
  | nil c => exact ⟨.of_eq rfl rfl, Int.sub_self _⟩
  | @cons c _ c' ret taken hst _ ih =>
    obtain ⟨hrun, hck, hbetween⟩ := avrCoreStep_follows hc hst
    obtain ⟨hrest, hsum⟩ := ih hbetween
    use hrun.trans hrest
    rw [List.map_cons, List.sum_cons]
    change _ = c.executedCKS + _
    omega

end SimulAvr
