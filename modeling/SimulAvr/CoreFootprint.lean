import SimulAvr.GdbSession
import SimulAvr.System

/-!
# The footprint of the simulator

What the simulator does to a core is built from accesses: those of the instructions, the clock
and the callbacks, the interrupts, the reset, and those of the debugger.  A step of the core
(`avrCoreStep_built`) and the handler of every packet (`gdbParsePacket_built`) are, so that what
the accesses keep holds in every run of the simulator (`CoreStep.keeps`); they keep the layout
(`CoreStep.layout`).
-/

namespace SimulAvr

open Program Transition

/-- The scope of all accesses. -/
def Scope.all : Scope where
  cell _ := True
  operand := True
  flash := True
  error := True

section

variable {δ : Type} [IoDevices δ]

/-- The accesses of the simulator to a core. -/
inductive CoreAccess : ∀ α : Type, CoreM δ α → Prop
  | inst {S : Scope} {pc : Prop} {α : Type} {x : CoreM δ α} (h : Access S pc α x) :
      CoreAccess α x
  | parse {α : Type} (x : Except AvrError α) : CoreAccess α (liftExcept x)
  | gets {α : Type} (f : AvrCore δ → α) : CoreAccess α (gets f)
  | memGetCell (addr : Int) : CoreAccess MemoryCell (memGetCell addr)
  | vdevRead (vdev : VDevice) (addr : Int) : CoreAccess Byte (vdevRead vdev addr)
  | flashWriteLo8 (addr : Int) (val : Byte) : CoreAccess Unit (avrCoreFlashWriteLo8 addr val)
  | flashWriteHi8 (addr : Int) (val : Byte) : CoreAccess Unit (avrCoreFlashWriteHi8 addr val)
  | breakpoints (f : AvrCore δ → UniqueList BreakPt.pc) :
      CoreAccess Unit (update fun c => { c with breakpoints := f c })
  | eeWrite (addr : Int) (val : Byte) :
      CoreAccess Unit (update fun c => { c with dev := IoDevices.gdbEeWrite addr val c.dev })
  | reset : CoreAccess Unit (update AvrCore.reset)
  | irqRaise (irq : Nat) : CoreAccess Unit (update fun c => c.irqRaise irq)
  | irqClear (irq : IntVect) : CoreAccess Unit (update fun c => c.irqClear irq)
  | irqGetPending : CoreAccess IntVect avrCoreIrqGetPending
  | clkCbExec : CoreAccess Unit avrCoreClkCbExec
  | asyncCbExec : CoreAccess Unit avrCoreAsyncCbExec
  | ckIncr : CoreAccess Unit (update AvrCore.ckIncr)
  | instCKSDecr : CoreAccess Unit (update fun c => { c with instCKS := c.instCKS - 1 })

/-- The program `x` only accesses the core in the ways of the simulator. -/
abbrev Simulates {α : Type} (x : CoreM δ α) : Prop :=
  Built CoreAccess α x

namespace Simulates

theorem uses
    {S : Scope} {pc : Prop} {α : Type} {x : CoreM δ α} (h : Uses S pc x) :
  Simulates x
  := h.mono fun _ _ h => .inst h

theorem access
    {α : Type} {x : CoreM δ α} (h : Access .all True α x) :
  Simulates x
  := .action (.inst h)

theorem parse
    {α : Type} (x : Except AvrError α) :
  Simulates (liftExcept x : CoreM δ α)
  := .action (.parse x)

theorem gets
    {α : Type} (f : AvrCore δ → α) :
  Simulates (gets f)
  := .action (.gets f)

theorem avrErrorIf
    {p : Prop} [Decidable p] (fmt : String) (args : List Int) :
  Simulates (avrErrorIf p fmt args : CoreM δ Unit)
  := .ite (access (.error trivial fmt args)) (.pure _)

end Simulates

/-! ### Steps of the core -/

theorem execNextInstruction_built :
  Simulates (execNextInstruction : CoreM δ OpRet)
  := by
  apply Built.bind (Simulates.gets _)
  intro pc
  apply Built.bind (Simulates.access (.flashRead trivial pc))
  intro opcode
  apply Built.bind (Simulates.access (.instCKSSet 0))
  intro _
  apply Simulates.uses (handler_uses (lookupOpcode_admits opcode) opcode)

theorem propagateClocks_built
    (n : Nat) :
  Simulates (propagateClocks n : CoreM δ Unit)
  := by
  induction n with
  | zero => apply Built.pure
  | succ n ih =>
    exact .bind (.action .clkCbExec) fun _ => .bind (.action .ckIncr) fun _ =>
      .bind (.action .instCKSDecr) fun _ => ih

theorem vectorTo_built
    (irq : IntVect) :
  Simulates (vectorTo irq : CoreM δ Unit)
  := by
  apply Built.bind (Simulates.gets _)
  intro pc
  apply Built.bind (Simulates.gets _)
  intro pcBytes
  have hpush : Uses .all True (avrCoreStackPush pcBytes (.ofInt 32 pc) : CoreM δ Unit) :=
    avrCoreStackPush_uses (fun _ _ => trivial) (fun _ => trivial) _
  apply Built.bind (Simulates.uses hpush)
  · intro _
    apply Built.bind (Simulates.access (.sregSetBit _ _))
    intro _
    apply Built.bind (Simulates.gets _)
    intro irqOffset
    apply Built.bind (Simulates.access (.pcSet trivial _))
    intro _
    exact .action (.irqClear irq)

theorem takeInterrupt_built
    (irq : IntVect) :
  Simulates (takeInterrupt irq : CoreM δ Unit)
  := by
  apply Built.bind (Simulates.avrErrorIf _ _)
  intro _
  apply Built.bind
  · by_cases hreset : irq.addr = irqResetAddr
    · simp only [if_pos hreset]
      exact .action .reset
    · simp only [if_neg hreset]
      exact .pure ()
  · intro _
    apply Built.bind (Simulates.access (.sregGetBit _))
    intro I
    apply Built.ite (vectorTo_built irq) (.pure _)

theorem avrCoreCheckInterrupts_built :
  Simulates (avrCoreCheckInterrupts : CoreM δ Unit)
  := .bind (Simulates.gets _) fun _ => .ite (.pure _) <|
    .bind (.action .irqGetPending) fun irq => takeInterrupt_built irq

/-- A step of the core. -/
theorem avrCoreStep_built :
  Simulates (avrCoreStep : CoreM δ OpRet)
  := by
  apply Built.bind
  · exact .bind (Simulates.gets _) fun _ => .ite (.pure _) execNextInstruction_built
  · intro res
    apply Built.bind (Simulates.gets _)
    intro instCKS
    apply Built.bind (propagateClocks_built _)
    intro _
    apply Built.bind (.action .asyncCbExec)
    intro _
    apply Built.ite (.pure _)
    exact .bind avrCoreCheckInterrupts_built fun _ => .pure _

/-! ### The handlers of packets -/

namespace Simulates

theorem gpwrGet
    (reg : Int) :
  Simulates (avrCoreGpwrGet reg : CoreM δ Byte)
  := access (.gpwrGet reg)

theorem gpwrSet
    (reg : Int) (val : Byte) :
  Simulates (avrCoreGpwrSet reg val : CoreM δ Unit)
  := access (.gpwrSet reg val)

theorem sregSet
    (val : Byte) :
  Simulates (avrCoreSregSet val : CoreM δ Unit)
  := access (.sregSet val)

theorem pcSet
    (val : Int) :
  Simulates (avrCorePCSet val : CoreM δ Unit)
  := access (.pcSet trivial val)

theorem memRead
    (addr : Int) :
  Simulates (memRead addr : CoreM δ Byte)
  := access (.memRead trivial)

theorem memWrite
    (addr : Int) (val : Byte) :
  Simulates (memWrite addr val : CoreM δ Unit)
  := access (.memWrite trivial)

theorem flashRead
    (addr : Int) :
  Simulates (avrCoreFlashRead addr : CoreM δ Word)
  := access (.flashRead trivial addr)

theorem flashWrite
    (addr : Int) (val : Word) :
  Simulates (avrCoreFlashWrite addr val : CoreM δ Unit)
  := access (.flashWrite trivial addr val)

theorem sendReply
    (reply : List Char) :
  Simulates (gdbSendReply reply : CoreM δ (List Char))
  := .bind (avrErrorIf _ _) fun _ => .pure _

theorem readRegisters :
  Simulates (gdbReadRegisters : CoreM δ (List Char))
  := by
  apply Built.bind
  · apply Built.loop
    intro i buf
    exact .bind (gpwrGet i) fun _ => .pure _
  · intro buf
    exact .bind (gets _) fun _ => .bind (memRead _) fun _ => .bind (memRead _) fun _ =>
      .bind (gets _) fun _ => sendReply _

theorem writeRegisters
    (pkt : List Char) :
  Simulates (gdbWriteRegisters pkt : CoreM δ (List Char))
  := by
  apply Built.bind
  · apply Built.loop
    intro i pkt
    exact .bind (parse _) fun _ => .bind (gpwrSet i _) fun _ => .pure _
  · intro pkt
    exact .bind (parse _) fun _ => .bind (sregSet _) fun _ => .bind (parse _) fun _ =>
      .bind (memWrite _ _) fun _ => .bind (parse _) fun _ => .bind (memWrite _ _) fun _ =>
      .bind (parse _) fun _ => .bind (parse _) fun _ => .bind (pcSet _) fun _ => sendReply _

theorem readRegister
    (pkt : List Char) :
  Simulates (gdbReadRegister pkt : CoreM δ (List Char))
  := .bind (parse _) fun _ => .ite (.bind (gpwrGet _) fun _ => sendReply _) <|
    .ite (.bind (gets _) fun _ => sendReply _) <|
    .ite (.bind (memRead _) fun _ => .bind (memRead _) fun _ => sendReply _) <|
    .ite (.bind (gets _) fun _ => sendReply _) (sendReply _)

theorem writeRegister
    (pkt : List Char) :
  Simulates (gdbWriteRegister pkt : CoreM δ (List Char))
  := .bind (parse _) fun _ => .bind (parse _) fun _ =>
    .ite (.ite (.bind (sregSet _) fun _ => sendReply _) (.bind (gpwrSet _ _) fun _ => sendReply _)) <|
    .ite (.bind (parse _) fun _ => .bind (memWrite _ _) fun _ => .bind (memWrite _ _) fun _ =>
      sendReply _) <|
    .ite (.bind (parse _) fun _ => .bind (pcSet _) fun _ => sendReply _) (sendReply _)

theorem readFlashEven
    (addr : Int) (len : Nat) (buf : List Char) :
  Simulates (gdbReadFlashEven addr len buf : CoreM δ (List Char))
  := by
  apply Built.bind
  · apply Built.loop
    intro i buf
    exact .bind (flashRead _) fun _ => .pure _
  · intro buf
    exact .ite (.bind (flashRead _) fun _ => .pure _) (.pure _)

theorem readMemory
    (pkt : List Char) :
  Simulates (gdbReadMemory pkt : CoreM δ (List Char))
  := by
  apply Built.bind (parse _)
  rintro ⟨addr, len, rest⟩
  apply Built.bind _ fun _ => sendReply _
  apply Built.ite
  · apply Built.loop
    intro i buf
    exact .bind (memRead _) fun _ => .pure _
  · apply Built.ite
    · exact .ite (.bind (flashRead _) fun _ => readFlashEven _ _ _) (readFlashEven _ _ _)
    · apply Built.loop
      intro i buf
      exact .bind (gets _) fun _ => .pure _

theorem writeFlashEven
    (addr : Int) (len : Nat) (pkt : List Char) :
  Simulates (gdbWriteFlashEven addr len pkt : CoreM δ Unit)
  := by
  apply Built.bind
  · apply Built.loop
    intro i pkt
    exact .bind (parse _) fun _ => .bind (parse _) fun _ => .bind (flashWrite _ _) fun _ =>
      .pure _
  · intro pkt
    exact .ite (.bind (parse _) fun _ => .action (.flashWriteLo8 _ _)) (.pure _)

theorem writeMemory
    (pkt : List Char) :
  Simulates (gdbWriteMemory pkt : CoreM δ (List Char))
  := by
  apply Built.bind (parse _)
  rintro ⟨addr, len, rest⟩
  apply Built.bind _ fun _ => sendReply _
  apply Built.ite
  · apply Built.bind _ fun _ => .pure _
    apply Built.loop
    intro i pkt
    exact .bind (parse _) fun _ => .bind (memWrite _ _) fun _ => .pure _
  · apply Built.ite
    · exact .ite (.bind (parse _) fun _ => .bind (.action (.flashWriteHi8 _ _)) fun _ =>
        writeFlashEven _ _ _) (writeFlashEven _ _ _)
    · apply Built.bind _ fun _ => .pure _
      apply Built.loop
      intro i pkt
      exact .bind (parse _) fun _ => .bind (.action (.eeWrite _ _)) fun _ => .pure _

theorem insertBreakpoint
    (pc : Int) :
  Simulates (avrCoreInsertBreakpoint pc : CoreM δ Unit)
  := .bind (flashRead pc) fun insn =>
    .bind (.action (.breakpoints fun c => c.breakpoints.add { pc := pc, opcode := insn })) fun _ =>
    flashWrite pc breakOpcode

theorem removeBreakpoint
    (pc : Int) :
  Simulates (avrCoreRemoveBreakpoint pc : CoreM δ Unit)
  := by
  apply Built.bind (gets _)
  intro breakpoints
  cases breakpoints.lookup (fun bp => bp.pc = pc) with
  | none => exact .pure ()
  | some bp =>
    exact .bind (.action (.breakpoints fun c => c.breakpoints.delete pc)) fun _ => flashWrite _ _

theorem breakPoint
    (z : Char) (pkt : List Char) :
  Simulates (gdbBreakPoint z pkt : CoreM δ (List Char))
  := by
  apply Built.bind (parse _)
  rintro ⟨addr, len, rest⟩
  apply Built.ite
  · apply Built.bind (gets _)
    intro maxPc
    apply Built.ite (sendReply _)
    apply Built.ite
    · exact .bind (removeBreakpoint _) fun _ => sendReply _
    · exact .bind (insertBreakpoint _) fun _ => sendReply _
  · exact .ite (sendReply _) (sendReply _)

theorem resume
    (isRunning : Bool) (step : Char) (pkt : List Char) :
  Simulates (gdbContinue isRunning step pkt : CoreM δ Handled)
  := .ite (.pure _) <| .bind (avrErrorIf _ _) fun _ => .pure _

theorem ioFetch
    (cellName : Int → Option (List Char)) (addr : Int) :
  Simulates (memIoFetch cellName addr : CoreM δ (List Char × Byte))
  := by
  apply Built.bind (gets _)
  intro mem
  apply Built.ite _ (.pure _)
  apply Built.bind (.action (.memGetCell addr))
  rintro ⟨vdev, rdMask, wrMask⟩
  cases cellName addr with
  | none => apply Built.pure
  | some name =>
    cases vdev with
    | none => apply Built.pure
    | some vdev => exact .bind (.action (.vdevRead vdev addr)) fun _ => .pure _

theorem queryRequest
    (cellName : Int → Option (List Char)) (pkt : List Char) :
  Simulates (gdbQueryRequest cellName pkt : CoreM δ (List Char))
  := by
  apply Built.ite _ (sendReply _)
  apply Built.ite (sendReply _)
  apply Built.ite _ (sendReply _)
  apply Built.bind (parse _)
  rintro ⟨addr, len, rest⟩
  apply Built.bind
  · apply Built.loop
    intro i reply
    exact .bind (ioFetch _ _) fun _ => .pure _
  · intro reply
    apply sendReply

theorem continueWithSignal
    (isRunning : Bool) (step : Char) (pkt : List Char) :
  Simulates (gdbContinueWithSignal isRunning step pkt : CoreM δ Handled)
  := by
  apply Built.bind (parse _)
  rintro ⟨signo, rest⟩
  apply Built.ite
  · exact .bind (.action .reset) fun _ => .bind (sendReply _) fun _ => .pure _
  · apply Built.bind
    · by_cases hsigno : signo ≥ 94
      · simp only [if_pos hsigno]
        exact .action (.irqRaise _)
      · simp only [if_neg hsigno]
        exact .pure ()
    · intro _
      exact .ite (resume _ _ _) <| .ite (resume _ _ _) <| .bind (sendReply _) fun _ => .pure _

theorem stopReply
    (signo : Byte) :
  Simulates (gdbStopReply signo : CoreM δ (List Char))
  := .bind (gets _) fun _ => .bind (gets _) fun _ => .bind (memRead _) fun _ =>
    .bind (memRead _) fun _ => sendReply _

theorem iterEnable
    (enable : Bool) (bp : BreakPt) :
  Simulates (iterEnableBreakpoint enable bp : CoreM δ Unit)
  := by
  apply Built.ite
  · apply Built.bind (flashRead _)
    intro insn
    apply Built.ite
    · apply Built.bind _ fun _ => flashWrite _ _
      exact .action (.breakpoints fun c => (c.bpSetOpcode bp.pc insn).breakpoints)
    · exact .pure ()
  · apply flashWrite

theorem iterator
    {func : BreakPt → CoreM δ Unit} (hfunc : ∀ bp, Simulates (func bp)) :
  Simulates (brkPtIterator func)
  := by
  apply Built.bind (gets _)
  intro breakpoints
  induction breakpoints.entries with
  | nil => exact .pure ()
  | cons bp entries ih => exact .bind (hfunc bp) fun _ => ih

end Simulates

/-- The handler of a packet. -/
theorem gdbParsePacket_built
    (cellName : Int → Option (List Char)) (isRunning : Bool) (pkt : List Char) :
  Simulates (gdbParsePacket cellName isRunning pkt : CoreM δ Handled)
  := by
  have hreply {x : CoreM δ (List Char)} (handled : List Char → Handled) (hx : Simulates x) :
      Simulates (do return handled (← x) : CoreM δ Handled) :=
    .bind hx fun _ => .pure _
  rw [gdbParsePacket]
  split
  · apply hreply _ (Simulates.sendReply _)
  · apply hreply _ Simulates.readRegisters
  · apply hreply _ (Simulates.writeRegisters _)
  · apply hreply _ (Simulates.readRegister _)
  · apply hreply _ (Simulates.writeRegister _)
  · apply hreply _ (Simulates.readMemory _)
  · apply hreply _ (Simulates.writeMemory _)
  · exact .bind (.action .reset) fun _ => hreply _ (Simulates.sendReply _)
  · exact .bind (.action .reset) fun _ => hreply _ (Simulates.sendReply _)
  · apply Simulates.continueWithSignal
  · apply Simulates.continueWithSignal
  · apply Simulates.resume
  · apply Simulates.resume
  · apply hreply _ (Simulates.breakPoint _ _)
  · apply hreply _ (Simulates.breakPoint _ _)
  · apply hreply _ (Simulates.queryRequest _ _)
  · apply hreply _ (Simulates.sendReply _)

/-! ### The layout -/

/-- The program `x` leaves the layout `l`. -/
abbrev KeepsLayout (l : Layout) {α : Type} (x : CoreM δ α) : Prop :=
  Keeps (fun c => c.layout = l) (fun _ => True) x

namespace KeepsLayout

variable {l : Layout}

omit [IoDevices δ] in
theorem gets
    {α : Type} (f : AvrCore δ → α) :
  KeepsLayout l (gets f)
  := fun _ h => h

omit [IoDevices δ] in
theorem update
    {f : AvrCore δ → AvrCore δ} (hf : ∀ c, (f c).layout = c.layout) :
  KeepsLayout l (update f)
  := fun c h => (hf c).trans h

omit [IoDevices δ] in
theorem liftExcept
    {α : Type} (x : Except AvrError α) :
  KeepsLayout l (liftExcept x : CoreM δ α)
  := by
  intro c h
  cases x with
  | error e => trivial
  | ok a => apply h

omit [IoDevices δ] in
/-- What stays within the frame of every core. -/
theorem stays
    {α : Type} {x : CoreM δ α} {S : Scope} {pc : Prop} (hx : ∀ c, Stays S pc c x) :
  KeepsLayout l x
  := by
  intro c h
  have hrun := hx c c (Frame.refl c)
  cases hxc : x.run c with
  | error e => trivial
  | ok r =>
    rw [hxc] at hrun
    apply hrun.layout.trans h

omit [IoDevices δ] in
/-- A write of a byte of the flash -/
theorem flashWriteByte
    (addr : Int) (val : Byte) :
  KeepsLayout l (do
    let flash ← SimulAvr.gets AvrCore.flash
    let flash ← SimulAvr.liftExcept (storageWriteb flash addr val)
    SimulAvr.update fun c => { c with flash := flash } : CoreM δ Unit)
  := by
  intro c h
  rw [run_bind_of_ok (run_gets _ c)]
  cases hwrite : storageWriteb c.flash addr val with
  | error e => trivial
  | ok flash =>
    obtain ⟨hbase, hsize⟩ := storageWriteb_shape hwrite
    change AvrCore.layout { c with flash := flash } = l
    rw [← h]
    simp only [AvrCore.layout, hbase, hsize]

omit [IoDevices δ] in
theorem devEvents
    (c : AvrCore δ) (events : List DevEvent) :
  (events.foldl AvrCore.devEvent c).layout = c.layout
  := by
  induction events generalizing c with
  | nil => rfl
  | cons event events ih =>
    cases event with
    | irqRaise irq => apply ih

omit [IoDevices δ] in
/-- A pass over the callbacks -/
theorem callbacks
    (x : AvrCore δ → Except DevError (δ × List DevEvent)) :
  KeepsLayout l (do
    let c ← get
    let (dev, events) ← liftDev (x c)
    SimulAvr.update fun c => events.foldl AvrCore.devEvent { c with dev := dev } : CoreM δ Unit)
  := by
  intro c h
  rw [run_bind_of_ok (run_get c)]
  cases hx : x c with
  | error e => trivial
  | ok r =>
    obtain ⟨dev, events⟩ := r
    exact (devEvents { c with dev := dev } events).trans h

end KeepsLayout

/-- The accesses of the simulator leave the layout. -/
theorem CoreAccess.keepsLayout
    {l : Layout} {α : Type} {x : CoreM δ α} (hx : CoreAccess α x) :
  KeepsLayout l x
  := by
  cases hx with
  | inst h => exact KeepsLayout.stays fun c => Stays.access h
  | parse x => apply KeepsLayout.liftExcept
  | gets f => apply KeepsLayout.gets
  | memGetCell addr =>
    exact KeepsLayout.stays fun c => (Stays.memGetCell trivial : Stays .all True c _)
  | vdevRead vdev addr =>
    exact KeepsLayout.stays fun c => (Stays.vdevRead vdev addr : Stays .all True c _)
  | flashWriteLo8 addr val => apply KeepsLayout.flashWriteByte
  | flashWriteHi8 addr val => apply KeepsLayout.flashWriteByte
  | breakpoints f => exact KeepsLayout.update fun _ => rfl
  | eeWrite addr val => exact KeepsLayout.update fun _ => rfl
  | reset => exact KeepsLayout.update fun c => (AvrCore.reset_spec c).layout
  | irqRaise irq => exact KeepsLayout.update fun _ => rfl
  | irqClear irq => exact KeepsLayout.update fun _ => rfl
  | irqGetPending =>
    intro c h
    have hrun : avrCoreIrqGetPending.run c =
        (irqGetPendingVector c.irqPending c.state c.sleepMode).map fun irq => (irq, c) := rfl
    rw [hrun]
    cases irqGetPendingVector c.irqPending c.state c.sleepMode with
    | error e => trivial
    | ok irq => apply h
  | clkCbExec => apply KeepsLayout.callbacks fun c => IoDevices.clkCbExec c.ck c.dev
  | asyncCbExec => apply KeepsLayout.callbacks fun c => IoDevices.asyncCbExec c.dev
  | ckIncr => exact KeepsLayout.update fun _ => rfl
  | instCKSDecr => exact KeepsLayout.update fun _ => rfl

/-! ### Runs of the simulator -/

/-- What the simulator does to a core. -/
inductive CoreEvent where
  /-- `avr_core_step` -/
  | step
  /-- `avr_core_reset` -/
  | reset
  /-- `avr_core_irq_raise` -/
  | irqRaise (irq : Nat)
  /-- `gdb_parse_packet` -/
  | packet (isRunning : Bool) (pkt : List Char)
  /-- The reply of `gdb_continue` for a signal -/
  | stopReply (signo : Byte)
  /-- `avr_core_disable_breakpoints` and `avr_core_enable_breakpoints` -/
  | breakpoints (enable : Bool)

/-- The steps of a core that the simulator takes. -/
inductive CoreStep (cellName : Int → Option (List Char)) :
    CoreEvent → AvrCore δ → AvrCore δ → Prop
  | step {c c' : AvrCore δ} {ret : OpRet} (h : avrCoreStep.run c = .ok (ret, c')) :
      CoreStep cellName .step c c'
  | reset (c : AvrCore δ) : CoreStep cellName .reset c c.reset
  | irqRaise (irq : Nat) (c : AvrCore δ) : CoreStep cellName (.irqRaise irq) c (c.irqRaise irq)
  | packet {c c' : AvrCore δ} {isRunning : Bool} {pkt : List Char} {handled : Handled}
      (h : (gdbParsePacket cellName isRunning pkt).run c = .ok (handled, c')) :
      CoreStep cellName (.packet isRunning pkt) c c'
  | stopReply {c c' : AvrCore δ} {signo : Byte} {reply : List Char}
      (h : (gdbStopReply signo).run c = .ok (reply, c')) :
      CoreStep cellName (.stopReply signo) c c'
  | breakpoints {c c' : AvrCore δ} {enable : Bool}
      (h : (brkPtIterator (iterEnableBreakpoint enable)).run c = .ok ((), c')) :
      CoreStep cellName (.breakpoints enable) c c'

/-- What the accesses keep, the steps keep. -/
theorem CoreStep.keeps
    {I : AvrCore δ → Prop} {E : AvrError → Prop}
    (hI : ∀ α (x : CoreM δ α), CoreAccess α x → Keeps I E x)
    {cellName : Int → Option (List Char)} {e : CoreEvent} {c c' : AvrCore δ}
    (h : CoreStep cellName e c c') (hc : I c) :
  I c'
  := by
  cases h with
  | step h => apply (avrCoreStep_built.keeps hI).of_ok hc h
  | reset => apply (Built.action CoreAccess.reset).keeps hI c hc
  | irqRaise irq => apply (Built.action (CoreAccess.irqRaise irq)).keeps hI c hc
  | packet h => apply ((gdbParsePacket_built _ _ _).keeps hI).of_ok hc h
  | stopReply h => apply ((Simulates.stopReply _).keeps hI).of_ok hc h
  | @breakpoints _ _ enable h =>
    have hiter : Simulates (brkPtIterator (iterEnableBreakpoint enable) : CoreM δ Unit) :=
      Simulates.iterator fun bp => Simulates.iterEnable enable bp
    apply (hiter.keeps hI).of_ok hc h

/-- The runs of the simulator leave the layout. -/
theorem CoreStep.layout
    {cellName : Int → Option (List Char)} {ok : AvrCore δ → CoreEvent → Prop} {c c' : AvrCore δ}
    (hrun : Run (CoreStep cellName) ok c c') :
  c'.layout = c.layout
  := by
  apply hrun.invariant (I := fun c' => c'.layout = c.layout) _ rfl
  intro c₁ e c₂ h _ hstep
  apply hstep.keeps (fun _ _ => CoreAccess.keepsLayout) h

end

end SimulAvr
