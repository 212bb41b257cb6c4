import SimulAvr.CorePeripherals
import SimulAvr.InterruptReturn
import SimulAvr.PeripheralAccesses
import SimulAvr.Peripherals.InterruptSources
import SimulAvr.Target

/-!
# Interrupts are serviced while they are enabled

A callback puts an interrupt into the list of pending ones, and a check takes it from there,
possibly many instructions later, without another look at its enable bit or at its flag.  What an
interrupt that is taken tells is what the accesses since it was raised have left: where none of them
withdraws an interrupt that is pending, an interrupt is taken only while its enable bit is set, and no
access has cleared its flag since the pass over the callbacks that raised it
(`serviced_while_enabled`).
-/

namespace SimulAvr

open Program CallbackList Transition

/-! ### Runs of a core -/

/-- What happens to a core: the parts of `avr_core_step`, writes to registers, and resets -/
inductive ServiceEvent where
  | instruction
  | write (addr : Int) (val : Byte)
  | clock
  | async
  | check
  | reset

namespace ServiceEvent

/-- What is run at an event -/
def run : ServiceEvent → CoreM Peripherals Unit
  | instruction => do
    let _ ← execNextInstruction
    return ()
  | write addr val => memWrite addr val
  | clock => do
    avrCoreClkCbExec
    update AvrCore.ckIncr
    update fun c => { c with instCKS := c.instCKS - 1 }
  | async => avrCoreAsyncCbExec
  | check => avrCoreCheckInterrupts
  | reset => update AvrCore.reset

end ServiceEvent

/-- The event returns. -/
def ServiceStep (e : ServiceEvent) (c c' : AvrCore Peripherals) : Prop :=
  e.run.run c = .ok ((), c')

theorem ServiceStep.unique
    {e : ServiceEvent} {c c₁ c₂ : AvrCore Peripherals} (h₁ : ServiceStep e c c₁)
    (h₂ : ServiceStep e c c₂) :
  c₁ = c₂
  := congrArg Prod.snd (Except.ok.inj (h₁.symm.trans h₂))

/-- The events of a step of the core, with `n` clocks -/
def stepEvents (c : AvrCore Peripherals) (ret : OpRet) (n : Nat) : List ServiceEvent :=
  (if c.state = .sleep then [] else [.instruction]) ++ List.replicate n .clock ++ [.async]
    ++ if ret = .opcode .RETI then [] else [.check]

/-- The clocks of an instruction, one after the other -/
theorem propagateClocks_services
    {n : Nat} {c c' : AvrCore Peripherals} (h : (propagateClocks n).run c = .ok ((), c')) :
  ∃ taken, Path ServiceStep c taken c' ∧ taken.map Prod.snd = List.replicate n .clock
  := by
  induction n generalizing c with
  | zero =>
    cases h
    exact ⟨[], .nil _, rfl⟩
  | succ n ih =>
    obtain ⟨⟨⟩, c₁, hclk, h⟩ := run_bind_eq_ok.mp h
    obtain ⟨⟨⟩, c₂, hck, h⟩ := run_bind_eq_ok.mp h
    obtain ⟨⟨⟩, c₃, hcks, hrest⟩ := run_bind_eq_ok.mp h
    obtain ⟨taken, hpath, hevents⟩ := ih hrest
    have hclock : ServiceStep .clock c c₃ := by
      rw [ServiceStep, ServiceEvent.run, run_bind_of_ok hclk, run_bind_of_ok hck]
      exact hcks
    refine ⟨(c, .clock) :: taken, .cons hclock hpath, ?_⟩
    rw [List.map_cons, hevents]
    rfl

/-- A step of the core is a path of its events. -/
theorem avrCoreStep_services
    {c c' : AvrCore Peripherals} {ret : OpRet} (h : avrCoreStep.run c = .ok (ret, c')) :
  ∃ taken n, Path ServiceStep c taken c' ∧ taken.map Prod.snd = stepEvents c ret n
  := by
  obtain ⟨c₁, c₂, c₃, hexec, hclocks, hasync, hrest⟩ := avrCoreStep_eq_ok.mp h
  obtain ⟨clocks, hpath, hevents⟩ := propagateClocks_services hclocks
  obtain ⟨first, hfirst, hfirstEvents⟩ : ∃ first, Path ServiceStep c first c₁ ∧
      first.map Prod.snd = if c.state = .sleep then [] else [.instruction] := by
    rw [execUnlessAsleep, run_bind_of_ok (run_gets _ c)] at hexec
    split at hexec
    · next hsleep =>
      cases hexec
      exact ⟨[], .nil _, by rw [if_pos hsleep]; rfl⟩
    · next hawake =>
      have hstep : ServiceStep .instruction c c₁ := by
        rw [ServiceStep, ServiceEvent.run, run_bind_of_ok hexec]
        rfl
      exact ⟨[(c, .instruction)], .cons hstep (.nil c₁), by rw [if_neg hawake]; rfl⟩
  obtain ⟨last, hlast, hlastEvents⟩ : ∃ last, Path ServiceStep c₃ last c' ∧
      last.map Prod.snd = if ret = .opcode .RETI then [] else [.check] := by
    split at hrest
    · next hreti =>
      subst hrest
      exact ⟨[], .nil c', by rw [if_pos hreti]; rfl⟩
    · next hreti => exact ⟨[(c₃, .check)], .cons hrest (.nil c'), by rw [if_neg hreti]; rfl⟩
  have hmiddle : Path ServiceStep c₂ [(c₂, .async)] c₃ := .cons hasync (.nil c₃)
  refine ⟨first ++ clocks ++ [(c₂, .async)] ++ last, c₁.instCKS.toNat,
    ((hfirst.append hpath).append hmiddle).append hlast, ?_⟩
  rw [List.map_append, List.map_append, List.map_append, hfirstEvents, hevents, hlastEvents]
  rfl

/-! ### Sources of interrupts -/

/-- The interrupt that a check vectors to, if it does -/
def AvrCore.vectorsTo (c : AvrCore Peripherals) : Option IntVect :=
  if c.irqPending.entries = [] then none
  else do
    let irq ← c.read avrCoreIrqGetPending
    if (c.resetFor irq).sregGetBit SREG.I then some irq else none

/-- The event raises the interrupt of a source. -/
def ServiceEvent.Raises (src : IrqSource) (c : AvrCore Peripherals) : ServiceEvent → Prop
  | clock => src.RaisedBy c.ck c.dev.cbs.clkCb c.dev
  | async => ∃ time p, getProgramTime.run c.dev = .ok (time, p)
      ∧ src.RaisedBy time.toNat c.dev.cbs.asyncCb p
  | instruction | write _ _ | check | reset => False

/-- The accesses to the peripherals that an event makes, and what it leaves -/
structure ServiceEvent.Makes (e : ServiceEvent) (c : AvrCore Peripherals)
    (taken : List (Peripherals × IoEvent)) (c' : AvrCore Peripherals) : Prop where
  step : ServiceStep e c c'
  path : Path IoStep c.dev taken c'.dev
  accesses : ∀ x ∈ taken, x.2.isAccess = true

namespace IrqSource

/-- The interrupt of the source -/
def irq (src : IrqSource) (c : AvrCore Peripherals) : IntVect :=
  c.irqVtable (irqVectTableIndex (src.vect c.dev))

/-- The interrupt is pending. -/
def Pending (src : IrqSource) (c : AvrCore Peripherals) : Prop :=
  src.irq c ∈ c.irqPending.entries

/-- The event clears the flag by an access. -/
def FlagCleared (src : IrqSource) (c : AvrCore Peripherals) (e : ServiceEvent) : Prop :=
  ∃ taken c', e.Makes c taken c' ∧ ∃ x ∈ taken, src.ClearsFlag x.1 x.2

/-- The event withdraws the interrupt: it is pending and stays so, and an access clears its enable
bit or its flag. -/
def Withdrawn (src : IrqSource) (c : AvrCore Peripherals) (e : ServiceEvent) : Prop :=
  ∃ taken c', e.Makes c taken c' ∧ src.Pending c ∧ src.Pending c'
    ∧ ∃ x ∈ taken, src.ClearsEnable x.1 x.2 ∨ src.ClearsFlag x.1 x.2

/-- The interrupt has been raised, and since then no access has cleared its flag. -/
def RaisedSince (src : IrqSource) (taken : List (AvrCore Peripherals × ServiceEvent)) : Prop :=
  ∃ before c e since, taken = before ++ (c, e) :: since ∧ e.Raises src c
    ∧ ∀ x ∈ since, ¬ src.FlagCleared x.1 x.2

theorem RaisedSince.append
    {src : IrqSource} {taken : List (AvrCore Peripherals × ServiceEvent)} (h : src.RaisedSince taken)
    {c : AvrCore Peripherals} {e : ServiceEvent} (hkeep : ¬ src.FlagCleared c e) :
  src.RaisedSince (taken ++ [(c, e)])
  := by
  obtain ⟨before, r, e', since, rfl, hraises, hsince⟩ := h
  refine ⟨before, r, e', since ++ [(c, e)], ?_, hraises, ?_⟩
  · rw [List.append_assoc]
    rfl
  · exact List.forall_mem_append.mpr ⟨hsince, List.forall_mem_singleton.mpr hkeep⟩

end IrqSource

/-- An interrupt with the events so far: it is RESET, or that of a source that is enabled and has been
raised, with its flag left alone since. -/
def Justified (taken : List (AvrCore Peripherals × ServiceEvent)) (c : AvrCore Peripherals)
    (irq : IntVect) : Prop :=
  irq = c.irqVtable (irqVectTableIndex .RESET)
    ∨ ∃ src : IrqSource, irq = src.irq c ∧ src.Enabled c.dev ∧ src.RaisedSince taken

/-! ### What the events leave -/

section

variable {c c' : AvrCore Peripherals} {e : ServiceEvent}
  {hist : List (AvrCore Peripherals × ServiceEvent)}

theorem IrqSource.irq_eq
    (hvtable : c'.irqVtable = c.irqVtable) (hvects : uartVects c'.dev = uartVects c.dev)
    (src : IrqSource) :
  src.irq c' = src.irq c
  := by
  rw [irq, irq, hvtable, src.vect_eq hvects]

/-- Accesses leave the vectors of the UART, and the enable bits that they do not clear. -/
theorem accesses_enabled
    {p q : Peripherals} {taken : List (Peripherals × IoEvent)} (h : Path IoStep p taken q) :
  uartVects q = uartVects p ∧ ∀ src : IrqSource, src.Enabled p →
    (∀ x ∈ taken, ¬ src.ClearsEnable x.1 x.2) → src.Enabled q
  := by
  induction h with
  | nil => exact ⟨rfl, fun _ h _ => h⟩
  | cons hstep _ ih =>
    obtain ⟨hvects, henabled⟩ := ih
    use hvects.trans hstep.uartVects_eq
    intro src h hkeep
    rw [List.forall_mem_cons] at hkeep
    exact henabled src (hstep.enabled h hkeep.1) hkeep.2

/-- An event that makes accesses leaves an interrupt justified that stays pending. -/
theorem Justified.makes
    {taken : List (Peripherals × IoEvent)} {irq : IntVect} (h : Justified hist c irq)
    (hmakes : e.Makes c taken c') (hvtable : c'.irqVtable = c.irqVtable)
    (hok : ∀ src : IrqSource, ¬ src.Withdrawn c e) (hpending : irq ∈ c.irqPending.entries)
    (hpending' : irq ∈ c'.irqPending.entries) :
  Justified (hist ++ [(c, e)]) c' irq
  := by
  obtain ⟨hvects, henabled⟩ := accesses_enabled hmakes.path
  obtain rfl | ⟨src, rfl, hsrc, hraised⟩ := h
  · left
    rw [hvtable]
  · right
    have hirq := src.irq_eq hvtable hvects
    have hkeep : ∀ x ∈ taken, ¬ (src.ClearsEnable x.1 x.2 ∨ src.ClearsFlag x.1 x.2) := by
      intro x hx hclears
      apply hok src
      refine ⟨taken, c', hmakes, hpending, ?_, x, hx, hclears⟩
      rw [IrqSource.Pending, hirq]
      exact hpending'
    refine ⟨src, hirq.symm, ?_, ?_⟩
    · exact henabled src hsrc fun x hx hclears => hkeep x hx (.inl hclears)
    · apply hraised.append
      rintro ⟨taken', c₂, hmakes', x, hx, hclears⟩
      obtain rfl := hmakes.step.unique hmakes'.step
      apply hok src
      refine ⟨taken', c', hmakes', hpending, ?_, x, hx, .inr hclears⟩
      rw [IrqSource.Pending, hirq]
      exact hpending'

/-- The interrupts that are pending after the events of callbacks -/
theorem mem_devEvents
    {irq : IntVect} (events : List DevEvent) (c : AvrCore Peripherals) :
  (irq ∈ c.irqPending.entries → irq ∈ (events.foldl AvrCore.devEvent c).irqPending.entries)
    ∧ (irq ∈ (events.foldl AvrCore.devEvent c).irqPending.entries →
      irq ∈ c.irqPending.entries ∨ ∃ n, .irqRaise n ∈ events ∧ irq = c.irqVtable n)
    ∧ (events.foldl AvrCore.devEvent c).irqVtable = c.irqVtable
  := by
  induction events generalizing c with
  | nil => exact ⟨fun h => h, fun h => .inl h, rfl⟩
  | cons event events ih =>
    cases event with
    | irqRaise n =>
      obtain ⟨hstays, hcomes, hvtable⟩ := ih (c.irqRaise n)
      refine ⟨fun h => hstays (UniqueList.mem_add_of_mem _ h), ?_, hvtable⟩
      intro h
      obtain hmem | ⟨m, hm, rfl⟩ := hcomes h
      · obtain hmem | rfl := UniqueList.mem_of_mem_add hmem
        · exact .inl hmem
        · exact .inr ⟨n, .head _, rfl⟩
      · exact .inr ⟨m, .tail _ hm, rfl⟩

/-- The events of callbacks leave the peripherals. -/
theorem devEvents_dev
    (d c : AvrCore Peripherals) (events : List DevEvent) (hpending : d.irqPending = c.irqPending)
    (hvtable : d.irqVtable = c.irqVtable) :
  (events.foldl AvrCore.devEvent d).dev = d.dev
    ∧ (events.foldl AvrCore.devEvent d).irqPending = (events.foldl AvrCore.devEvent c).irqPending
    ∧ (events.foldl AvrCore.devEvent d).irqVtable = c.irqVtable
  := by
  induction events generalizing c d with
  | nil => exact ⟨rfl, hpending, hvtable⟩
  | cons event events ih =>
    cases event with
    | irqRaise n =>
      apply ih (d.irqRaise n) (c.irqRaise n) _ hvtable
      rw [AvrCore.irqRaise, AvrCore.irqRaise, hpending, hvtable]

/-- `avr_core_clk_cb_exec` is a pass over the callbacks of the clock. -/
theorem clkCbExec_run
    (h : avrCoreClkCbExec.run c = .ok ((), c')) :
  ∃ r q, (callbackListExecuteAll c.ck c.dev.cbs.clkCb).run c.dev = .ok (r, q)
    ∧ c'.dev = { q with cbs := { q.cbs with clkCb := r.1 } }
    ∧ c'.irqPending = (r.2.foldl AvrCore.devEvent c).irqPending ∧ c'.irqVtable = c.irqVtable
  := by
  rw [avrCoreClkCbExec, run_bind_of_ok (run_get c)] at h
  have hexec : IoDevices.clkCbExec c.ck c.dev = ((clkCbExec c.ck).run c.dev).map Prod.swap := rfl
  rw [hexec] at h
  cases hrun : (clkCbExec c.ck).run c.dev with
  | error e =>
    rw [hrun] at h
    contradiction
  | ok r =>
    obtain ⟨events, dev⟩ := r
    rw [hrun] at h
    cases h
    rw [clkCbExec, run_bind_of_ok rfl, run_bind_eq_ok] at hrun
    obtain ⟨r', q, hpass, hrun⟩ := hrun
    cases hrun
    have hevents (dev : Peripherals) := devEvents_dev { c with dev := dev } c r'.2 rfl rfl
    exact ⟨r', q, hpass, (hevents _).1, (hevents _).2.1, (hevents _).2.2⟩

/-- `avr_core_async_cb_exec` is a pass over the asynchronous callbacks. -/
theorem asyncCbExec_run
    (h : avrCoreAsyncCbExec.run c = .ok ((), c')) :
  ∃ time p r q, getProgramTime.run c.dev = .ok (time, p)
    ∧ (callbackListExecuteAll time.toNat c.dev.cbs.asyncCb).run p = .ok (r, q)
    ∧ c'.dev = { q with cbs := { q.cbs with asyncCb := r.1 } }
    ∧ c'.irqPending = (r.2.foldl AvrCore.devEvent c).irqPending ∧ c'.irqVtable = c.irqVtable
  := by
  rw [avrCoreAsyncCbExec, run_bind_of_ok (run_gets _ c)] at h
  have hexec : IoDevices.asyncCbExec c.dev = (asyncCbExec.run c.dev).map Prod.swap := rfl
  rw [hexec] at h
  cases hrun : asyncCbExec.run c.dev with
  | error e =>
    rw [hrun] at h
    contradiction
  | ok r =>
    obtain ⟨events, dev⟩ := r
    rw [hrun] at h
    cases h
    rw [asyncCbExec, run_bind_of_ok rfl, run_bind_of_ok rfl, run_bind_eq_ok] at hrun
    obtain ⟨r', q, hpass, hrun⟩ := hrun
    cases hrun
    have hevents (dev : Peripherals) := devEvents_dev { c with dev := dev } c r'.2 rfl rfl
    exact ⟨_, _, r', q, rfl, hpass, (hevents _).1, (hevents _).2.1, (hevents _).2.2⟩

/-- A pass over callbacks leaves the interrupts justified that are pending, and so are those that it
raises. -/
theorem justified_pass
    {time : Nat} {fs : List CallBackFP} {p q : Peripherals} {r : List CallBackFP × List DevEvent}
    {cbs : CallBacks} (hrun : (callbackListExecuteAll time fs).run p = .ok (r, q))
    (henables : enables p = enables c.dev) (hvects : uartVects p = uartVects c.dev)
    (hraises : ∀ src : IrqSource, src.RaisedBy time fs p → e.Raises src c)
    (hdev : c'.dev = { q with cbs := cbs })
    (hirqs : c'.irqPending = (r.2.foldl AvrCore.devEvent c).irqPending)
    (hvtable : c'.irqVtable = c.irqVtable)
    (h : ∀ irq ∈ c.irqPending.entries, Justified hist c irq)
    (hok : ∀ src : IrqSource, ¬ src.Withdrawn c e) (hstep : ServiceStep e c c') :
  ∀ irq ∈ c'.irqPending.entries, Justified (hist ++ [(c, e)]) c' irq
  := by
  obtain ⟨henablesq, hvectsq, hevents⟩ := pass_raises hrun
  have henables' : enables c'.dev = enables c.dev := by
    rw [hdev]
    exact henablesq.trans henables
  have hvects' : uartVects c'.dev = uartVects c.dev := by
    rw [hdev]
    exact hvectsq.trans hvects
  intro irq hmem
  rw [hirqs] at hmem
  obtain ⟨hstays, hcomes, -⟩ := @mem_devEvents irq r.2 c
  obtain hmem | ⟨n, hevent, rfl⟩ := hcomes hmem
  · obtain rfl | ⟨src, rfl, hsrc, hraised⟩ := h irq hmem
    · left
      rw [hvtable]
    · right
      refine ⟨src, (src.irq_eq hvtable hvects').symm, hsrc.of_enables henables', ?_⟩
      apply hraised.append
      rintro ⟨taken, c₂, hmakes, x, hx, hclears⟩
      obtain rfl := hstep.unique hmakes.step
      apply hok src
      refine ⟨taken, c', hmakes, hmem, ?_, x, hx, .inr hclears⟩
      rw [IrqSource.Pending, src.irq_eq hvtable hvects', hirqs]
      exact hstays hmem
  · obtain heq | ⟨src, heq, hraised, hsrc⟩ := hevents _ hevent
    · left
      rw [DevEvent.irqRaise.inj heq, hvtable]
    · right
      refine ⟨src, ?_, ?_, hist, c, e, [], rfl, hraises src hraised, List.forall_mem_nil _⟩
      · rw [src.irq_eq hvtable hvects', IrqSource.irq, DevEvent.irqRaise.inj heq, src.vect_eq hvects]
      · rw [hdev]
        exact hsrc

/-- A step leaves the pending interrupts justified, if it withdraws none of them. -/
theorem ServiceStep.justified
    (hstep : ServiceStep e c c') (hok : ∀ src : IrqSource, ¬ src.Withdrawn c e)
    (h : ∀ irq ∈ c.irqPending.entries, Justified hist c irq) :
  ∀ irq ∈ c'.irqPending.entries, Justified (hist ++ [(c, e)]) c' irq
  := by
  have haccesses (haccesses : Accesses c c') :
      ∀ irq ∈ c'.irqPending.entries, Justified (hist ++ [(c, e)]) c' irq := by
    obtain ⟨taken, hpath, hall⟩ := haccesses.path
    intro irq hmem
    have hmem' := hmem
    rw [haccesses.irqPending] at hmem'
    exact (h irq hmem').makes ⟨hstep, hpath, hall⟩ haccesses.irqVtable hok hmem' hmem
  have hnil (hnil : c'.irqPending = .nil) :
      ∀ irq ∈ c'.irqPending.entries, Justified (hist ++ [(c, e)]) c' irq := by
    rw [hnil]
    exact List.forall_mem_nil _
  cases e with
  | instruction =>
    obtain ⟨ret, c₁, hexec, hret⟩ := run_bind_eq_ok.mp hstep
    cases hret
    exact haccesses (execNextInstruction_accesses hexec)
  | write addr val =>
    exact haccesses ((KeepsAccesses.memWrite addr val).of_ok (.of_eq rfl rfl rfl) hstep)
  | clock =>
    obtain ⟨⟨⟩, c₁, hclk, hrest⟩ := run_bind_eq_ok.mp hstep
    rw [run_bind_of_ok (run_update _ c₁)] at hrest
    cases hrest
    obtain ⟨r, q, hpass, hdev, hirqs, hvtable⟩ := clkCbExec_run hclk
    exact justified_pass hpass rfl rfl (fun _ hraised => hraised) hdev hirqs hvtable h hok hstep
  | async =>
    obtain ⟨time, p, r, q, htime, hpass, hdev, hirqs, hvtable⟩ := asyncCbExec_run hstep
    cases htime
    exact justified_pass hpass rfl rfl (fun _ hraised => ⟨_, _, rfl, hraised⟩) hdev hirqs hvtable h
      hok hstep
  | check =>
    obtain rfl | ⟨irq, htake⟩ := check_cases hstep
    · exact haccesses (.of_eq rfl rfl rfl)
    obtain ⟨-, hcases⟩ := takeInterrupt_cases htake
    by_cases hreset : irq.addr = irqResetAddr
    · have hfor : (c.resetFor irq).irqPending = .nil := by
        rw [AvrCore.resetFor, if_pos hreset]
        apply (AvrCore.reset_spec c).irqPending
      obtain ⟨-, rfl⟩ | ⟨-, hvector⟩ := hcases
      · exact hnil hfor
      · obtain ⟨c₁, -, -, -, hpending⟩ := vectorTo_accesses hvector
        apply hnil
        rw [hpending, hfor]
        rfl
    · rw [show c.resetFor irq = c from if_neg hreset] at hcases
      obtain ⟨-, rfl⟩ | ⟨-, hvector⟩ := hcases
      · exact haccesses (.of_eq rfl rfl rfl)
      · obtain ⟨c₁, hrun, hdev, hvtable, hpending⟩ := vectorTo_accesses hvector
        obtain ⟨taken, hpath, hall⟩ := hrun.path
        rw [← hdev] at hpath
        intro irq' hmem
        have hmem' := hmem
        rw [hpending, UniqueList.delete_entries] at hmem'
        have hmem' := List.mem_of_mem_filter hmem'
        exact (h irq' hmem').makes ⟨hstep, hpath, hall⟩ hvtable hok hmem' hmem
  | reset =>
    cases hstep
    exact hnil (AvrCore.reset_spec c).irqPending

/-- An interrupt that is taken is a pending one. -/
theorem AvrCore.mem_of_vectorsTo
    {irq : IntVect} (h : c.vectorsTo = some irq) :
  irq ∈ c.irqPending.entries
  := by
  rw [vectorsTo] at h
  split at h
  · contradiction
  · obtain ⟨irq', hget, h⟩ := Option.bind_eq_some_iff.mp h
    split at h
    · cases h
      obtain hrun | ⟨irq'', hrun⟩ := avrCoreIrqGetPending_cases c
      · rw [AvrCore.read, hrun] at hget
        contradiction
      · rw [read_eq_some hrun] at hget
        cases hget
        exact mem_of_avrCoreIrqGetPending hrun
    · contradiction

end

/-- In every run from a core without pending interrupts in which no event withdraws an interrupt that
is pending, an interrupt that a check vectors to is RESET or that of a source whose enable bit is
set, which was raised when its enable bit and its flag were set, and whose flag no access has cleared
since. -/
theorem serviced_while_enabled
    {c c' : AvrCore Peripherals} {taken : List (AvrCore Peripherals × ServiceEvent)}
    (hnone : c.irqPending.entries = []) (hpath : Path ServiceStep c taken c')
    (hok : ∀ x ∈ taken, ∀ src : IrqSource, ¬ src.Withdrawn x.1 x.2) :
  ∀ before s after irq, taken = before ++ (s, .check) :: after → s.vectorsTo = some irq →
    irq = s.irqVtable (irqVectTableIndex .RESET)
      ∨ ∃ src : IrqSource, irq = src.irq s ∧ src.Enabled s.dev ∧ src.RaisedSince before
  := by
  rintro before s after irq rfl hvector
  obtain ⟨s', hbefore, -, -⟩ := hpath.of_append_cons
  have hjustified : ∀ irq ∈ s.irqPending.entries, Justified ([] ++ before) s irq := by
    apply @Path.invariant_history _ _ _ (fun s e => ∀ src : IrqSource, ¬ src.Withdrawn s e) _ _ _
      (fun hist s => ∀ irq ∈ s.irqPending.entries, Justified hist s irq) hbefore
    · exact fun x hx => hok x (List.mem_append_left _ hx)
    · exact fun hist s e t hs hok hstep => hstep.justified hok hs
    · rw [hnone]
      exact List.forall_mem_nil _
  exact hjustified irq (AvrCore.mem_of_vectorsTo hvector)

/-- An event that leaves the peripherals makes no access. -/
theorem ServiceEvent.Makes.eq_nil
    {e : ServiceEvent} {c c' : AvrCore Peripherals} {taken : List (Peripherals × IoEvent)}
    (h : e.Makes c taken c') (hdev : c'.dev = c.dev) :
  taken = []
  := by
  have hhistory := history_path h.path
  rw [hdev, List.self_eq_append_right] at hhistory
  cases taken with
  | nil => rfl
  | cons x taken =>
    obtain ⟨p, e⟩ := x
    have haccess := h.accesses (p, e) List.mem_cons_self
    rw [accesses_cons] at hhistory
    cases e <;> contradiction

/-- An event that leaves the peripherals withdraws no interrupt. -/
theorem IrqSource.not_withdrawn_of_dev
    {src : IrqSource} {e : ServiceEvent} {c c' : AvrCore Peripherals} (hstep : ServiceStep e c c')
    (hdev : c'.dev = c.dev) :
  ¬ src.Withdrawn c e
  := by
  rintro ⟨taken, c₁, hmakes, -, -, x, hx, -⟩
  obtain rfl := hstep.unique hmakes.step
  rw [hmakes.eq_nil hdev] at hx
  exact List.not_mem_nil hx
/-- A core with an SPI that has transferred a byte, and a program of SEIs -/
def spiCore : AvrCore Peripherals :=
  { AvrCore.construct { defnOsEID128 with ioReg := [] } spiDone with
    state := .running
    flash := .filled 65536 0x9478
    sp := { splAddr := 0x5d, spl := 0xff, sph := 0x01 } }
where
  spiDone : Peripherals :=
    { (default : Peripherals) with
      spiIntr := { (default : SPIIntr) with spcr := 0xc0, spsr := 0x80 }
      cbs := { clkCb := [], asyncCb := [.spiIntrCb], held := fun f => decide (f = .spiIntrCb) } }

/-- The interrupt of the SPI is raised while interrupts are disabled, stays pending over a check
and an instruction, and is taken. -/
theorem serviced_while_enabled_spi :
  ∃ s s' c, ServiceStep .async spiCore s ∧ ServiceStep .check s s ∧ ServiceStep .instruction s s'
    ∧ ServiceStep .check s' c
    ∧ s'.vectorsTo = some (vtabAtmega128 (irqVectTableIndex .SPI_STC))
    ∧ (vtabAtmega128 (irqVectTableIndex .SPI_STC) = s'.irqVtable (irqVectTableIndex .RESET)
      ∨ ∃ src : IrqSource, vtabAtmega128 (irqVectTableIndex .SPI_STC) = src.irq s'
        ∧ src.Enabled s'.dev
        ∧ src.RaisedSince [(spiCore, .async), (s, .check), (s, .instruction)])
  := by
  obtain ⟨s, s', c, hs, hcheck, hs', hc, hdev, hvector, hnone⟩ : ∃ s s' c,
      ServiceStep .async spiCore s ∧ ServiceStep .check s s ∧ ServiceStep .instruction s s'
      ∧ ServiceStep .check s' c ∧ s'.dev = s.dev
      ∧ s'.vectorsTo = some (vtabAtmega128 (irqVectTableIndex .SPI_STC))
      ∧ c.irqPending.entries = [] :=
    ⟨_, _, _, rfl, rfl, rfl, rfl, rfl, rfl, rfl⟩
  have hpath : Path ServiceStep spiCore
      [(spiCore, .async), (s, .check), (s, .instruction), (s', .check)] c :=
    .cons hs (.cons hcheck (.cons hs' (.single hc)))
  refine ⟨s, s', c, hs, hcheck, hs', hc, hvector, ?_⟩
  apply serviced_while_enabled rfl hpath _ [(spiCore, .async), (s, .check), (s, .instruction)] s' []
    _ rfl hvector
  rw [List.forall_mem_cons, List.forall_mem_cons, List.forall_mem_cons, List.forall_mem_singleton]
  split_ands
  · rintro src ⟨taken, c', hmakes, hbefore, -⟩
    exact List.not_mem_nil hbefore
  · exact fun src => IrqSource.not_withdrawn_of_dev hcheck rfl
  · exact fun src => IrqSource.not_withdrawn_of_dev hs' hdev
  · rintro src ⟨taken, c', hmakes, -, hafter, -⟩
    obtain rfl := hc.unique hmakes.step
    rw [IrqSource.Pending, hnone] at hafter
    exact List.not_mem_nil hafter

end SimulAvr
