import SimulAvr.Device
import SimulAvr.ProgramCounter
import SimulAvr.StackMemory
import SimulAvr.System

/-!
# Interrupt entry and RETI

RETI undoes the entry of an interrupt: it restores the program counter and the stack
pointer and enables interrupts, provided the program counter was in the flash; the step
that executes it does not check for interrupts (`interrupt_return`).
-/

namespace SimulAvr

section

variable {δ : Type} [IoDevices δ]

/-! ### The entry -/

/-- The check vectors to an interrupt; a RESET is performed instead. -/
structure Vectors (c : AvrCore δ) (irq : IntVect) (c' : AvrCore δ) : Prop where
  pending : c.irqPending.entries ≠ []
  selected : avrCoreIrqGetPending.run c = .ok (irq, c)
  notReset : irq.addr ≠ irqResetAddr
  enabled : c.sregGetBit SREG.I = true
  run : avrCoreCheckInterrupts.run c = .ok ((), c')

/-- What the entry of an interrupt changes: it clears I, deletes the interrupt from the
pending ones, and pushes the program counter. -/
structure EntryEffect (c : AvrCore δ) (irq : IntVect) (c' : AvrCore δ) : Prop
    extends PushEffect c c.pcSize (.ofInt 32 c.pc) c' where
  sreg : c'.sreg = setBitInByte c.sreg SREG.I false
  taken : irq ∈ c.irqPending.entries
  pending : c'.irqPending.entries = c.irqPending.entries.filter (fun irq' => irq'.addr ≠ irq.addr)
  gpwr : c'.gpwr = c.gpwr
  rampz : c'.rampz = c.rampz
  spm : c'.spmhelper = c.spmhelper
  dev : c'.dev = c.dev
  pc : c'.pc = AvrCore.adjustPCToMax c.pcMax (irq.addr + c.irqOffset)
  flash : c'.flash = c.flash

omit [IoDevices δ] in
/-- The selected interrupt is a pending one. -/
theorem mem_of_avrCoreIrqGetPending
    {c : AvrCore δ} {irq : IntVect} (h : avrCoreIrqGetPending.run c = .ok (irq, c)) :
  irq ∈ c.irqPending.entries
  := by
  change (irqGetPendingVector _ _ _).map _ = _ at h
  rw [irqGetPendingVector] at h
  cases hlookup : c.irqPending.lookup (irqCmpPending c.state c.sleepMode) with
  | none =>
    rw [hlookup] at h
    contradiction
  | some found =>
    rw [hlookup] at h
    cases h
    apply List.mem_of_find?_eq_some hlookup

/-- A check that vectors runs the vectoring. -/
theorem Vectors.vectorTo
    {c c' : AvrCore δ} {irq : IntVect} (h : Vectors c irq c') :
  (vectorTo irq).run c = .ok ((), c')
  := by
  have hrun := h.run
  rw [avrCoreCheckInterrupts, Program.run_bind_of_ok (run_gets _ c), if_neg h.pending,
    Program.run_bind_of_ok h.selected] at hrun
  have hfor : c.resetFor irq = c := if_neg h.notReset
  obtain ⟨-, ⟨hI, -⟩ | ⟨-, hvector⟩⟩ := takeInterrupt_cases hrun
  · rw [hfor, h.enabled] at hI
    contradiction
  · rw [hfor] at hvector
    apply hvector

theorem Vectors.effect
    {c c' : AvrCore δ} {irq : IntVect} (h : Vectors c irq c') (hstack : SramStack c c.pcSize) :
  EntryEffect c irq c'
  := by
  obtain ⟨data, display, hpush, hholds, hkeep⟩ :=
    stackPush_run hstack.range (.ofInt 32 c.pc) hstack.stack hstack.sram
  have hvector := h.vectorTo
  rw [run_vectorTo, hpush] at hvector
  simp only [Except.map, AvrCore.vectored, AvrCore.irqClear, AvrCore.pcSet, AvrCore.sregSetBit,
    AvrCore.sregSet, AvrCore.displaySend, AvrCore.spSet, AvrCore.withSram] at hvector
  cases hvector
  constructor
  · exact ⟨hholds, spGet_spSet _ _, hkeep, rfl, rfl⟩
  · rfl
  · apply mem_of_avrCoreIrqGetPending h.selected
  · apply UniqueList.delete_entries
  · rfl
  · rfl
  · rfl
  · rfl
  · rfl
  · rfl

/-! ### The return -/

/-- What a return from an interrupt changes. -/
structure ReturnEffect (pc : Int) (sp : Word) (d d' : AvrCore δ) : Prop where
  pc : d'.pc = pc
  sp : d'.spGet = sp
  sreg : d'.sreg = setBitInByte d.sreg SREG.I true
  gpwr : d'.gpwr = d.gpwr
  sram : d'.sram = d.sram
  rampz : d'.rampz = d.rampz
  spm : d'.spmhelper = d.spmhelper
  irqPending : d'.irqPending = d.irqPending
  dev : d'.dev = d.dev

/-- The core after a RETI whose pop of `pc` left `c`. -/
def AvrCore.retiTo (c : AvrCore δ) (pc : Int) : AvrCore δ :=
  { c.pcSet pc with instCKS := c.pcSize + 2 }.sregSetBit SREG.I true

/-- RETI pops the program counter. -/
theorem run_avrOpRETI
    {c c₁ : AvrCore δ} {pc : BitVec 32}
    (hpop : (avrCoreStackPop c.pcSize).run c = .ok (pc, c₁)) (hsize : c₁.pcSize = c.pcSize) :
  avrOpRETI.run c = .ok (.opcode .RETI, c₁.retiTo pc.toInt)
  := by
  rw [avrOpRETI, Program.run_bind_of_ok (run_avrCorePCSize c), Program.run_bind_of_ok hpop,
    ← hsize]
  rfl

/-- RETI after the entry of an interrupt returns to a program counter in the flash. -/
theorem reti_effect
    {c c' d : AvrCore δ} {irq : IntVect} (hentry : EntryEffect c irq c') (hstack : SramStack c c.pcSize)
    (hpc : 0 ≤ c.pc ∧ c.pc < c.pcMax) (hsize : c.pc < 2 ^ (8 * c.pcSize.toNat))
    (hleft : StackAsLeft c' d c.spGet c.pcSize.toNat) {opcode : Word}
    (hfetch : flashRead d.flash d.pc = .ok opcode)
    (hreti : (decodeOpcode opcode).func = .RETI) :
  ∃ d', execNextInstruction.run d = .ok (.opcode .RETI, d') ∧ ReturnEffect c.pc c.spGet d d'
  := by
  have hlayout : d.layout = c.layout := hleft.layout.trans hentry.layout
  have hpcSize : d.fetched.pcSize = c.pcSize := congrArg Layout.pcSize hlayout
  have hpop : (avrCoreStackPop d.fetched.pcSize).run d.fetched
      = .ok (lowBytes c.pcSize.toNat (.ofInt 32 c.pc), d.fetched.spSet c.spGet) := by
    rw [hpcSize]
    apply stackPop_run (c := d.fetched) hstack.range hleft.stack
    · rw [← hentry.sp]
      apply hleft.sp
    · intro i hi
      rw [show d.fetched.layout = c.layout from hlayout]
      apply hstack.sram i hi
    · apply hleft.holdsBytes hentry.pushed
  have hvalue : (lowBytes c.pcSize.toNat (.ofInt 32 c.pc)).toInt = c.pc := by
    obtain ⟨hlo, hhi⟩ := hstack.range
    apply lowBytes_ofInt (by omega) hpc.1 hsize
  have hexec : execOpcode opcode = (avrOpRETI : CoreM δ OpRet) := by
    rw [execOpcode, hreti]
    rfl
  rw [execNextInstruction_of_fetch hfetch, hexec, run_avrOpRETI hpop rfl, hvalue]
  simp only [AvrCore.retiTo, AvrCore.pcSet, AvrCore.sregSetBit, AvrCore.sregSet,
    AvrCore.displaySend, AvrCore.spSet, AvrCore.fetched]
  refine ⟨_, rfl, ?_⟩
  constructor
  · change AvrCore.adjustPCToMax d.pcMax c.pc = c.pc
    rw [show d.pcMax = c.pcMax from congrArg Layout.pcMax hlayout]
    apply AvrCore.adjustPCToMax_of_mem hpc
  · apply spGet_spSet (c := d.fetched)
  · rfl
  · rfl
  · rfl
  · rfl
  · rfl
  · rfl
  · rfl

/-! ### The step after the return -/

/-- The core `c'` differs from `c` in the peripherals, the clock and the messages to the
display, and interrupts may have been raised. -/
structure Ticks (c c' : AvrCore δ) : Prop where
  state : c'.state = c.state
  pc : c'.pc = c.pc
  sp : c'.sp = c.sp
  sreg : c'.sreg = c.sreg
  gpwr : c'.gpwr = c.gpwr
  sram : c'.sram = c.sram
  flash : c'.flash = c.flash
  raised : ∀ irq ∈ c.irqPending.entries, irq ∈ c'.irqPending.entries

namespace Ticks

variable {c c' c'' : AvrCore δ}

omit [IoDevices δ] in
theorem refl
    (c : AvrCore δ) :
  Ticks c c
  := ⟨rfl, rfl, rfl, rfl, rfl, rfl, rfl, fun _ h => h⟩

omit [IoDevices δ] in
theorem trans
    (h : Ticks c c') (h' : Ticks c' c'') :
  Ticks c c''
  := by
  constructor
  · rw [h'.state, h.state]
  · rw [h'.pc, h.pc]
  · rw [h'.sp, h.sp]
  · rw [h'.sreg, h.sreg]
  · rw [h'.gpwr, h.gpwr]
  · rw [h'.sram, h.sram]
  · rw [h'.flash, h.flash]
  · intro irq hirq
    apply h'.raised irq (h.raised irq hirq)

omit [IoDevices δ] in
/-- The events of callbacks tick. -/
theorem devEvents
    (c : AvrCore δ) (events : List DevEvent) :
  Ticks c (events.foldl AvrCore.devEvent c)
  := by
  induction events generalizing c with
  | nil => apply refl
  | cons event events ih =>
    apply trans _ (ih _)
    cases event with
    | irqRaise irq => exact ⟨rfl, rfl, rfl, rfl, rfl, rfl, rfl, fun _ => UniqueList.mem_add_of_mem _⟩

omit [IoDevices δ] in
/-- A pass over a list of callbacks ticks. -/
theorem callbacks
    {x : Except DevError (δ × List DevEvent)}
    (h : (do
      let (dev, events) ← liftDev x
      update (fun c => events.foldl AvrCore.devEvent { c with dev := dev }) :
        CoreM δ Unit).run c = .ok ((), c')) :
  Ticks c c'
  := by
  cases x with
  | error e => contradiction
  | ok r =>
    obtain ⟨dev, events⟩ := r
    cases h
    apply trans _ (devEvents _ events)
    exact ⟨rfl, rfl, rfl, rfl, rfl, rfl, rfl, fun _ h => h⟩

theorem propagateClocks
    {n : Nat} (h : (propagateClocks n).run c = .ok ((), c')) :
  Ticks c c'
  := by
  induction n generalizing c with
  | zero =>
    cases h
    apply refl
  | succ n ih =>
    obtain ⟨⟨⟩, c₁, hclk, hrest⟩ := Program.run_bind_eq_ok.mp h
    rw [Program.run_bind_of_ok (run_update _ c₁), Program.run_bind_of_ok (run_update _ _)]
      at hrest
    apply trans (callbacks hclk)
    apply trans _ (ih hrest)
    exact ⟨rfl, rfl, rfl, rfl, rfl, rfl, rfl, fun _ h => h⟩

end Ticks

/-- The step that executes RETI takes no interrupt, and the next one executes the
instruction at the restored program counter first. -/
structure DelaysInterrupts (d d' : AvrCore δ) : Prop where
  /-- after RETI the clocks tick, and nothing else happens -/
  returns : ∃ d₁, execNextInstruction.run d = .ok (.opcode .RETI, d₁) ∧ Ticks d₁ d'
  pending : ∀ irq ∈ d.irqPending.entries, irq ∈ d'.irqPending.entries
  next : ∀ ret d'', avrCoreStep.run d' = .ok (ret, d'') →
    ∃ d₂, execNextInstruction.run d' = .ok (ret, d₂)

omit [IoDevices δ] in
/-- An awake core executes an instruction. -/
theorem execUnlessAsleep_of_awake
    [IoDevices δ] {c : AvrCore δ} (hstate : c.state ≠ .sleep) :
  execUnlessAsleep.run c = execNextInstruction.run c
  := by
  rw [execUnlessAsleep, Program.run_bind_of_ok (run_gets _ c), if_neg hstate]

/-- RETI returns the code of RETI. -/
theorem avrOpRETI_ret
    {c c' : AvrCore δ} {ret : OpRet} (h : avrOpRETI.run c = .ok (ret, c')) :
  ret = .opcode .RETI
  := by
  rw [avrOpRETI, Program.run_bind_of_ok (run_avrCorePCSize c)] at h
  obtain ⟨pc, c₁, -, h⟩ := Program.run_bind_eq_ok.mp h
  cases h
  rfl

theorem reti_delays
    {d d' : AvrCore δ} {ret : OpRet} {opcode : Word} (hstate : d.state ≠ .sleep)
    (hfetch : flashRead d.flash d.pc = .ok opcode)
    (hreti : (decodeOpcode opcode).func = .RETI)
    (hstep : avrCoreStep.run d = .ok (ret, d')) :
  DelaysInterrupts d d'
  := by
  obtain ⟨d₁, d₂, d₃, hexec, hclocks, hasync, hcheck⟩ := avrCoreStep_eq_ok.mp hstep
  rw [execUnlessAsleep_of_awake hstate] at hexec
  have hret : ret = .opcode .RETI := by
    have hexec' := hexec
    rw [execNextInstruction_of_fetch hfetch, execOpcode, hreti] at hexec'
    apply avrOpRETI_ret hexec'
  subst hret
  rw [if_pos rfl] at hcheck
  subst hcheck
  have hticks : Ticks d₁ d' := (Ticks.propagateClocks hclocks).trans (Ticks.callbacks hasync)
  have hframe := execNextInstruction_frame hexec
  constructor
  · exact ⟨d₁, hexec, hticks⟩
  · intro irq hirq
    apply hticks.raised
    rw [hframe.irqPending]
    apply hirq
  · intro ret d'' hnext
    obtain ⟨d₂, -, -, hexec₂, -⟩ := avrCoreStep_eq_ok.mp hnext
    rw [execUnlessAsleep_of_awake] at hexec₂
    · exact ⟨d₂, hexec₂⟩
    · rw [hticks.state, hframe.state]
      apply hstate

/-! ### Entry and return -/

/-- The entry of an interrupt clears I, takes the interrupt from the pending ones and pushes
the program counter; a RETI on that stack undoes it, when the program counter was in the
flash; and the step of a RETI takes no interrupt before the next instruction. -/
theorem interrupt_return
    {c c' : AvrCore δ} {irq : IntVect} (h : Vectors c irq c') (hstack : SramStack c c.pcSize)
    (hpc : 0 ≤ c.pc ∧ c.pc < c.pcMax) (hsize : c.pc < 2 ^ (8 * c.pcSize.toNat)) :
  EntryEffect c irq c' ∧
    (∀ d opcode, StackAsLeft c' d c.spGet c.pcSize.toNat →
      flashRead d.flash d.pc = .ok opcode → (decodeOpcode opcode).func = .RETI →
      ∃ d', execNextInstruction.run d = .ok (.opcode .RETI, d') ∧
        ReturnEffect c.pc c.spGet d d') ∧
    ∀ (d d' : AvrCore δ) ret opcode, d.state ≠ .sleep → flashRead d.flash d.pc = .ok opcode →
      (decodeOpcode opcode).func = .RETI → avrCoreStep.run d = .ok (ret, d') →
      DelaysInterrupts d d'
  := by
  have hentry := h.effect hstack
  refine ⟨hentry, ?_, ?_⟩
  · intro d opcode hleft hfetch hreti
    apply reti_effect hentry hstack hpc hsize hleft hfetch hreti
  · intro d d' ret opcode hstate hfetch hreti hstep
    apply reti_delays hstate hfetch hreti hstep

/-- The at90s2313 at `pc` with RETI in every word of its flash, interrupts enabled and INT0
pending. -/
def AvrCore.retiInt0 (pc : Int) : AvrCore Unit :=
  { AvrCore.atOpcode pc 0x9518 with sreg := 0x80 }.irqRaise 1

theorem retiInt0_sramStack
    (pc : Int) :
  SramStack (AvrCore.retiInt0 pc) 2
  := by
  constructor
  · rfl
  · omega
  · have hsram : ∀ i < 2, AvrCore.at90s2313.layout.IsSram
        (AvrCore.at90s2313.spGet - BitVec.ofNat 16 i) := by decide +kernel
    intro i hi
    exact hsram i hi

/-- The check of `retiInt0` vectors to INT0. -/
theorem retiInt0_vectors
    {pc : Int} {c' : AvrCore Unit}
    (hrun : avrCoreCheckInterrupts.run (AvrCore.retiInt0 pc) = .ok ((), c')) :
  Vectors (AvrCore.retiInt0 pc) (vtabAt90s2313 1) c'
  := by
  have hentries : (AvrCore.retiInt0 pc).irqPending.entries = [vtabAt90s2313 1] := rfl
  constructor
  · rw [hentries]
    simp
  · apply run_avrCoreIrqGetPending _ hentries
    change StateType.running ≠ .sleep
    decide
  · decide +kernel
  · change (0x80#8).getLsbD 7 = true
    decide
  · apply hrun

theorem interrupt_return_int0 :
  ∃ c', Vectors (AvrCore.retiInt0 5) (vtabAt90s2313 1) c' ∧
    EntryEffect (AvrCore.retiInt0 5) (vtabAt90s2313 1) c' ∧
    ∃ d', execNextInstruction.run c' = .ok (.opcode .RETI, d') ∧
      ReturnEffect 5 (AvrCore.retiInt0 5).spGet c' d'
  := by
  have hok : (avrCoreCheckInterrupts.run (AvrCore.retiInt0 5)).toOption.isSome = true := by
    decide +kernel
  cases hrun : avrCoreCheckInterrupts.run (AvrCore.retiInt0 5) with
  | error e =>
    rw [hrun] at hok
    contradiction
  | ok r =>
    obtain ⟨⟨⟩, c'⟩ := r
    have hvectors := retiInt0_vectors hrun
    obtain ⟨hentry, hreturn, -⟩ :=
      interrupt_return hvectors (retiInt0_sramStack 5) (by decide) (by decide)
    have hleft : StackAsLeft c' c' (AvrCore.retiInt0 5).spGet 2 := by
      constructor
      · rfl
      · apply hentry.stack
      · rfl
      · intro i _
        rfl
    have hpc : c'.pc = 1 := hentry.pc
    have hfetch : flashRead c'.flash c'.pc = .ok 0x9518 := by
      rw [hentry.flash, hpc]
      decide +kernel
    exact ⟨c', hvectors, hentry, hreturn c' 0x9518 hleft hfetch (by decide +kernel)⟩

/-- RETI does not restore a program counter beyond the flash. -/
theorem interrupt_return_fails :
  ¬ ∀ (c c' : AvrCore Unit) (irq : IntVect), Vectors c irq c' → SramStack c c.pcSize →
    0 ≤ c.pc ∧ c.pc < 2 ^ (8 * c.pcSize.toNat) →
    ∀ d opcode, StackAsLeft c' d c.spGet c.pcSize.toNat → flashRead d.flash d.pc = .ok opcode →
      (decodeOpcode opcode).func = .RETI →
      ∃ d', execNextInstruction.run d = .ok (.opcode .RETI, d') ∧ d'.pc = c.pc
  := by
  intro h
  have hpc : ((do avrCoreCheckInterrupts; execNextInstruction : CoreM Unit OpRet).run
      (AvrCore.retiInt0 1500)).toOption.map (fun r => r.2.pc) = some 476 := by decide +kernel
  cases hrun : avrCoreCheckInterrupts.run (AvrCore.retiInt0 1500) with
  | error e =>
    rw [Program.run_bind_of_error hrun] at hpc
    contradiction
  | ok r =>
    obtain ⟨⟨⟩, c'⟩ := r
    rw [Program.run_bind_of_ok hrun] at hpc
    have hvectors := retiInt0_vectors hrun
    have hentry := hvectors.effect (retiInt0_sramStack 1500)
    have hleft : StackAsLeft c' c' (AvrCore.retiInt0 1500).spGet 2 := by
      constructor
      · rfl
      · apply hentry.stack
      · rfl
      · intro i _
        rfl
    have hpc' : c'.pc = 1 := hentry.pc
    have hfetch : flashRead c'.flash c'.pc = .ok 0x9518 := by
      rw [hentry.flash, hpc']
      decide +kernel
    obtain ⟨d', hexec, hreturn⟩ := h _ c' _ hvectors (retiInt0_sramStack 1500) (by decide) c'
      0x9518 hleft hfetch (by decide +kernel)
    rw [hexec] at hpc
    change some d'.pc = some 476 at hpc
    rw [hreturn] at hpc
    contradiction

end

end SimulAvr
