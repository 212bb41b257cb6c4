import SimulAvr.Device
import SimulAvr.System
import SimulAvr.Target

/-!
# The range of the program counter

Every event leaves the corrected target in the program counter, or does not set it
(`step_pc`).  In a run whose targets are all within reach of the correction the program
counter stays in the flash, and it is the residue of the target exactly when the target
is within reach (`pc_range`).
-/

namespace SimulAvr

open Transition

section

variable {δ : Type} [IoDevices δ]

/-! ### Targets of the events -/

omit [IoDevices δ] in
theorem silent_avrCoreIrqGetPending :
  Silent (avrCoreIrqGetPending : CoreM δ IntVect)
  := by
  intro c irq c' h
  obtain hget | ⟨irq', hget⟩ := avrCoreIrqGetPending_cases c
  · rw [hget] at h
    contradiction
  · rw [hget] at h
    cases h
    rfl

/-- The target of a check for interrupts, `none` when it does not set the program counter. -/
def checkTarget (c : AvrCore δ) : Option Int :=
  if c.irqPending.entries = [] then none
  else do
    let irq ← c.read avrCoreIrqGetPending
    if (c.resetFor irq).sregGetBit SREG.I then some (irq.addr + c.irqOffset)
    else if irq.addr = irqResetAddr then some 0
    else none

/-- The target to which an event sets the program counter, if it does. -/
def Event.target (c : AvrCore δ) : Event → Option Int
  | .instruction => do
    let opcode ← c.read (avrCoreFlashRead c.pc)
    let opi := decodeOpcode opcode
    opi.func.target c.fetched opi.arg1 opi.arg2
  | .checkInterrupts => checkTarget c
  | .reset => some 0
  | .pcSet val => some val
  | _ => none

/-- A check for interrupts leaves the corrected target in the program counter. -/
theorem check_pc
    {c c' : AvrCore δ} (h : avrCoreCheckInterrupts.run c = .ok ((), c')) :
  c'.pc = ((checkTarget c).map (AvrCore.adjustPCToMax c.pcMax)).getD c.pc
  := by
  rw [checkTarget]
  rw [avrCoreCheckInterrupts, Program.run_bind_of_ok (run_gets _ c)] at h
  by_cases hpending : c.irqPending.entries = []
  · rw [if_pos hpending] at h ⊢
    cases h
    rfl
  · rw [if_neg hpending] at h ⊢
    obtain ⟨irq, hirq, h⟩ := silent_avrCoreIrqGetPending.bind_eq_ok h
    rw [hirq]
    obtain ⟨-, hcases⟩ := takeInterrupt_cases h
    have hlayout := resetFor_layout c irq
    obtain ⟨hI, rfl⟩ | ⟨hI, hvector⟩ := hcases
    · simp only [Option.bind_eq_bind, Option.bind_some, hI, Bool.false_eq_true, if_false]
      rw [AvrCore.resetFor]
      split
      · apply (AvrCore.reset_spec c).pc
      · rfl
    · simp only [Option.bind_eq_bind, Option.bind_some, hI, if_true]
      obtain ⟨c₁, -, hframe, rfl⟩ := vectorTo_eq_ok hvector
      have hoffset : (c.resetFor irq).irqOffset = c.irqOffset := by
        rw [AvrCore.resetFor]
        split
        · apply (AvrCore.reset_spec c).irqOffset
        · rfl
      have hmax : (c.resetFor irq).pcMax = c.pcMax := congrArg Layout.pcMax hlayout
      change AvrCore.adjustPCToMax c₁.pcMax (irq.addr + c₁.irqOffset) = _
      rw [hframe.pcMax, hframe.irqOffset, hoffset, hmax]
      rfl

/-- An event leaves the corrected target in the program counter, if it has a target. -/
theorem step_pc
    {e : Event} {c c' : AvrCore δ} (hstep : Step e c c') :
  c'.pc = ((e.target c).map (AvrCore.adjustPCToMax c.pcMax)).getD c.pc
  := by
  cases hstep with
  | instruction h =>
    obtain ⟨opcode, hfetch, hexec⟩ := execNextInstruction_eq_ok h
    have hread : c.read (avrCoreFlashRead c.pc) = some opcode := by
      rw [AvrCore.read, run_avrCoreFlashRead, hfetch]
      rfl
    simp only [Event.target, hread, Option.bind_eq_bind, Option.bind_some]
    have hadmits : (decodeOpcode opcode).func.form.Admits (decodeOpcode opcode).arg1
        (decodeOpcode opcode).arg2 := lookupOpcode_admits opcode
    obtain ⟨t, htarget, hpc⟩ | ⟨hbreak, hpc⟩ := handler_pc hadmits hexec
    · rw [htarget]
      apply hpc
    · rw [hbreak]
      apply hpc
  | irqRaise irq => rfl
  | irqClear irq => rfl
  | checkInterrupts h => apply check_pc h
  | reset => apply (AvrCore.reset_spec c).pc
  | pcSet val => rfl
  | other h => apply h.pc

/-! ### Runs -/

/-- The flash of a core has `PC_max` words. -/
def Layout.FlashFits (layout : Layout) : Prop :=
  0 < layout.pcMax ∧ layout.flashBase = 0 ∧ layout.flashSize = 2 * layout.pcMax

/-- The event sets the program counter to a target within reach, or does not set it. -/
def Event.WithinReach (c : AvrCore δ) (e : Event) : Prop :=
  ∀ t ∈ e.target c, AvrCore.PCReach c.pcMax t

/-- An event within reach leaves the program counter in the flash. -/
theorem step_mem
    {e : Event} {c c' : AvrCore δ} (hstep : Step e c c') (hreach : e.WithinReach c)
    (hmax : 0 < c.pcMax) (hpc : 0 ≤ c.pc ∧ c.pc < c.pcMax) :
  0 ≤ c'.pc ∧ c'.pc < c.pcMax
  := by
  rw [step_pc hstep]
  cases htarget : e.target c with
  | none => apply hpc
  | some t =>
    apply AvrCore.adjustPCToMax_mem_iff.mpr
    exact ⟨hmax, hreach t htarget⟩

/-- The program counter after an event is the residue of its target exactly when the target
is within reach. -/
theorem step_eq_emod_iff
    {e : Event} {c c' : AvrCore δ} (hstep : Step e c c') (hmax : 0 < c.pcMax) {t : Int}
    (htarget : e.target c = some t) :
  c'.pc = t % c.pcMax ↔ AvrCore.PCReach c.pcMax t
  := by
  rw [step_pc hstep, htarget]
  apply AvrCore.adjustPCToMax_eq_emod_iff hmax

omit [IoDevices δ] in
/-- The instruction at a program counter in the flash can be fetched. -/
theorem fetch_of_mem
    {c : AvrCore δ} (hflash : c.layout.FlashFits) (hpc : 0 ≤ c.pc ∧ c.pc < c.pcMax) :
  ∃ opcode, flashRead c.flash c.pc = .ok opcode
  := by
  obtain ⟨-, hbase, hsize⟩ := hflash
  change c.flash.base = 0 at hbase
  change c.flash.size = 2 * c.pcMax at hsize
  use c.flash.data (c.pc * 2 - c.flash.base) ++ c.flash.data (c.pc * 2 - c.flash.base + 1)
  simp only [flashRead, storageReadw]
  rw [if_neg (by omega)]

/-- In a run whose targets are all within reach the program counter stays in the flash, and
it is the residue of the target of every event within reach. -/
theorem pc_range
    {c₀ c : AvrCore δ} (hflash : c₀.layout.FlashFits) (h₀ : 0 ≤ c₀.pc ∧ c₀.pc < c₀.pcMax)
    (hrun : CoreRun (fun c e => e.WithinReach c) c₀ c) :
  (0 ≤ c.pc ∧ c.pc < c.pcMax) ∧ (∃ opcode, flashRead c.flash c.pc = .ok opcode) ∧
    ∀ e c' t, Step e c c' → e.target c = some t →
      (c'.pc = t % c.pcMax ↔ AvrCore.PCReach c.pcMax t)
  := by
  have hmax : 0 < c₀.pcMax := hflash.1
  have hpcMax : c.pcMax = c₀.pcMax := congrArg Layout.pcMax hrun.layout
  have hpc : 0 ≤ c.pc ∧ c.pc < c.pcMax := by
    rw [hpcMax]
    apply (hrun.invariant (I := fun c => c.layout = c₀.layout ∧ 0 ≤ c.pc ∧ c.pc < c₀.pcMax) _
      ⟨rfl, h₀⟩).2
    rintro c e c' ⟨hlayout, hpc⟩ hreach hstep
    have hpcMax : c.pcMax = c₀.pcMax := congrArg Layout.pcMax hlayout
    refine ⟨hstep.layout.trans hlayout, ?_⟩
    rw [← hpcMax] at hmax hpc ⊢
    apply step_mem hstep hreach hmax hpc
  refine ⟨hpc, fetch_of_mem (hrun.layout ▸ hflash) hpc, ?_⟩
  intro e c' t hstep htarget
  apply step_eq_emod_iff hstep (hpcMax ▸ hmax) htarget

omit [IoDevices δ] in
/-- The flash of a constructed core with an even number of bytes. -/
theorem construct_flashFits
    (dev : DevSuppDefn) {n : Int} (hn : 0 < n) (hflash : dev.flash = 2 * n) (io : δ) :
  (AvrCore.construct dev io).layout.FlashFits
  := by
  have hmax : (AvrCore.construct dev io).pcMax = n := by
    change dev.flash / 2 = n
    omega
  refine ⟨?_, rfl, ?_⟩
  · change 0 < (AvrCore.construct dev io).pcMax
    rw [hmax]
    apply hn
  · change dev.flash = 2 * (AvrCore.construct dev io).pcMax
    rw [hmax, hflash]

theorem pc_range_pcSet :
  let c := AvrCore.at90s2313.pcSet 2000
  (0 ≤ c.pc ∧ c.pc < c.pcMax) ∧ (∃ opcode, flashRead c.flash c.pc = .ok opcode) ∧
    ∀ e c' t, Step e c c' → e.target c = some t →
      (c'.pc = t % c.pcMax ↔ AvrCore.PCReach c.pcMax t)
  := by
  intro c
  have hrun : CoreRun (fun c e => e.WithinReach c) AvrCore.at90s2313 c := by
    apply Run.single _ (Step.pcSet 2000 _)
    intro t ht
    cases ht
    decide
  have hflash : AvrCore.at90s2313.layout.FlashFits :=
    construct_flashFits defnAt90s2313 (n := 1024) (by decide) rfl ()
  apply pc_range hflash (by decide) hrun

/-- The at90s2313 at an IJMP, with `0x1000` in Z. -/
def AvrCore.farIjmp : AvrCore Unit :=
  { AvrCore.atOpcode 0 0x9409 with gpwr := fun r => if r = 31 then 0x10 else 0 }

/-- A run that executes IJMP with a target beyond twice the flash leaves the flash. -/
theorem pc_range_fails :
  ¬ ∀ c₀ c : AvrCore Unit, c₀.layout.FlashFits → 0 ≤ c₀.pc ∧ c₀.pc < c₀.pcMax →
    CoreRun Always c₀ c → (0 ≤ c.pc ∧ c.pc < c.pcMax) ∧
      ∀ e c' t, Step e c c' → e.target c = some t → c'.pc = t % c.pcMax
  := by
  intro h
  have hpc : (execNextInstruction.run AvrCore.farIjmp).toOption.map (fun r => r.2.pc)
      = some 3072 := by decide +kernel
  cases hexec : execNextInstruction.run AvrCore.farIjmp with
  | error e =>
    rw [hexec] at hpc
    contradiction
  | ok r =>
    obtain ⟨ret, c⟩ := r
    rw [hexec] at hpc
    have hpc' : c.pc = 3072 := Option.some.inj hpc
    have hstep : Step .instruction AvrCore.farIjmp c := Step.instruction hexec
    obtain ⟨⟨-, hlt⟩, -⟩ := h AvrCore.farIjmp c ⟨by decide, rfl, rfl⟩ (by decide)
      (Run.single trivial hstep)
    have hmax : c.pcMax = 1024 := congrArg Layout.pcMax hstep.layout
    rw [hpc', hmax] at hlt
    contradiction

end

end SimulAvr
