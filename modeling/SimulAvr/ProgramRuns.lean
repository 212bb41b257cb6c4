import SimulAvr.Breakpoints
import SimulAvr.FlashLoad
import SimulAvr.IsaRefinement

/-!
# Running a program

What the simulator does without a debugger: it loads a binary image into the flash, sets the
breakpoints of the command line, resets the device, and takes steps until a breakpoint is reached
or the user interrupts it.  A program that comes to a breakpoint in the programmer's view stops
there, after as many instructions (`run_stops`).
-/

namespace SimulAvr

open Program MachineLogic

/-! ### Images -/

/-- The image of a program, with the low byte of each word first -/
def imageBytes (words : List Word) : List Byte :=
  words.flatMap fun word => [word.extractLsb' 0 8, word.extractLsb' 8 8]

/-- The loop of the load writes the words one after the other. -/
theorem flashLoadLoop_image
    {flash : Flash} (hbase : flash.base = 0) {addr : Int} (haddr : 0 ≤ addr) (words : List Word)
    (inst : Word) (hroom : 2 * (addr + words.length) ≤ flash.size) :
  ∃ flash', flashLoadLoop (imageBytes words) addr inst flash = .ok flash' ∧
    flash'.base = 0 ∧ flash'.size = flash.size ∧
    (∀ (n : Nat) word, words[n]? = some word → flash'.word (addr + n) = word) ∧
    ∀ a, a < addr → flash'.word a = flash.word a
  := by
  induction words generalizing flash addr inst with
  | nil => exact ⟨flash, rfl, hbase, rfl, by simp, fun a _ => rfl⟩
  | cons word words ih =>
    rw [List.length_cons] at hroom
    push_cast at hroom
    have hvalid : flash.Valid addr := by
      rw [Flash.Valid, hbase]
      omega
    have hsize : (flash.setWord addr word).size = flash.size := rfl
    obtain ⟨flash', hload, hbase', hsize', hwords, hothers⟩ :=
      ih (show (flash.setWord addr word).base = 0 from hbase) (by omega : 0 ≤ addr + 1) word (by omega)
    refine ⟨flash', ?_, hbase', hsize', ?_, ?_⟩
    · change flashLoadLoop (word.extractLsb' 0 8 :: word.extractLsb' 8 8 :: imageBytes words) addr inst
        flash = _
      rw [flashLoadLoop, extractLsb'_append_self, flashWrite, Flash.storageWritew_of_valid hvalid]
      exact hload
    · rintro (_ | n) w hw
      · cases hw
        have hfirst := hothers addr (by omega)
        rw [Flash.word_setWord_same] at hfirst
        rwa [Int.natCast_zero, Int.add_zero]
      · have hnext := hwords n w hw
        rwa [Int.add_assoc, Int.add_comm 1] at hnext
    · intro a ha
      rw [hothers a (by omega), Flash.word_setWord_of_ne (by omega)]

/-- `avr_core_load_program`, for a binary file, with the value that `inst` has before the first read -/
def avrCoreLoadProgram {δ : Type} (file : List Byte) (inst : Word) : CoreM δ Unit :=
  fun c => (flashLoadFromBinFile c.flash file inst).map fun flash => ((), { c with flash := flash })

section

variable {δ : Type} {c : AvrCore δ}

/-- A program that fits into the flash is in it after the load. -/
theorem run_avrCoreLoadProgram
    (hbase : c.flash.base = 0) {words : List Word} (hroom : 2 * (words.length : Int) ≤ c.flash.size)
    (inst : Word) :
  ∃ flash, (avrCoreLoadProgram (imageBytes words) inst).run c = .ok ((), { c with flash := flash }) ∧
    flash.base = 0 ∧ flash.size = c.flash.size ∧ flash.HoldsAt 0 words
  := by
  obtain ⟨flash, hload, hbase', hsize, hwords, -⟩ :=
    flashLoadLoop_image hbase (Int.le_refl 0) words inst (by omega)
  refine ⟨flash, ?_, hbase', hsize, ?_⟩
  · change (flashLoadFromBinFile c.flash (imageBytes words) inst).map _ = _
    rw [flashLoadFromBinFile, hload]
    rfl
  · intro n word hword
    obtain ⟨hn, -⟩ := List.getElem?_eq_some_iff.mp hword
    have hvalid : flash.Valid (0 + n : Nat) := by
      rw [Flash.Valid, hbase', hsize]
      omega
    have hvalue := hwords n word hword
    rw [Int.zero_add] at hvalue
    rw [Flash.flashRead_of_valid hvalid, Nat.zero_add, hvalue]

end

/-! ### The reset -/

section

variable {δ : Type} [IoDevices δ] {Q : δ → Prop}

/-- The reset of a peripheral with `Q` has `Q`. -/
def ResetKeeps (Q : δ → Prop) : Prop :=
  ∀ addr d, Q d → Q (IoDevices.reset addr d)

theorem vdevReset_keeps
    (hQ : ResetKeeps Q) {c : AvrCore δ} (h : Q c.dev) (addr : Int) (vdev : VDevice) :
  (c.vdevReset addr vdev).flash = c.flash ∧ (c.vdevReset addr vdev).stack = c.stack ∧
    (c.vdevReset addr vdev).sram = c.sram ∧ Q (c.vdevReset addr vdev).dev
  := by
  cases vdev with
  | gpwr =>
    obtain ⟨display, hreset⟩ := AvrCore.vdevReset_gpwr_eq c addr
    rw [hreset]
    exact ⟨rfl, rfl, rfl, h⟩
  | io => exact ⟨rfl, rfl, rfl, hQ addr c.dev h⟩
  | _ => exact ⟨rfl, rfl, rfl, h⟩

theorem memResetFrom_keeps
    (hQ : ResetKeeps Q) {c : AvrCore δ} (h : Q c.dev) (i n : Nat) :
  (c.memResetFrom i n).flash = c.flash ∧ (c.memResetFrom i n).stack = c.stack ∧
    (c.memResetFrom i n).sram = c.sram ∧ Q (c.memResetFrom i n).dev
  := by
  induction n generalizing c i with
  | zero => exact ⟨rfl, rfl, rfl, h⟩
  | succ n ih =>
    rw [AvrCore.memResetFrom]
    split
    · apply ih h
    · next vdev _ =>
      obtain ⟨hflash, hstack, hsram, hdev⟩ := vdevReset_keeps hQ h i vdev
      obtain ⟨hflash', hstack', hsram', hdev'⟩ := ih hdev (i + 1)
      exact ⟨hflash'.trans hflash, hstack'.trans hstack, hsram'.trans hsram, hdev'⟩

/-- A device that can run a program: with its stack in memory, and with peripherals that do nothing -/
structure AvrCore.Runnable (c : AvrCore δ) (Q : δ → Prop) : Prop where
  plain : c.layout.Plain
  pcMax : 0 < c.pcMax
  dev : Q c.dev
  stack : c.stack = .mem

/-- `core->state = STATE_RUNNING`, after the reset -/
def AvrCore.restarted (c : AvrCore δ) : AvrCore δ :=
  { c.reset with state := .running }

/-- What a reset leaves of a device that can run -/
structure AvrCore.IsRestarted (c : AvrCore δ) (Q : δ → Prop) (d : AvrCore δ) : Prop where
  ready : d.Ready Q
  pc : d.pc = 0
  layout : d.layout = c.layout
  flash : d.flash = c.flash
  sram : d.sram = c.sram
  sreg : c.mem.SregAttached → d.sreg = 0
  gpwr : c.mem.Attached .gpwr → d.gpwr = fun _ => 0
  ck : d.ck = c.ck

omit [IoDevices δ] in
theorem AvrCore.IsRestarted.view_pc
    {c d : AvrCore δ} (h : c.IsRestarted Q d) :
  d.view.pc = 0
  := by
  change d.pc.toNat = 0
  rw [h.pc]
  rfl

theorem AvrCore.Runnable.restarted
    {c : AvrCore δ} (h : c.Runnable Q) (hQ : ResetKeeps Q) :
  c.IsRestarted Q c.restarted
  := by
  have hspec := AvrCore.reset_spec c
  have hpc : c.restarted.pc = 0 := hspec.pc.trans (adjustPCToMax_of_mem ⟨Int.le_refl 0, h.pcMax⟩)
  have hlayout : c.restarted.layout = c.layout := hspec.layout
  obtain ⟨display, hreset⟩ := AvrCore.reset_eq c
  obtain ⟨hflash, hstack, hsram, hdev⟩ := memResetFrom_keeps hQ
    (c := { c.pcSet 0 with irqPending := .nil, instCKS := 0, display := display }) h.dev 0
    c.mem.xramEnd.toNat
  change c.reset = _ at hreset
  refine ⟨⟨?_, ?_, ?_, ?_, (by decide : StateType.running ≠ .sleep), ?_⟩, hpc, hlayout, ?_, ?_,
    hspec.sreg, ?_, (AvrCore.reset_frame c).ck⟩
  · rw [hlayout]
    exact h.plain
  · change Q c.reset.dev
    rw [hreset]
    exact hdev
  · rw [hpc]
  · change c.reset.stack = .mem
    rw [hreset]
    exact hstack.trans h.stack
  · change c.reset.irqPending.entries = []
    rw [hspec.irqPending]
    rfl
  · change c.reset.flash = c.flash
    rw [hreset]
    exact hflash
  · change c.reset.sram = c.sram
    rw [hreset]
    exact hsram
  · intro hattached
    change c.reset.gpwr = _
    rw [hreset]
    exact AvrCore.memReset_field AvrCore.vdevReset_gpwr hattached

/-! ### The run -/

/-- The loop of `avr_core_run`, with what `signal_has_occurred` says before each step, after `cnt`
instructions; none where nothing more is known of the signals -/
def avrCoreRunLoop : (occurred : List Bool) → (cnt : Nat) → CoreM δ (Option Nat)
  | [], _ => return none
  | sigint :: occurred, cnt => do
    let state ← gets AvrCore.state
    if state ≠ .running then
      return some cnt
    if sigint then
      return some cnt
    let res ← avrCoreStep
    if res = .breakPoint then
      return some cnt
    avrCoreRunLoop occurred (cnt + 1)

/-- `avr_core_run`, with the number of the executed instructions -/
def avrCoreRun (occurred : List Bool) : CoreM δ (Option Nat) := do
  update AvrCore.restarted
  avrCoreRunLoop occurred 0

theorem Instr.encode_brk :
  Instr.brk.encode = [breakOpcode]
  := by
  decide +kernel

variable {l : Layout} {flash : Flash} {c : AvrCore δ} {m m' : Cpu} {prog : List Instr}

/-- The step at a breakpoint changes nothing. -/
theorem Shows.brk
    {st : StateType} (h : Shows l flash st Q 0 c m) (hQ : QuietDevices Q)
    (hprog : flash.HoldsAt 0 (encodeProgram prog)) (hi : instrAt prog m.pc = some .brk) :
  ∃ c', avrCoreStep.run c = .ok (.breakPoint, c') ∧ Shows l flash st Q 0 c' m
  := by
  have hwords := holdsAt_instrAt hi hprog
  rw [Nat.zero_add] at hwords
  apply h.fetched.run_avrCoreStep hQ rfl (by decide : OpRet.breakPoint ≠ .opcode .RETI)
  rw [h.run_execUnlessAsleep hwords]
  rfl

/-- The loop takes the steps of the view. -/
theorem run_avrCoreRunLoop
    (h : Shows l flash .running Q 0 c m) (hl : l.Plain) (hQ : QuietDevices Q)
    (hprog : flash.HoldsAt 0 (encodeProgram prog)) {n : Nat}
    (hrun : steps (Cpu.step l prog) n m = some m') (occurred : List Bool) (cnt : Nat) :
  ∃ c', Shows l flash .running Q 0 c' m' ∧
    (avrCoreRunLoop (List.replicate n false ++ occurred) cnt).run c
      = (avrCoreRunLoop occurred (cnt + n)).run c'
  := by
  induction n generalizing c m cnt with
  | zero =>
    cases hrun
    exact ⟨c, h, rfl⟩
  | succ n ih =>
    obtain ⟨m₁, hnext, hrest⟩ := Option.bind_eq_some_iff.mp hrun
    obtain ⟨name, c₁, hstep, h₁⟩ := h.step hl hQ hprog hnext
    obtain ⟨c', h', hloop⟩ := ih h₁ hrest (cnt + 1)
    have hgoes : ¬ OpRet.opcode name = .breakPoint := by
      intro heq
      cases heq
    refine ⟨c', h', ?_⟩
    rw [List.replicate_succ, List.cons_append, avrCoreRunLoop, run_bind_of_ok (run_gets _ c),
      if_neg (not_not.mpr h.state), if_neg Bool.false_ne_true, run_bind_of_ok hstep,
      if_neg hgoes, hloop]
    congr 2
    omega

section

variable (h : c.Runnable Q) (hQ : QuietDevices Q) (hreset : ResetKeeps Q) {prog : List Instr}
  (hprog : c.flash.HoldsAt 0 (encodeProgram prog)) {n : Nat} {m : Cpu}
  (hrun : steps (Cpu.step c.layout prog) n c.restarted.view = some m)

include h hQ hreset hprog hrun

/-- After `n` steps the run goes on with the core that shows the view. -/
theorem run_avrCoreRun
    (occurred : List Bool) :
  ∃ c', Shows c.layout c.flash .running Q 0 c' m ∧
    (avrCoreRun (List.replicate n false ++ occurred)).run c = (avrCoreRunLoop occurred n).run c'
  := by
  have hrestarted := h.restarted hreset
  have hshows := hrestarted.ready.shows
  rw [hrestarted.layout, hrestarted.flash] at hshows
  obtain ⟨c', h', hloop⟩ := run_avrCoreRunLoop hshows h.plain hQ hprog hrun occurred 0
  rw [Nat.zero_add] at hloop
  refine ⟨c', h', ?_⟩
  rw [avrCoreRun, run_bind_of_ok (run_update _ c)]
  exact hloop

theorem run_avrCoreRun_brk
    (hbrk : instrAt prog m.pc = some .brk) (occurred : List Bool) :
  ∃ c', (avrCoreRun (List.replicate n false ++ false :: occurred)).run c = .ok (some n, c') ∧
    Shows c.layout c.flash .running Q 0 c' m
  := by
  obtain ⟨c₁, h₁, hloop⟩ := run_avrCoreRun h hQ hreset hprog hrun (false :: occurred)
  obtain ⟨c', hstep, h'⟩ := h₁.brk hQ hprog hbrk
  refine ⟨c', ?_, h'⟩
  rw [hloop, avrCoreRunLoop, run_bind_of_ok (run_gets _ c₁), if_neg (not_not.mpr h₁.state),
    if_neg Bool.false_ne_true, run_bind_of_ok hstep, if_pos rfl]
  rfl

/-- A run of the simulator executes the instructions of the program one after the other.  It stops
at the first breakpoint, or when the user interrupts it, with the number of the instructions. -/
theorem run_stops
    (occurred : List Bool) :
  (∃ c', (avrCoreRun (List.replicate n false ++ true :: occurred)).run c = .ok (some n, c') ∧
    Shows c.layout c.flash .running Q 0 c' m) ∧
  (instrAt prog m.pc = some .brk →
    ∃ c', (avrCoreRun (List.replicate n false ++ false :: occurred)).run c = .ok (some n, c') ∧
      Shows c.layout c.flash .running Q 0 c' m)
  := by
  constructor
  · obtain ⟨c', h', hloop⟩ := run_avrCoreRun h hQ hreset hprog hrun (true :: occurred)
    refine ⟨c', ?_, h'⟩
    rw [hloop, avrCoreRunLoop, run_bind_of_ok (run_gets _ c'), if_neg (not_not.mpr h'.state),
      if_pos rfl]
    rfl
  · intro hbrk
    apply run_avrCoreRun_brk h hQ hreset hprog hrun hbrk

end

theorem resetKeeps_peripherals :
  ResetKeeps Peripherals.Quiet
  := fun addr _ hp => hp.devReset addr

/-- The program that counts from 5 down to 4 stops after two instructions. -/
theorem run_stops_counting :
  ∃ c', (avrCoreRun [false, false, false]).run AvrCore.counting = .ok (some 2, c') ∧
    c'.gpwr 16 = 4
  := by
  have hrunnable : AvrCore.counting.Runnable Peripherals.Quiet :=
    ⟨counting_plain, by decide, Peripherals.at90s8515_quiet, rfl⟩
  have hrestarted := hrunnable.restarted resetKeeps_peripherals
  obtain ⟨m, hrun, hm⟩ := counting_run hrestarted.view_pc
  have hbrk : instrAt countingProgram m.pc = some .brk := by
    rw [hm.1]
    rfl
  obtain ⟨c', hstop, h'⟩ :=
    (run_stops hrunnable quiet_peripherals resetKeeps_peripherals counting_holds hrun []).2 hbrk
  refine ⟨c', hstop, ?_⟩
  rw [h'.gpwr, hm.2.1]

/-! ### The command line -/

/-- What `main` does without a debugger, with the byte addresses of the breakpoints -/
def runImage (file : List Byte) (inst : Word) (breaks : List Nat) (occurred : List Bool) :
    CoreM δ (Option Nat) := do
  avrCoreLoadProgram file inst
  breaks.forM fun addr => avrCoreInsertBreakpoint (addr / 2)
  avrCoreRun occurred

omit [IoDevices δ] in
/-- A breakpoint at the last word of a program takes its place. -/
theorem holdsAt_setWord
    {words : List Word} {word : Word} (h : flash.HoldsAt 0 (words ++ [word])) (val : Word) :
  (flash.setWord words.length val).HoldsAt 0 (words ++ [val])
  := by
  intro n w hw
  rw [Nat.zero_add]
  by_cases hn : n < words.length
  · rw [List.getElem?_append_left hn] at hw
    have hread := h n w (by rw [List.getElem?_append_left hn]; exact hw)
    rw [Nat.zero_add] at hread
    obtain ⟨hvalid, hword⟩ := Flash.valid_of_flashRead hread
    rw [Flash.flashRead_of_valid (Flash.valid_setWord flash _ _ _ |>.mpr hvalid),
      Flash.word_setWord_of_ne (by omega), hword]
  · obtain ⟨hlt, hvalue⟩ := List.getElem?_eq_some_iff.mp hw
    rw [List.length_append, List.length_singleton] at hlt
    obtain rfl : n = words.length := by omega
    have hread := h words.length word List.getElem?_concat_length
    rw [Nat.zero_add] at hread
    obtain ⟨hvalid, -⟩ := Flash.valid_of_flashRead hread
    rw [List.getElem?_concat_length] at hw
    cases hw
    rw [Flash.flashRead_of_valid (Flash.valid_setWord flash _ _ _ |>.mpr hvalid),
      Flash.word_setWord_same]

omit [IoDevices δ] in
theorem encodeProgram_append
    (prog prog' : List Instr) :
  encodeProgram (prog ++ prog') = encodeProgram prog ++ encodeProgram prog'
  := List.flatMap_append

omit [IoDevices δ] in
theorem instrAt_length
    (prog : List Instr) (i : Instr) :
  instrAt (prog ++ [i]) (encodeProgram prog).length = some i
  := by
  induction prog with
  | nil => rfl
  | cons j prog ih =>
    have hlength : (encodeProgram (j :: prog)).length
        = j.encode.length + (encodeProgram prog).length := List.length_append
    have hpos := j.length_encode_pos
    rw [List.cons_append, instrAt, if_neg (by omega), if_neg (by omega), hlength,
      Nat.add_sub_cancel_left, ih]

omit [IoDevices δ] in
/-- The load of a program, and a breakpoint at its last instruction -/
theorem run_load_break
    {c : AvrCore δ} (hbase : c.flash.base = 0) {prog : List Instr} {last : Instr}
    (hlast : last.operands.second = none)
    (hroom : 2 * ((encodeProgram (prog ++ [last])).length : Int) ≤ c.flash.size) (inst : Word) :
  ∃ flash breakpoints display, flash.HoldsAt 0 (encodeProgram (prog ++ [.brk])) ∧
    flash.base = 0 ∧ flash.size = c.flash.size ∧
    (do
      avrCoreLoadProgram (imageBytes (encodeProgram (prog ++ [last]))) inst
      [2 * (encodeProgram prog).length].forM fun addr => avrCoreInsertBreakpoint (addr / 2)).run c
      = .ok ((), { c with flash := flash, breakpoints := breakpoints, display := display })
  := by
  obtain ⟨flash, hload, hbase', hsize, hholds⟩ := run_avrCoreLoadProgram hbase hroom inst
  have hwords : encodeProgram (prog ++ [last]) = encodeProgram prog ++ [last.first] := by
    rw [encodeProgram_append]
    change _ ++ (last.encode ++ []) = _
    rw [last.encode_eq, hlast]
    rfl
  have hbrk : encodeProgram (prog ++ [.brk]) = encodeProgram prog ++ [breakOpcode] := by
    rw [encodeProgram_append]
    change _ ++ (Instr.brk.encode ++ []) = _
    rw [Instr.encode_brk]
    rfl
  rw [hwords] at hholds
  have hread := hholds _ _ List.getElem?_concat_length
  rw [Nat.zero_add] at hread
  obtain ⟨hvalid, -⟩ := Flash.valid_of_flashRead hread
  have hhalf : ((2 * (encodeProgram prog).length : Nat) : Int) / 2 = (encodeProgram prog).length := by
    omega
  let bp : BreakPt :=
    { pc := (encodeProgram prog).length, opcode := flash.word (encodeProgram prog).length }
  have hinsert : (avrCoreInsertBreakpoint (encodeProgram prog).length).run { c with flash := flash }
      = .ok ((), { c with flash := flash, breakpoints := c.breakpoints.add bp }.writeWord
        (encodeProgram prog).length breakOpcode) :=
    run_avrCoreInsertBreakpoint (c := { c with flash := flash }) hvalid
  refine ⟨flash.setWord (encodeProgram prog).length breakOpcode, c.breakpoints.add bp,
    c.display ++ [.flash (encodeProgram prog).length [breakOpcode]], ?_, hbase', hsize, ?_⟩
  · rw [hbrk]
    exact holdsAt_setWord hholds breakOpcode
  · rw [run_bind_of_ok hload]
    change (avrCoreInsertBreakpoint (((2 * (encodeProgram prog).length : Nat) : Int) / 2) >>= _).run _
      = _
    rw [hhalf, run_bind_of_ok hinsert]
    rfl

/-- A program that comes to its last instruction is loaded with a breakpoint there and runs up to it,
from the state that the reset leaves. -/
theorem runImage_stops
    {c : AvrCore δ} (h : c.Runnable Q) (hQ : QuietDevices Q) (hreset : ResetKeeps Q)
    (hbase : c.flash.base = 0) {prog : List Instr} {last : Instr}
    (hlast : last.operands.second = none)
    (hroom : 2 * ((encodeProgram (prog ++ [last])).length : Int) ≤ c.flash.size) {n : Nat}
    {R : Cpu → Cpu → Prop}
    (hleads : ∀ m₀, Leads (Cpu.step c.layout (prog ++ [.brk])) n (fun m => m = m₀ ∧ m.pc = 0)
      (fun m => m.pc = (encodeProgram prog).length ∧ R m₀ m))
    (inst : Word) (occurred : List Bool) :
  ∃ m₀ m flash c', (runImage (imageBytes (encodeProgram (prog ++ [last]))) inst
      [2 * (encodeProgram prog).length] (List.replicate n false ++ false :: occurred)).run c
        = .ok (some n, c') ∧
    Shows c.layout flash .running Q 0 c' m ∧ R m₀ m ∧
    m₀.sram = c.sramByte ∧ m₀.clocks = c.ck ∧ (c.mem.SregAttached → m₀.sreg = 0) ∧
    (c.mem.Attached .gpwr → m₀.gpwr = fun _ => 0)
  := by
  obtain ⟨flash, breakpoints, display, hholds, hbase', hsize, hload⟩ :=
    run_load_break hbase hlast hroom inst
  let c₁ : AvrCore δ := { c with flash := flash, breakpoints := breakpoints, display := display }
  have hlayout : c₁.layout = c.layout := by
    change { c.layout with flashBase := flash.base, flashSize := flash.size } = c.layout
    rw [hbase', hsize, ← hbase]
    rfl
  have hrunnable : c₁.Runnable Q := by
    refine ⟨?_, h.pcMax, h.dev, h.stack⟩
    rw [hlayout]
    exact h.plain
  have hrestarted := hrunnable.restarted hreset
  obtain ⟨m, hsteps, hend, hR⟩ := hleads c₁.restarted.view _ ⟨rfl, hrestarted.view_pc⟩
  rw [← hlayout] at hsteps
  have hbrk : instrAt (prog ++ [.brk]) m.pc = some .brk := by
    rw [hend]
    apply instrAt_length
  obtain ⟨c', hrun, h'⟩ := run_avrCoreRun_brk hrunnable hQ hreset hholds hsteps hbrk occurred
  rw [hlayout] at h'
  refine ⟨c₁.restarted.view, m, flash, c', ?_, h', hR, ?_, hrestarted.ck, hrestarted.sreg,
    hrestarted.gpwr⟩
  · rw [runImage, ← bind_assoc, run_bind_of_ok hload]
    exact hrun
  · change c₁.restarted.sramByte = c.sramByte
    funext a
    rw [AvrCore.sramByte, hrestarted.sram]
    rfl

end

end SimulAvr
