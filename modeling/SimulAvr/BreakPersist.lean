import SimulAvr.BreakKept
import SimulAvr.Target

/-!
# Breakpoints in a session

A breakpoint that gdb has inserted stops the core in every run of the session whose steps
neither stop at another breakpoint nor write to its word (`breakpoint_persists`).  A stop
disables all breakpoints, and nothing enables them again (`breakpoint_not_persists`).
-/

namespace SimulAvr

open Program Server

section

variable {δ : Type} [IoDevices δ] {pc : Int}

/-! ### The handlers -/

/-- The program never returns `BREAK_POINT`. -/
def NeverBreaks (x : CoreM δ OpRet) : Prop :=
  ∀ c c', x.run c ≠ .ok (.breakPoint, c')

omit [IoDevices δ] in
theorem NeverBreaks.pure
    (name : OpcodeName) :
  NeverBreaks (pure (.opcode name) : CoreM δ OpRet)
  := by
  intro c c' hrun
  rw [run_pure] at hrun
  cases hrun

omit [IoDevices δ] in
theorem NeverBreaks.error
    (fmt : String) (args : List Int) :
  NeverBreaks (avrError fmt args : CoreM δ OpRet)
  := by
  intro c c' hrun
  rw [run_avrError] at hrun
  contradiction

omit [IoDevices δ] in
theorem NeverBreaks.bind
    {α : Type} {x : CoreM δ α} {f : α → CoreM δ OpRet} (hf : ∀ a, NeverBreaks (f a)) :
  NeverBreaks (x >>= f)
  := by
  intro c c' hrun
  obtain ⟨a, c₁, -, hrest⟩ := run_bind_eq_ok.mp hrun
  apply hf a c₁ c' hrest

omit [IoDevices δ] in
theorem NeverBreaks.ite
    {c : Prop} [Decidable c] {x y : CoreM δ OpRet} (hx : NeverBreaks x) (hy : NeverBreaks y) :
  NeverBreaks (if c then x else y)
  := by
  split
  · apply hx
  · apply hy

omit [IoDevices δ] in
theorem skipIf_neverBreaks
    (name : OpcodeName) (cond : Bool) (skip : Int) :
  NeverBreaks (skipIf name cond skip : CoreM δ OpRet)
  := .ite (.bind fun _ => .bind fun _ => .pure _) (.bind fun _ => .bind fun _ => .pure _)

/-- Every handler but that of BREAK returns its opcode. -/
theorem handler_neverBreaks
    {func : OpcodeName} (hfunc : func ≠ .BREAK) (opcode : Word) (arg1 arg2 : Int) :
  NeverBreaks (func.handler opcode arg1 arg2 : CoreM δ OpRet)
  := by
  cases func with
  | BREAK => contradiction
  | SLEEP => apply NeverBreaks.bind nofun
  | WDR => apply NeverBreaks.bind nofun
  | ESPM => apply NeverBreaks.error
  | _ =>
    repeat' first
      | with_reducible apply NeverBreaks.pure
      | with_reducible apply NeverBreaks.ite
      | with_reducible apply skipIf_neverBreaks
      | refine NeverBreaks.bind fun _ => ?_

/-! ### The steps of the core -/

/-- The load of a byte of flash. -/
theorem load_leavesFlash
    (name : OpcodeName) (addr : Int) (Rd : Int) (g : Word → Byte) :
  LeavesFlash (do
    let data ← avrCoreFlashRead addr
    avrCoreGpwrSet Rd (g data)
    nextInst name 3 : CoreM δ OpRet)
  := by
  apply LeavesFlash.bind (LeavesFlash.flashRead addr)
  intro data
  apply LeavesFlash.bind (LeavesFlash.gpwrSet _ _)
  intro _
  apply LeavesFlash.uses (S := ⟨fun _ => True, False, False, True⟩) id (nextInst_advances _ _).uses

theorem loads_leaveFlash
    {func : OpcodeName} (hfunc : func ∈ loadOpcodes) (opcode : Word) (arg1 arg2 : Int) :
  LeavesFlash (func.handler opcode arg1 arg2 : CoreM δ OpRet)
  := by
  have huses {α : Type} {x : CoreM δ α} (hx : Uses ⟨fun _ => True, False, False, True⟩ True x) :
      LeavesFlash x := LeavesFlash.uses id hx
  have hZ (Rd : Int) : LeavesFlash (avrOpLPMZ Rd : CoreM δ OpRet) := by
    apply LeavesFlash.bind (huses (pointerGet_uses 30))
    intro Z
    apply load_leavesFlash
  have hEZ (Rd : Int) : LeavesFlash (avrOpELPMZ Rd : CoreM δ OpRet) := by
    apply LeavesFlash.bind (LeavesFlash.avrErrorIf _ _ _)
    intro _
    apply LeavesFlash.bind (huses extendedZ_uses)
    intro Z
    apply load_leavesFlash
  cases func with
  | LPM => apply hZ
  | LPM_Z => apply hZ
  | LPM_Z_incr =>
    apply LeavesFlash.bind (LeavesFlash.avrErrorIf _ _ _)
    intro _
    apply LeavesFlash.bind (huses (pointerGet_uses 30))
    intro Z
    apply LeavesFlash.bind (LeavesFlash.flashRead _)
    intro data
    apply LeavesFlash.bind (LeavesFlash.gpwrSet _ _)
    intro _
    apply LeavesFlash.bind (huses (pointerSet_uses 30 _))
    intro _
    apply huses (nextInst_advances _ _).uses
  | ELPM => apply LeavesFlash.bind (hEZ _) fun _ => LeavesFlash.pure _
  | ELPM_Z => apply hEZ
  | ELPM_Z_incr =>
    apply LeavesFlash.bind (LeavesFlash.avrErrorIf _ _ _)
    intro _
    apply LeavesFlash.bind (huses extendedZ_uses)
    intro Z
    apply LeavesFlash.bind (LeavesFlash.flashRead _)
    intro data
    apply LeavesFlash.bind (LeavesFlash.gpwrSet _ _)
    intro _
    apply LeavesFlash.bind (LeavesFlash.gpwrSet _ _)
    intro _
    apply LeavesFlash.bind (LeavesFlash.gpwrSet _ _)
    intro _
    apply LeavesFlash.bind (huses (.action (.rampzSet _)))
    intro _
    apply huses (nextInst_advances _ _).uses
  | _ => exact absurd hfunc (by decide)

/-- SPM, in the state `c`, erases or writes the page of the word `pc`. -/
def SpmWrites (pc : Int) (c : AvrCore δ) : Prop :=
  FlashWrite.Touches pc (.spm c.spmhelper.spmcsr c.spmhelper.pageBuffer (c.gpwr 0) (c.gpwr 1)
    (OpcodeName.SPM.loadAddr c))

theorem avrOpSPM_breakAt
    {c c' : AvrCore δ} {ret : OpRet} (hspm : ¬ SpmWrites pc c) (hc : c.BreakAt pc)
    (hrun : avrOpSPM.run c = .ok (ret, c')) :
  c'.BreakAt pc
  := by
  rw [avrOpSPM, run_bind_of_ok (run_extendedZ c)] at hrun
  have hr0 : (avrCoreGpwrGet 0).run c = .ok (c.gpwr 0, c) := run_avrCoreGpwrGet c 0
  have hr1 : (avrCoreGpwrGet 1).run c = .ok (c.gpwr 1, c) := run_avrCoreGpwrGet c 1
  rw [run_bind_of_ok hr0, run_bind_of_ok hr1] at hrun
  obtain ⟨⟨⟩, c₁, hspmRun, hrest⟩ := run_bind_eq_ok.mp hrun
  have h₁ : c₁.BreakAt pc := by
    have hfree : c.spmhelper.spmcsr = 0x03 ∨ c.spmhelper.spmcsr = 0x05 → ∀ addr : Int,
        ((OpcodeName.SPM.loadAddr c >>> 1) &&& 0xff80 : Nat) ≤ addr →
        addr < ((OpcodeName.SPM.loadAddr c >>> 1) &&& 0xff80 : Nat) + 128 → addr ≠ pc := by
      rintro hwrites addr hlow hhigh rfl
      apply hspm
      exact ⟨hwrites, hlow, hhigh⟩
    have h := spmRun_coupled (break_flashRelation pc) hfree (c.gpwr 0) (c.gpwr 1) c c
      ⟨⟨rfl, hc⟩, rfl⟩
    change (spmRun (c.gpwr 0) (c.gpwr 1) (OpcodeName.SPM.loadAddr c)).run c = _ at hspmRun
    rw [hspmRun] at h
    apply h.2.2
  have huses : LeavesFlash (nextInst .SPM 2 : CoreM δ OpRet) :=
    LeavesFlash.uses (S := ⟨fun _ => True, False, False, True⟩) id (nextInst_advances _ _).uses
  apply (huses.keepsBreak pc).of_ok h₁ hrest

/-- What the next instruction does to the BREAK at `pc` and to the session: the core sleeps, or
the instruction is neither BREAK nor an SPM that writes the word. -/
def StepClear (pc : Int) (c : AvrCore δ) : Prop :=
  c.state ≠ .sleep → ∀ opcode, flashRead c.flash c.pc = .ok opcode →
    (decodeOpcode opcode).func ≠ .BREAK ∧ ((decodeOpcode opcode).func = .SPM → ¬ SpmWrites pc c)

theorem execUnlessAsleep_breakAt
    {c c' : AvrCore δ} {ret : OpRet} (hclear : StepClear pc c) (hc : c.BreakAt pc)
    (hrun : execUnlessAsleep.run c = .ok (ret, c')) :
  ret ≠ .breakPoint ∧ c'.BreakAt pc
  := by
  rw [execUnlessAsleep, run_bind_of_ok (run_gets _ c)] at hrun
  split at hrun
  · cases hrun
    exact ⟨nofun, hc⟩
  · next hawake =>
    obtain ⟨opcode, hfetch, hexec⟩ := execNextInstruction_eq_ok hrun
    obtain ⟨hbreak, hspm⟩ := hclear hawake opcode hfetch
    constructor
    · rintro rfl
      apply handler_neverBreaks hbreak _ _ _ _ _ hexec
    · have hfetched : c.fetched.BreakAt pc := ⟨hc.valid, hc.word⟩
      by_cases hflash : (decodeOpcode opcode).func ∈ flashOpcodes
      · by_cases hload : (decodeOpcode opcode).func ∈ loadOpcodes
        · apply ((loads_leaveFlash hload _ _ _).keepsBreak pc).of_ok hfetched hexec
        · have hfunc : (decodeOpcode opcode).func = .SPM := by
            revert hflash hload
            generalize (decodeOpcode opcode).func = func
            revert func
            decide
          rw [execOpcode, hfunc] at hexec
          have hspm' : ¬ SpmWrites pc c.fetched := hspm hfunc
          apply avrOpSPM_breakAt hspm' hfetched hexec
      · have huses := LeavesFlash.uses (δ := δ) hflash (handler_uses (lookupOpcode_admits opcode) opcode)
        apply (huses.keepsBreak pc).of_ok hfetched hexec

/-- A step of the core. -/
theorem avrCoreStep_breakAt
    {c c' : AvrCore δ} {ret : OpRet} (hclear : StepClear pc c) (hc : c.BreakAt pc)
    (hrun : avrCoreStep.run c = .ok (ret, c')) :
  ret ≠ .breakPoint ∧ c'.BreakAt pc
  := by
  obtain ⟨c₁, c₂, c₃, hexec, hclocks, hasync, hcheck⟩ := avrCoreStep_eq_ok.mp hrun
  obtain ⟨hret, h₁⟩ := execUnlessAsleep_breakAt hclear hc hexec
  use hret
  have hpropagate : LeavesFlash (propagateClocks c₁.instCKS.toNat : CoreM δ Unit) :=
    fun _ _ => Twins.propagateClocks _
  have hcallbacks : LeavesFlash (avrCoreAsyncCbExec : CoreM δ Unit) := fun _ _ => Twins.asyncCbExec
  have hinterrupts : LeavesFlash (avrCoreCheckInterrupts : CoreM δ Unit) :=
    fun _ _ => Twins.checkInterrupts
  have h₂ := (hpropagate.keepsBreak pc).of_ok h₁ hclocks
  have h₃ := (hcallbacks.keepsBreak pc).of_ok h₂ hasync
  split at hcheck
  · rw [hcheck]
    apply h₃
  · apply (hinterrupts.keepsBreak pc).of_ok h₃ hcheck

/-! ### The steps of a session -/

/-- The BREAK stays when the program of the server returns. -/
abbrev SessionKeeps {α : Type} (pc : Int) (x : ServerM δ α) : Prop :=
  Keeps (fun s => s.core.BreakAt pc) (fun _ => True) x

omit [IoDevices δ] in
/-- A program of the core, run by the server. -/
theorem lift_triple
    {α : Type} {x : CoreM δ α} {P : AvrCore δ → Prop} {Q : α → AvrCore δ → Prop}
    {E : AvrError → Prop} (hx : Triple P x Q E) :
  Triple (fun s => P s.core) (lift x) (fun a s => Q a s.core) E
  := by
  intro s hs
  have hc := hx s.core hs
  have hrun : (lift x).run s = (x.run s.core).map fun r => (r.1, { s with core := r.2 }) := rfl
  rw [hrun]
  cases hx' : x.run s.core with
  | error e =>
    rw [hx'] at hc
    apply hc
  | ok r =>
    rw [hx'] at hc
    apply hc

omit [IoDevices δ] in
theorem send_keeps
    (message : Sent) :
  SessionKeeps pc (send message : ServerM δ Unit)
  := fun _ hs => hs

omit [IoDevices δ] in
theorem setMode_keeps
    (mode : Mode) :
  SessionKeeps pc (setMode mode : ServerM δ Unit)
  := fun _ hs => hs

theorem gdbContinueEnd_keeps
    (signo : Byte) :
  SessionKeeps pc (gdbContinueEnd signo : ServerM δ Unit)
  := by
  apply Triple.bind (lift_triple ((LeavesFlash.stopReply signo).keepsBreak pc))
  intro reply
  apply Triple.bind (send_keeps _) fun _ => setMode_keeps _

/-- The request does not remove the breakpoint at `pc`. -/
def Request.Spares (pc : Int) (request : Request) : Prop :=
  ∀ pkt, request = .packet pkt → ¬ IsBreak 'z' pc pkt

/-- The request does not write to the word `pc`. -/
def Request.Clear (pc : Int) (request : Request) : Prop :=
  ∀ pkt, request = .packet pkt → ¬ Overwrites pc pkt

/-- A packet whose handler leaves a BREAK. -/
theorem gdbPreParsePacket_packet
    {cellName : Int → Option (List Char)} {pkt : List Char} {P : AvrCore δ → Prop}
    (hpkt : ∀ isRunning, Triple P (gdbParsePacket cellName isRunning pkt)
      (fun _ c => c.BreakAt pc) fun _ => True) :
  Triple (fun s => P s.core) (gdbPreParsePacket cellName (.packet pkt))
    (fun _ s => s.core.BreakAt pc) fun _ => True
  := by
  have hreturn (ret : GdbRet) : SessionKeeps pc (pure ret : ServerM δ GdbRet) := fun _ hs => hs
  have hget : Triple (fun s => P s.core) (get : ServerM δ (Server δ)) (fun _ s => P s.core)
      fun _ => True := fun _ hs => hs
  have hack : Triple (fun s => P s.core) (send .ack : ServerM δ Unit) (fun _ s => P s.core)
      fun _ => True := fun _ hs => hs
  apply Triple.bind hget
  intro s
  apply Triple.bind hack
  intro _
  apply Triple.bind (lift_triple (hpkt _))
  intro handled
  cases handled with
  | reply text => apply Triple.bind (send_keeps _) fun _ => hreturn _
  | kill text => apply Triple.bind (send_keeps _) fun _ => hreturn _
  | resume step => apply Triple.bind (setMode_keeps _) fun _ => hreturn _
  | ignored => apply hreturn

theorem gdbPreParsePacket_keeps
    (cellName : Int → Option (List Char)) {request : Request} (hspares : request.Spares pc)
    (hclear : request.Clear pc) :
  SessionKeeps pc (gdbPreParsePacket cellName request : ServerM δ GdbRet)
  := by
  cases request with
  | packet pkt =>
    apply gdbPreParsePacket_packet
    intro isRunning
    apply gdbParsePacket_keepsBreak cellName isRunning (hspares pkt rfl) (hclear pkt rfl)
  | _ =>
    intro s hs
    apply hs

/-- What a request leads to, once `gdb_pre_parse_packet` leaves a BREAK. -/
theorem request_breakAt
    {cellName : Int → Option (List Char)} {request : Request} {P : Server δ → Prop}
    (hrequest : Triple P (gdbPreParsePacket cellName request) (fun _ s => s.core.BreakAt pc)
      fun _ => True)
    {s s' : Server δ} (hs : P s) (hstep : ServerStep cellName (.request request) s s') :
  s'.core.BreakAt pc
  := by
  obtain ⟨x, hnext, hrun⟩ := hstep
  cases hmode : s.mode with
  | waiting =>
    rw [hmode] at hnext
    cases hnext
    have hmain : Triple P (gdbMainLoopPass cellName request) (fun _ s => s.core.BreakAt pc)
        fun _ => True := by
      apply Triple.bind hrequest
      intro res
      cases res with
      | killRequest => apply setMode_keeps
      | ctrlC => apply Triple.bind (send_keeps _) fun _ => send_keeps _
      | ok =>
        intro s hs
        apply hs
    apply hmain.of_ok hs hrun
  | polling step =>
    rw [hmode] at hnext
    cases hnext
    have hpoll : Triple P (gdbContinuePoll cellName step request) (fun _ s => s.core.BreakAt pc)
        fun _ => True := by
      apply Triple.bind hrequest
      intro res
      cases res with
      | killRequest => apply gdbContinueEnd_keeps
      | ctrlC => apply gdbContinueEnd_keeps
      | ok => apply Triple.ite (fun _ => gdbContinueEnd_keeps _) fun _ => setMode_keeps _
    apply hpoll.of_ok hs hrun
  | _ =>
    rw [hmode] at hnext
    contradiction

omit [IoDevices δ] in
/-- A run of a program of the core by the server. -/
theorem lift_eq_ok
    {α : Type} {x : CoreM δ α} {s s' : Server δ} {a : α} (hrun : (lift x).run s = .ok (a, s')) :
  ∃ c', x.run s.core = .ok (a, c') ∧ s' = { s with core := c' }
  := by
  have hlift : (lift x).run s = (x.run s.core).map fun r => (r.1, { s with core := r.2 }) := rfl
  rw [hlift] at hrun
  cases hx : x.run s.core with
  | error e =>
    rw [hx] at hrun
    contradiction
  | ok r =>
    obtain ⟨b, c'⟩ := r
    rw [hx] at hrun
    cases hrun
    exact ⟨c', rfl, rfl⟩

/-- A step of the core in `gdb_continue`. -/
theorem gdbContinueStep_breakAt
    {s s' : Server δ} {step : Char} (hclear : StepClear pc s.core) (hs : s.core.BreakAt pc)
    (hrun : (gdbContinueStep step).run s = .ok ((), s')) :
  s'.core.BreakAt pc
  := by
  obtain ⟨res, s₁, hcore, hrest⟩ := run_bind_eq_ok.mp hrun
  obtain ⟨c', hstep, rfl⟩ := lift_eq_ok hcore
  obtain ⟨hres, hc'⟩ := avrCoreStep_breakAt hclear hs hstep
  rw [if_neg hres] at hrest
  cases hrest
  apply hc'

/-- The event does not remove the breakpoint at `pc`. -/
def ServerEvent.Spares (pc : Int) (e : ServerEvent) : Prop :=
  ∀ request, e = .request request → request.Spares pc

/-- The event neither stops the core at a BREAK nor writes to the word `pc`. -/
def ServerEvent.Clear (pc : Int) (s : Server δ) : ServerEvent → Prop
  | .step => StepClear pc s.core
  | .request r => r.Clear pc
  | .sigint => True
  | .accept => True

/-- A step of the session. -/
theorem serverStep_breakAt
    {cellName : Int → Option (List Char)} {s s' : Server δ} {e : ServerEvent}
    (hspares : e.Spares pc) (hclear : e.Clear pc s) (hs : s.core.BreakAt pc)
    (hstep : ServerStep cellName e s s') :
  s'.core.BreakAt pc
  := by
  obtain ⟨x, hnext, hrun⟩ := hstep
  cases e with
  | step =>
    cases hmode : s.mode with
    | stepping step =>
      rw [hmode] at hnext
      cases hnext
      apply gdbContinueStep_breakAt hclear hs hrun
    | _ =>
      rw [hmode] at hnext
      contradiction
  | request request =>
    apply request_breakAt (gdbPreParsePacket_keeps cellName (hspares request rfl) hclear) hs
    exact ⟨x, hnext, hrun⟩
  | sigint =>
    cases hmode : s.mode with
    | stepping step =>
      rw [hmode] at hnext
      cases hnext
      apply (gdbContinueEnd_keeps sigtrap).of_ok hs hrun
    | _ =>
      rw [hmode] at hnext
      contradiction
  | accept =>
    cases hmode : s.mode with
    | closed =>
      rw [hmode] at hnext
      cases hnext
      have hreset : SessionKeeps pc (do
          lift (update AvrCore.reset)
          setMode .waiting : ServerM δ Unit) :=
        Triple.bind (lift_triple (LeavesFlash.reset.keepsBreak pc)) fun _ => setMode_keeps _
      apply hreset.of_ok hs hrun
    | _ =>
      rw [hmode] at hnext
      contradiction

/-! ### Breakpoints persist -/

omit [IoDevices δ] in
/-- Inserting a breakpoint by a packet. -/
theorem gdbBreakPoint_breakAt
    {rest rest' : List Char} {addr len : Int}
    (hparse : gdbGetAddrLen rest.tail ',' nul = .ok (addr, len, rest')) (haddr : addr.tdiv 2 = pc) :
  Triple (fun c => pc < c.pcMax) (gdbBreakPoint 'Z' ( '0' :: rest) : CoreM δ (List Char))
    (fun _ c => c.BreakAt pc) fun _ => True
  := by
  intro c hc
  have hparse' : gdbGetAddrLen (List.drop 2 ( '0' :: rest)) ',' nul = .ok (addr, len, rest') := by
    rw [List.drop_succ_cons, List.drop_one]
    apply hparse
  have hvalid : ¬ addr.tdiv 2 ≥ c.pcMax := by
    rw [haddr]
    omega
  cases hrun : (gdbBreakPoint 'Z' ( '0' :: rest)).run c with
  | error e => trivial
  | ok r =>
    obtain ⟨text, c'⟩ := r
    rw [gdbBreakPoint, run_bind_of_ok (run_liftExcept_ok hparse' c)] at hrun
    simp only [List.headD_cons, if_true] at hrun
    rw [run_bind_of_ok (run_gets _ c), if_neg hvalid, if_neg (by decide)] at hrun
    obtain ⟨⟨⟩, c₁, hinsert, hreply⟩ := run_bind_eq_ok.mp hrun
    rw [haddr] at hinsert
    apply ((LeavesFlash.sendReply _).keepsBreak pc).of_ok (insert_breakAt hinsert) hreply

/-- The packet that inserts a breakpoint. -/
theorem gdbParsePacket_breakAt
    (cellName : Int → Option (List Char)) (isRunning : Bool) {pkt : List Char}
    (hpkt : IsBreak 'Z' pc pkt) :
  Triple (fun c => pc < c.pcMax) (gdbParsePacket cellName isRunning pkt : CoreM δ Handled)
    (fun _ c => c.BreakAt pc) fun _ => True
  := by
  obtain ⟨rest, addr, len, rest', rfl, hparse, haddr⟩ := hpkt
  apply Triple.bind (gdbBreakPoint_breakAt hparse haddr)
  intro text
  apply Triple.pure
  intro c hc
  apply hc

/-- A breakpoint that was inserted stops `gdb_continue` at its word, in every run of the session
whose events do not remove it and neither stop the core at a BREAK nor write to the word. -/
theorem breakpoint_persists
    (cellName : Int → Option (List Char)) (pc : Int) (pkt : List Char) (s s₁ s₂ s₃ : Server δ)
    (hpkt : IsBreak 'Z' pc pkt) (haccept : pc < s.core.pcMax)
    (hinsert : ServerStep cellName (.request (.packet pkt)) s s₁)
    (hrun : ServerRun cellName (fun s e => e.Spares pc ∧ e.Clear pc s) s₁ s₂)
    (hpc : s₂.core.pc = pc) (hawake : s₂.core.state ≠ .sleep)
    (hstep : ServerStep cellName .step s₂ s₃) :
  s₃.mode = .waiting ∧ ∃ c', avrCoreStep.run s₂.core = .ok (.breakPoint, c')
  := by
  have h₁ : s₁.core.BreakAt pc :=
    request_breakAt (gdbPreParsePacket_packet fun _ => gdbParsePacket_breakAt cellName _ hpkt)
      haccept hinsert
  have h₂ : s₂.core.BreakAt pc := by
    apply hrun.invariant (I := fun s => s.core.BreakAt pc) _ h₁
    rintro s e s' hs ⟨hspares, hclear⟩ hstep
    apply serverStep_breakAt hspares hclear hs hstep
  obtain ⟨x, hnext, hx⟩ := hstep
  cases hmode : s₂.mode with
  | stepping step =>
    rw [hmode] at hnext
    cases hnext
    obtain ⟨res, s', hcore, hrest⟩ := run_bind_eq_ok.mp hx
    obtain ⟨c', hcstep, rfl⟩ := lift_eq_ok hcore
    have hres : res = .breakPoint := by
      obtain ⟨c₁, c₂, c₃, hexec, -⟩ := avrCoreStep_eq_ok.mp hcstep
      have hfetch : flashRead s₂.core.flash s₂.core.pc = .ok breakOpcode := by
        rw [hpc, Flash.flashRead_of_valid h₂.valid, h₂.word]
      rw [execUnlessAsleep, run_bind_of_ok (run_gets _ _), if_neg hawake,
        execNextInstruction_of_fetch hfetch] at hexec
      cases hexec
      rfl
    rw [if_pos hres] at hrest
    obtain ⟨⟨⟩, s₄, -, hend⟩ := run_bind_eq_ok.mp hrest
    obtain ⟨reply, s₅, -, hmode'⟩ := run_bind_eq_ok.mp hend
    cases hmode'
    use rfl, c'
    rw [hcstep, hres]
  | _ =>
    rw [hmode] at hnext
    contradiction

end

/-- A server at the first of the NOPs that fill the flash of an at90s2313. -/
def Server.atNops : Server Unit where
  core := AvrCore.atOpcode 0 0x0000
  mode := .waiting
  sent := []

/-- The server steps the core, at a NOP, or gets a request without a packet or the packet `c`. -/
def stepsNop (s : Server Unit) : ServerEvent → Bool
  | .step => (flashRead s.core.flash s.core.pc).toOption = some 0x0000
  | .request (.packet pkt) => pkt = ['c']
  | .request _ => true
  | _ => false

theorem stepsNop_spares
    {pc : Int} {s : Server Unit} {e : ServerEvent} (h : stepsNop s e = true) :
  e.Spares pc ∧ e.Clear pc s
  := by
  cases e with
  | step =>
    constructor
    · nofun
    · intro _ opcode hfetch
      have hopcode : (flashRead s.core.flash s.core.pc).toOption = some 0x0000 := of_decide_eq_true h
      rw [hfetch] at hopcode
      cases hopcode
      have hnop : (decodeOpcode 0).func = .NOP := by decide
      rw [hnop]
      exact ⟨nofun, nofun⟩
  | request r =>
    cases r with
    | packet pkt =>
      have hpkt : pkt = ['c'] := of_decide_eq_true h
      subst hpkt
      constructor
      · rintro r hr pkt hpkt ⟨rest, addr, len, rest', heq, -⟩
        cases hr
        cases hpkt
        cases heq
      · rintro pkt hpkt ⟨addr, len, rest, hM, -⟩
        cases hpkt
        exact absurd hM (by decide)
    | _ =>
      constructor
      · rintro r hr pkt hpkt
        cases hr
        cases hpkt
      · rintro pkt hpkt
        cases hpkt
  | _ => contradiction

/-- A breakpoint at word 2, after two NOPs. -/
theorem breakpoint_persists_nops :
  ∃ s₂ s₃ : Server Unit, ServerStep (fun _ => none) .step s₂ s₃ ∧ s₃.mode = .waiting ∧
    ∃ c', avrCoreStep.run s₂.core = .ok (.breakPoint, c')
  := by
  let next := serverAfter (δ := Unit) fun _ => none
  have h : ((next (.request (.packet "Z0,4,2".toList)) .atNops).bind fun s₁ =>
      (Transition.exec next stepsNop [.request (.packet ['c']), .step, .request .empty, .step,
        .request .empty] s₁).bind fun s₂ =>
      (next .step s₂).map fun _ => (s₂.core.pc, s₂.core.state)) = some (2, .running) := by
    decide +kernel
  obtain ⟨s₁, hinsert, h⟩ := Option.bind_eq_some_iff.mp h
  obtain ⟨s₂, hexec, h⟩ := Option.bind_eq_some_iff.mp h
  obtain ⟨s₃, hstep, h⟩ := Option.map_eq_some_iff.mp h
  obtain ⟨hpc, hstate⟩ := Prod.mk.inj h
  have hpkt : IsBreak 'Z' 2 "Z0,4,2".toList := by
    refine ⟨",4,2".toList, 4, 2, [], rfl, ?_, rfl⟩
    decide +kernel
  have hawake : s₂.core.state ≠ .sleep := by
    rw [hstate]
    nofun
  have hrun : ServerRun (fun _ => none) (fun s e => e.Spares 2 ∧ e.Clear 2 s) s₁ s₂ :=
    Transition.exec_run (fun _ _ _ => serverStep_of_after) (fun _ _ => stepsNop_spares) hexec
  refine ⟨s₂, s₃, serverStep_of_after hstep, ?_⟩
  apply breakpoint_persists (fun _ => none) 2 _ .atNops s₁ s₂ s₃ hpkt (by decide)
    (serverStep_of_after hinsert) hrun hpc hawake (serverStep_of_after hstep)

/-- The stop at a breakpoint at word 1 disables a breakpoint at word 3. -/
theorem breakpoint_not_persists :
  ¬ ∀ (cellName : Int → Option (List Char)) (pc : Int) (pkt : List Char) (s s₁ s₂ s₃ : Server Unit),
    IsBreak 'Z' pc pkt → pc < s.core.pcMax →
    ServerStep cellName (.request (.packet pkt)) s s₁ →
    ServerRun cellName (fun _ e => e.Spares pc) s₁ s₂ →
    s₂.core.pc = pc → s₂.core.state ≠ .sleep → ServerStep cellName .step s₂ s₃ →
    s₃.mode = .waiting ∧ ∃ c', avrCoreStep.run s₂.core = .ok (.breakPoint, c')
  := by
  intro hpersists
  let next := serverAfter (δ := Unit) fun _ => none
  let continues (_ : Server Unit) : ServerEvent → Bool
    | .step => true
    | .request (.packet pkt) => pkt = ['c']
    | .request _ => true
    | _ => false
  have hspares (s : Server Unit) (e : ServerEvent) (h : continues s e = true) : e.Spares 3 := by
    rintro r rfl pkt rfl ⟨rest, addr, len, rest', heq, -⟩
    have hpkt : pkt = ['c'] := of_decide_eq_true h
    rw [hpkt] at heq
    cases heq
  have h : ((next (.request (.packet "Z0,2,2".toList)) .atNops).bind fun s =>
      (next (.request (.packet "Z0,6,2".toList)) s).bind fun s₁ =>
      (Transition.exec next continues [.request (.packet ['c']), .step, .request .empty, .step,
        .request (.packet ['c']), .step, .request .empty, .step, .request .empty] s₁).bind fun s₂ =>
      (next .step s₂).map fun s₃ =>
        (s.core.pcMax, s₂.core.pc, s₂.core.state, s₃.mode.isRunning)) =
          some (1024, 3, .running, true) := by
    decide +kernel
  obtain ⟨s, -, h⟩ := Option.bind_eq_some_iff.mp h
  obtain ⟨s₁, hinsert, h⟩ := Option.bind_eq_some_iff.mp h
  obtain ⟨s₂, hexec, h⟩ := Option.bind_eq_some_iff.mp h
  obtain ⟨s₃, hstep, h⟩ := Option.map_eq_some_iff.mp h
  simp only [Prod.mk.injEq] at h
  obtain ⟨hmax, hpc, hstate, hrunning⟩ := h
  have hpkt : IsBreak 'Z' 3 "Z0,6,2".toList := by
    refine ⟨",6,2".toList, 6, 2, [], rfl, ?_, rfl⟩
    decide +kernel
  have haccept : 3 < s.core.pcMax := by
    rw [hmax]
    decide
  have hawake : s₂.core.state ≠ .sleep := by
    rw [hstate]
    nofun
  have hrun : ServerRun (fun _ => none) (fun _ e => e.Spares 3) s₁ s₂ :=
    Transition.exec_run (fun _ _ _ => serverStep_of_after) hspares hexec
  obtain ⟨hmode, -⟩ := hpersists (fun _ => none) 3 _ s s₁ s₂ s₃ hpkt haccept
    (serverStep_of_after hinsert) hrun hpc hawake (serverStep_of_after hstep)
  rw [hmode] at hrunning
  exact absurd hrunning (by decide)

end SimulAvr
