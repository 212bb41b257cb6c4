import SimulAvr.GdbBlocking
import SimulAvr.Reset

/-!
# The end of a session

The packets `k` and `D` reset the core and make `gdb_pre_parse_packet` return
`GDB_RET_KILL_REQUEST`.  When `gdb_main_loop` has called it the session is over.  When the loop
of `gdb_continue` has called it, `gdb_continue` takes the result for a stop of the target: it
sends another reply and returns without a result, and `gdb_main_loop` waits for the next
request (`kill_ends_session`).
-/

namespace SimulAvr

open Program Server Transition

/-- The packet is a kill request or a detach request. -/
def IsKill (pkt : List Char) : Prop :=
  pkt.headD nul = 'k' ∨ pkt.headD nul = 'D'

section

variable {δ : Type} [IoDevices δ]

/-- The handler of a kill request. -/
theorem run_gdbParsePacket_kill
    (cellName : Int → Option (List Char)) (isRunning : Bool) {pkt : List Char} (hkill : IsKill pkt)
    (c : AvrCore δ) :
  (gdbParsePacket cellName isRunning pkt).run c = .ok (.kill "OK".toList, c.reset)
  := by
  have hok : (gdbSendReply "OK".toList).run c.reset = .ok ("OK".toList, c.reset) :=
    run_gdbSendReply (by decide)
  rw [gdbParsePacket]
  obtain hk | hD := hkill
  · rw [hk]
    apply (run_bind_of_ok (run_update AvrCore.reset c)).trans
    rw [run_bind_of_ok hok]
    rfl
  · rw [hD]
    apply (run_bind_of_ok (run_update AvrCore.reset c)).trans
    rw [run_bind_of_ok hok]
    rfl

/-- The server after the acknowledgement of a kill request, the reset and the reply. -/
def Server.killed (s : Server δ) : Server δ :=
  { s with core := s.core.reset, sent := .reply "OK".toList :: .ack :: s.sent }

/-- `gdb_pre_parse_packet` returns the kill request. -/
theorem run_gdbPreParsePacket_kill
    (cellName : Int → Option (List Char)) {pkt : List Char} (hkill : IsKill pkt) (s : Server δ) :
  (gdbPreParsePacket cellName (.packet pkt)).run s = .ok (.killRequest, s.killed)
  := by
  have hparse : (lift (gdbParsePacket cellName s.mode.isRunning pkt)).run
      { s with sent := .ack :: s.sent } =
        .ok (.kill "OK".toList, { s with core := s.core.reset, sent := .ack :: s.sent }) := by
    have h := run_gdbParsePacket_kill cellName s.mode.isRunning hkill s.core
    change ((gdbParsePacket cellName s.mode.isRunning pkt) s.core).map _ = _
    rw [show (gdbParsePacket cellName s.mode.isRunning pkt) s.core = _ from h]
    rfl
  rw [gdbPreParsePacket, run_bind_of_ok (run_get s)]
  dsimp only
  rw [send, run_bind_of_ok (run_modify _ s), run_bind_of_ok hparse]
  rfl

/-- The session that the server `s` was in is over in `s'`: the core is reset, nothing is sent
after the reply `OK`, and the server neither steps the core nor reads a request before it
accepts the next connection. -/
structure SessionEnded (cellName : Int → Option (List Char)) (s s' : Server δ) : Prop where
  core : s'.core = s.core.reset
  sent : s'.sent = .reply "OK".toList :: .ack :: s.sent
  closed : ∀ e s'', ServerStep cellName e s' s'' → e = .accept

/-- After the end of `gdb_main_loop` the server accepts the next connection. -/
theorem ServerStep.of_closed
    {cellName : Int → Option (List Char)} {e : ServerEvent} {s s' : Server δ}
    (hclosed : s.mode = .closed) (h : ServerStep cellName e s s') :
  e = .accept
  := by
  obtain ⟨x, hnext, -⟩ := h
  rw [hclosed] at hnext
  cases e with
  | accept => rfl
  | _ => contradiction

/-- `gdb_continue` sends a reply of its own at its end. -/
theorem gdbContinueEnd_sent
    {signo : Byte} {s s' : Server δ} (h : (gdbContinueEnd signo).run s = .ok ((), s')) :
  ∃ reply, s'.sent = .reply reply :: s.sent
  := by
  obtain ⟨reply, s₁, hlift, h⟩ := run_bind_eq_ok.mp h
  cases h
  use reply
  change ((gdbStopReply signo) s.core).map _ = _ at hlift
  cases hstop : (gdbStopReply signo) s.core with
  | error e =>
    rw [hstop] at hlift
    contradiction
  | ok r =>
    rw [hstop] at hlift
    cases hlift
    rfl

/-- A reset leaves SPL and SPH where gdb expects them. -/
theorem HasGdbSp.reset
    {c : AvrCore δ} (h : HasGdbSp c) :
  HasGdbSp c.reset
  := by
  have hframe := AvrCore.reset_frame c
  have hmem : c.reset.mem = c.mem := hframe.mem
  constructor
  · apply hframe.splAddr.trans h.splAddr
  · rw [hmem]
    apply h.xramEnd
  · rw [hmem]
    apply h.spl
  · rw [hmem]
    apply h.sph

/-- The reply of `gdb_continue` where gdb finds SP. -/
theorem run_gdbStopReply
    {c : AvrCore δ} (h : HasGdbSp c) (signo : Byte) :
  ∃ reply, (gdbStopReply signo).run c = .ok (reply, c)
  := by
  use "T".toList ++ hexByte signo ++ "20:".toList ++ hexByte c.sreg ++ ";21:".toList ++
    hexByte c.sp.spl ++ hexByte c.sp.sph ++ ";22:".toList ++ hexLong (.ofInt 32 (c.pc * 2)) ++
    ";".toList
  rw [gdbStopReply, run_bind_of_ok (run_avrCorePCGet c), run_bind_of_ok (run_avrCoreSregGet c),
    run_bind_of_ok (run_memRead_spl h), run_bind_of_ok (run_memRead_sph h)]
  apply run_gdbSendReply
  simp only [hexLong, hexByte, List.length_append, List.length_cons, List.length_nil]
  decide

/-- A kill request that arrives while `gdb_continue` is running is served. -/
theorem serverStep_kill_polling
    (cellName : Int → Option (List Char)) {pkt : List Char} (hkill : IsKill pkt) {s : Server δ}
    {step : Char} (hmode : s.mode = .polling step) (hsp : HasGdbSp s.core) :
  ∃ s', ServerStep cellName (.request (.packet pkt)) s s'
  := by
  obtain ⟨reply, hstop⟩ := run_gdbStopReply hsp.reset sigtrap
  have hlift : (lift (gdbStopReply sigtrap)).run s.killed = .ok (reply, s.killed) := by
    change ((gdbStopReply sigtrap) s.core.reset).map _ = _
    rw [show (gdbStopReply sigtrap) s.core.reset = _ from hstop]
    rfl
  use { s.killed with sent := .reply reply :: s.killed.sent, mode := .waiting },
    gdbContinuePoll cellName step (.packet pkt)
  constructor
  · rw [hmode]
    rfl
  · rw [gdbContinuePoll, run_bind_of_ok (run_gdbPreParsePacket_kill cellName hkill s)]
    apply run_bind_of_ok hlift

/-- The pass of `gdb_main_loop` for a kill request. -/
theorem run_gdbMainLoopPass_kill
    (cellName : Int → Option (List Char)) {pkt : List Char} (hkill : IsKill pkt) (s : Server δ) :
  (gdbMainLoopPass cellName (.packet pkt)).run s = .ok ((), { s.killed with mode := .closed })
  := by
  rw [gdbMainLoopPass, run_bind_of_ok (run_gdbPreParsePacket_kill cellName hkill s)]
  rfl

/-- A kill request for which `gdb_main_loop` waits is served. -/
theorem serverStep_kill_waiting
    (cellName : Int → Option (List Char)) {pkt : List Char} (hkill : IsKill pkt) {s : Server δ}
    (hwaiting : s.mode = .waiting) :
  ∃ s', ServerStep cellName (.request (.packet pkt)) s s'
  := by
  use { s.killed with mode := .closed }, gdbMainLoopPass cellName (.packet pkt)
  rw [hwaiting]
  exact ⟨rfl, run_gdbMainLoopPass_kill cellName hkill s⟩

/-- A kill request ends the session exactly if it does not arrive while `gdb_continue` is
running. -/
theorem sessionEnded_iff
    {cellName : Int → Option (List Char)} {pkt : List Char} (hkill : IsKill pkt) {s s' : Server δ}
    (hstep : ServerStep cellName (.request (.packet pkt)) s s') :
  SessionEnded cellName s s' ↔ s.mode.isRunning = false
  := by
  obtain ⟨x, hnext, hrun⟩ := hstep
  cases hmode : s.mode with
  | waiting =>
    rw [hmode] at hnext
    cases hnext
    rw [run_gdbMainLoopPass_kill cellName hkill s] at hrun
    cases hrun
    constructor
    · intro _
      rfl
    · intro _
      refine ⟨rfl, rfl, ?_⟩
      intro e s'' hstep
      apply hstep.of_closed rfl
  | polling step =>
    rw [hmode] at hnext
    cases hnext
    rw [gdbContinuePoll, run_bind_of_ok (run_gdbPreParsePacket_kill cellName hkill s)] at hrun
    obtain ⟨reply, hsent⟩ := gdbContinueEnd_sent hrun
    constructor
    · intro hended
      have hlength := congrArg List.length (hsent.symm.trans hended.sent)
      simp [Server.killed] at hlength
    · nofun
  | _ =>
    rw [hmode] at hnext
    contradiction

/-- The event is a kill request or a detach request. -/
def ServerEvent.IsKill (e : ServerEvent) : Prop :=
  ∃ pkt, e = .request (.packet pkt) ∧ SimulAvr.IsKill pkt

/-- In a session, whatever the packets before it and after it, every kill request and every
detach request ends the session exactly if none of them arrives while `gdb_continue` is
running. -/
theorem kill_ends_session
    (cellName : Int → Option (List Char)) {s t : Server δ} {taken : List (Server δ × ServerEvent)}
    (hpath : Path (ServerStep cellName) s taken t) :
  (∀ p ∈ taken, p.2.IsKill → ∀ s', ServerStep cellName p.2 p.1 s' →
    SessionEnded cellName p.1 s') ↔
  ∀ p ∈ taken, p.2.IsKill → p.1.mode.isRunning = false
  := by
  constructor
  · rintro hended ⟨s₁, e⟩ hmem ⟨pkt, rfl, hkill⟩
    obtain ⟨s', hstep⟩ := hpath.exists_step _ hmem
    apply (sessionEnded_iff hkill hstep).mp
    apply hended _ hmem ⟨pkt, rfl, hkill⟩ s' hstep
  · rintro hidle ⟨s₁, e⟩ hmem ⟨pkt, rfl, hkill⟩ s' hstep
    apply (sessionEnded_iff hkill hstep).mpr
    apply hidle _ hmem ⟨pkt, rfl, hkill⟩

/-- A kill request on a new connection. -/
theorem kill_ends_session_idle :
  ∃ s', ServerStep (fun _ => none) (.request (.packet ['k'])) (Connection.idle []).server s' ∧
    SessionEnded (fun _ => none) (Connection.idle []).server s'
  := by
  have hkill : ServerEvent.IsKill (.request (.packet ['k'])) := ⟨['k'], rfl, Or.inl rfl⟩
  have hwaiting : (Connection.idle []).server.mode = .waiting := rfl
  obtain ⟨s', hstep⟩ := serverStep_kill_waiting (fun _ => none) (Or.inl rfl : IsKill ['k']) hwaiting
  have hpath := Path.cons hstep (Path.nil s')
  use s', hstep
  apply (kill_ends_session _ hpath).mpr _ _ List.mem_cons_self hkill s' hstep
  intro p hmem _
  rw [List.mem_singleton.mp hmem]
  rfl

/-- A kill request that arrives after a step of `gdb_continue` does not end the session. -/
theorem kill_not_ends_session :
  ¬ ∀ (cellName : Int → Option (List Char)) (pkt : List Char) (s₀ s s' : Server Unit),
    IsKill pkt → s₀.mode = .waiting → ServerRun cellName Always s₀ s →
    ServerStep cellName (.request (.packet pkt)) s s' → SessionEnded cellName s s'
  := by
  intro hended
  let s₀ : Server Unit :=
    { core := { AvrCore.construct defnAt90s8515 () with flash := .filled 4096 0x0000 }
      mode := .waiting
      sent := [] }
  let name : Int → Option (List Char) := fun _ => none
  have h : (exec (serverAfter name) (fun _ _ => true) [.request (.packet ['c']), .step] s₀).map
      (fun s => (s.mode, s.core.sp.splAddr, s.core.mem.xramEnd, s.core.mem.cell splAddrGdb,
        s.core.mem.cell sphAddrGdb)) =
      some (.polling 'c', splAddrGdb, 0xffff, spCell, spCell) := by
    decide +kernel
  obtain ⟨s, hexec, h⟩ := Option.map_eq_some_iff.mp h
  obtain ⟨hmode, h⟩ := Prod.mk.inj h
  obtain ⟨hsplAddr, h⟩ := Prod.mk.inj h
  obtain ⟨hxramEnd, h⟩ := Prod.mk.inj h
  obtain ⟨hspl, hsph⟩ := Prod.mk.inj h
  have hsp : HasGdbSp s.core := ⟨hsplAddr, by rw [hxramEnd]; decide, hspl, hsph⟩
  have hrun : ServerRun name Always s₀ s :=
    exec_run (fun _ _ _ => serverStep_of_after) (fun _ _ _ => trivial) hexec
  have hkill : IsKill ['k'] := Or.inl rfl
  obtain ⟨s', hstep⟩ := serverStep_kill_polling name hkill hmode hsp
  obtain ⟨x, hnext, hx⟩ := id hstep
  rw [hmode] at hnext
  obtain rfl := Option.some.inj hnext
  rw [gdbContinuePoll, run_bind_of_ok (run_gdbPreParsePacket_kill name hkill s)] at hx
  obtain ⟨reply, hsent⟩ := gdbContinueEnd_sent hx
  have hended := (hended name ['k'] s₀ s s' hkill rfl hrun hstep).sent
  have hlength := congrArg List.length (hsent.symm.trans hended)
  simp [Server.killed] at hlength

end

end SimulAvr
