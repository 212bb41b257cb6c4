import SimulAvr.GdbBlocking
import SimulAvr.Regress.Texts

/-!
# The server and its client

The server as the other party of an exchange: with some bytes waiting it takes the next step of
its session, and writes what it sends.  It answers a packet with an acknowledgement and a reply;
the packet `s` it acknowledges before it steps the core, and it looks for another request before it
replies.
-/

namespace SimulAvr

open Program Descriptor Exchange

/-! ### The server -/

/-- The bytes of what the server sends -/
def Sent.bytes : Sent → Except AvrError (List Byte)
  | .ack => .ok [charByte '+']
  | .reply text => gdbReplyBytes (text.map charByte)

/-- The next event of a session without signals and other connections -/
def Mode.event : Mode → LinkEvent
  | .stepping _ => .step
  | _ => .request

/-- A byte that has arrived -/
def arrivedByte : Arrival Byte → Option Byte
  | .byte b => some b
  | _ => none

section

variable {δ : Type} [IoDevices δ]

/-- The next step of the server with the bytes waiting: the server after it, the bytes that are left
and the bytes that it writes -/
def linkServe (cellName : Int → Option (List Char)) (l : Connection δ) (input : List Byte) :
    Option (Connection δ × List Byte × List Byte) := do
  let l' ← linkAfter cellName l.server.mode.event (l.after (input.map .byte))
  let new := l'.server.sent.take (l'.server.sent.length - l.server.sent.length)
  let output ← (new.reverse.mapM Sent.bytes).toOption
  return (l'.after [], l'.input.filterMap arrivedByte, output.flatten)

/-- The server as a party of an exchange -/
def gdbServe (cellName : Int → Option (List Char)) : Exchange.Server (Connection δ) Byte :=
  fun l input l' rest output => linkServe cellName l input = some (l', rest, output)

/-- The server waits for a request, with the core as it is. -/
structure Ready (l : Connection δ) (c : AvrCore δ) : Prop where
  core : l.server.core = c
  mode : l.server.mode = .waiting
  flag : l.blockOn = l.blocking

variable {cellName : Int → Option (List Char)} {l l' : Connection δ} {c c' : AvrCore δ}

/-- What a step of the session leaves and writes -/
theorem linkServe_eq
    {input : List Byte} {new : List Sent} {output : List (List Byte)}
    (hafter : linkAfter cellName l.server.mode.event (l.after (input.map .byte)) = some l')
    (hsent : l'.server.sent = new ++ l.server.sent)
    (hbytes : new.reverse.mapM Sent.bytes = .ok output) :
  linkServe cellName l input
    = some (l'.after [], l'.input.filterMap arrivedByte, output.flatten)
  := by
  have hnew : l'.server.sent.take (l'.server.sent.length - l.server.sent.length) = new := by
    rw [hsent, List.length_append, Nat.add_sub_cancel, List.take_left]
  simp only [linkServe, hafter, hnew, hbytes, Option.bind_eq_bind, Option.bind_some]
  rfl

/-- The session goes on where its next event returns. -/
theorem linkAfter_eq
    {e : LinkEvent} {x : ConnectionM δ Unit} (hnext : linkNext cellName l.server.mode e = some x)
    (hrun : x.run l = .ok ((), l')) :
  linkAfter cellName e l = some l'
  := by
  rw [linkAfter, hnext, Option.bind_some, hrun]
  rfl

/-- A server whose step is the only one -/
theorem gdbServe_unique
    {input rest rest' output output' : List Byte} {l₁ l₂ : Connection δ}
    (h : gdbServe cellName l input l₁ rest output)
    (h' : gdbServe cellName l input l₂ rest' output') :
  l₂ = l₁ ∧ rest' = rest ∧ output' = output
  := by
  have heq := Option.some.inj (h'.symm.trans h)
  exact ⟨congrArg Prod.fst heq, congrArg (fun r => r.2.1) heq, congrArg (fun r => r.2.2) heq⟩

/-- An answer that begins with a step that takes the input -/
theorem answers_step
    {n : Nat} {input output output' : List Byte} (h : gdbServe cellName l input l' [] output)
    {l₂ : Connection δ} (hnext : Answers (gdbServe cellName) n l' [] output' l₂)
    (hwrites : output ++ output' ≠ []) :
  Answers (gdbServe cellName) (n + 1) l input (output ++ output') l₂
  := by
  apply Answers.step h _ hnext hwrites
  intro l₁ rest new h'
  exact gdbServe_unique h h'

/-- A server that is ready waits. -/
theorem Ready.waits
    (h : Ready l c) :
  Waits (gdbServe cellName) l
  := by
  intro l' rest output hserve
  have hmode : (l.after []).server.mode = .waiting := h.mode
  have hflag : (l.after []).blockOn = (l.after []).blocking := h.flag
  have hnothing : Descriptor.read ((l.after []).enter true).blocking ((l.after []).enter true).input
      = none := by
    rw [Connection.enter, entered_of_flag hflag]
    rfl
  have hread : gdbReadByte.run ((l.after []).enter true) = .error .waiting := by
    rw [gdbReadByte, gdbReadByteFrom, run_bind_of_ok (run_get _), hnothing]
    rfl
  have hnone : linkAfter cellName .request (l.after []) = none := by
    rw [linkAfter, hmode]
    change ((do
      let request ← gdbReadRequest true
      Connection.lift (gdbMainLoopPass cellName request) : ConnectionM δ Unit).run
        (l.after [])).toOption.map Prod.snd = none
    have herror : (gdbReadRequest true).run (l.after []) = .error .waiting := by
      rw [gdbReadRequest, run_bind_of_ok (run_gdbEnter true _), run_bind_of_error hread]
    rw [run_bind_of_error herror]
    rfl
  have hevent : l.server.mode.event = .request := by
    rw [h.mode]
    rfl
  rw [gdbServe, linkServe, hevent, List.map_nil, hnone] at hserve
  contradiction

/-! ### Packets -/

omit [IoDevices δ] in
/-- The server that is ready reads the frame of a packet. -/
theorem run_gdbReadRequest_packet
    (h : Ready l c) {msg : List Char} (hplain : Plain msg) (hlen : msg.length ≤ maxBuf) :
  (gdbReadRequest true).run (l.after ((Framing.frame (msg.map charByte)).map .byte))
    = .ok (.packet msg, { l with input := [], blockOn := true, blocking := true })
  := by
  have hframe := brings_map (Framing.frame (msg.map charByte)) []
  rw [List.append_nil] at hframe
  have henter : (gdbReadRequest true).run (l.after ((Framing.frame (msg.map charByte)).map .byte))
      = (gdbReadRequest true).run { l with
        input := (Framing.frame (msg.map charByte)).map .byte, blockOn := true, blocking := true } := by
    have hflag : (l.after ((Framing.frame (msg.map charByte)).map .byte)).blockOn
        = (l.after ((Framing.frame (msg.map charByte)).map .byte)).blocking := h.flag
    rw [gdbReadRequest, run_bind_of_ok (run_gdbEnter true _), run_bind_of_ok (run_gdbEnter true _),
      Connection.enter, entered_of_flag hflag]
    rfl
  rw [henter, run_gdbReadRequest_frame rfl rfl (endMark_not_mem hplain) _ hframe,
    map_byteChar hplain]
  · rfl
  · rw [List.length_map]
    exact hlen

omit [IoDevices δ] in
/-- A program of the server leaves the connection. -/
theorem run_connectionLift
    {α : Type} {x : ServerM δ α} {a : α} {s : Server δ} (h : x.run l.server = .ok (a, s)) :
  (Connection.lift x).run l = .ok (a, { l with server := s })
  := by
  change ((x.run l.server).mapError _).map _ = _
  rw [h]
  rfl

omit [IoDevices δ] in
/-- A program of the core leaves the session. -/
theorem run_serverLift
    {α : Type} {x : CoreM δ α} {a : α} {s : Server δ} (h : x.run s.core = .ok (a, c)) :
  (Server.lift x).run s = .ok (a, { s with core := c })
  := by
  change (x.run s.core).map _ = _
  rw [h]
  rfl

/-- What `gdb_main_loop` does with a packet whose handler does not end the session -/
theorem run_gdbMainLoopPass_packet
    {s s' : Server δ} (hmode : s.mode = .waiting) {msg : List Char} {handled : Handled}
    (hparse : (gdbParsePacket cellName false msg).run s.core = .ok (handled, c'))
    (hhandled : (gdbHandled handled).run { s with core := c', sent := .ack :: s.sent }
      = .ok (.ok, s')) :
  (gdbMainLoopPass cellName (.packet msg)).run s = .ok ((), s')
  := by
  have hlift : (Server.lift (gdbParsePacket cellName s.mode.isRunning msg)).run
      { s with sent := .ack :: s.sent } = .ok (handled, { s with core := c', sent := .ack :: s.sent }) := by
    rw [hmode]
    exact run_serverLift hparse
  have hpre : (gdbPreParsePacket cellName (.packet msg)).run s = .ok (.ok, s') := by
    rw [gdbPreParsePacket, run_bind_of_ok (run_get s)]
    dsimp only
    rw [Server.send, run_bind_of_ok (run_modify _ s), run_bind_of_ok hlift, hhandled]
  rw [gdbMainLoopPass, run_bind_of_ok hpre]
  rfl

/-- The step of the server that reads a packet -/
theorem gdbServe_packet
    (h : Ready l c) {msg : List Char} (hplain : Plain msg) (hlen : msg.length ≤ maxBuf)
    {s' : Server δ} (hpass : (gdbMainLoopPass cellName (.packet msg)).run l.server = .ok ((), s'))
    {new : List Sent} {output : List (List Byte)} (hsent : s'.sent = new ++ l.server.sent)
    (hbytes : new.reverse.mapM Sent.bytes = .ok output) :
  gdbServe cellName l (Framing.frame (msg.map charByte))
    { server := s', input := [], blockOn := true, blocking := true } [] output.flatten
  := by
  have hafter : linkAfter cellName l.server.mode.event
      (l.after ((Framing.frame (msg.map charByte)).map .byte))
      = some { server := s', input := [], blockOn := true, blocking := true } := by
    have hmode := h.mode
    rw [hmode]
    apply linkAfter_eq (x := do
      let request ← gdbReadRequest true
      Connection.lift (gdbMainLoopPass cellName request))
    · change linkNext cellName l.server.mode .request = _
      rw [hmode]
      rfl
    · rw [run_bind_of_ok (run_gdbReadRequest_packet h hplain hlen)]
      exact run_connectionLift (l := { l with input := [], blockOn := true, blocking := true }) hpass
  exact linkServe_eq hafter hsent hbytes

/-- The bytes of a reply that fits -/
theorem bytes_reply
    {text : List Char} (hlen : text.length ≤ 395) :
  (Sent.reply text).bytes = .ok (Framing.frame (text.map charByte))
  := by
  apply gdbReplyBytes_of_le
  rw [List.length_map]
  exact hlen

/-- A packet with a reply: the acknowledgement and the reply -/
theorem answers_reply
    (h : Ready l c) {msg text : List Char} (hplain : Plain msg) (hlen : msg.length ≤ maxBuf)
    (hparse : (gdbParsePacket cellName false msg).run c = .ok (.reply text, c'))
    (htext : text.length ≤ 395) :
  ∃ l', Answers (gdbServe cellName) 1 l (Framing.frame (msg.map charByte))
      (charByte '+' :: Framing.frame (text.map charByte)) l' ∧ Ready l' c'
  := by
  have hcore := h.core
  subst hcore
  let s' : Server δ := { l.server with core := c', sent := .reply text :: .ack :: l.server.sent }
  have hpass : (gdbMainLoopPass cellName (.packet msg)).run l.server = .ok ((), s') :=
    run_gdbMainLoopPass_packet h.mode hparse rfl
  have hbytes : [Sent.reply text, Sent.ack].reverse.mapM Sent.bytes
      = .ok [[charByte '+'], Framing.frame (text.map charByte)] := by
    change [Sent.ack, Sent.reply text].mapM Sent.bytes = _
    rw [List.mapM_cons, List.mapM_cons, bytes_reply htext]
    rfl
  have hsent : s'.sent = [.reply text, .ack] ++ l.server.sent := rfl
  have hserve := gdbServe_packet h hplain hlen hpass hsent hbytes
  have hready : Ready { server := s', input := [], blockOn := true, blocking := true } c' :=
    ⟨rfl, h.mode, rfl⟩
  have hanswers := answers_step hserve (.done hready.waits) (List.cons_ne_nil _ _)
  simp only [List.flatten_cons, List.flatten_nil, List.append_nil] at hanswers
  exact ⟨_, hanswers, hready⟩

/-! ### Steps of the core -/

/-- The text of the reply of `gdb_continue` -/
def stopText (signo : Byte) (c : AvrCore δ) : List Char :=
  'T' :: (hexByte signo ++ ("20:".toList ++ (hexByte c.sreg ++ (";21:".toList ++ (hexByte c.sp.spl ++
    (hexByte c.sp.sph ++ (";22:".toList ++ (hexLong (.ofInt 32 (c.pc * 2)) ++ ";".toList))))))))

omit [IoDevices δ] in
theorem plain_stopText
    (signo : Byte) (c : AvrCore δ) :
  Plain (stopText signo c)
  := by
  have hlong (val : BitVec 32) : Plain (hexLong val) :=
    plain_append (plain_append (plain_append (plain_hexByte _) (plain_hexByte _)) (plain_hexByte _))
      (plain_hexByte _)
  have hplain : ∀ s ∈ ["20:".toList, ";21:".toList, ";22:".toList, ";".toList], Plain s := by
    decide
  simp only [List.forall_mem_cons] at hplain
  obtain ⟨h20, h21, h22, hend, -⟩ := hplain
  apply plain_cons (by decide)
  apply plain_append (plain_hexByte _)
  apply plain_append h20
  apply plain_append (plain_hexByte _)
  apply plain_append h21
  apply plain_append (plain_hexByte _)
  apply plain_append (plain_hexByte _)
  apply plain_append h22
  exact plain_append (hlong _) hend

omit [IoDevices δ] in
theorem length_stopText
    (signo : Byte) (c : AvrCore δ) :
  (stopText signo c).length = 29
  := rfl

theorem run_gdbStopReply_text
    (h : HasGdbSp c) (signo : Byte) :
  (gdbStopReply signo).run c = .ok (stopText signo c, c)
  := by
  rw [gdbStopReply, run_bind_of_ok (run_avrCorePCGet c), run_bind_of_ok (run_avrCoreSregGet c),
    run_bind_of_ok (run_memRead_spl h), run_bind_of_ok (run_memRead_sph h)]
  simp only [List.append_assoc]
  apply run_gdbSendReply
  change 29 < maxBuf - 4
  decide

/-- The end of `gdb_continue` -/
theorem run_gdbContinueEnd
    {s : Server δ} (h : HasGdbSp s.core) (signo : Byte) :
  (gdbContinueEnd signo).run s = .ok ((), { s with
    mode := .waiting, sent := .reply (stopText signo s.core) :: s.sent })
  := by
  rw [gdbContinueEnd, run_bind_of_ok (run_serverLift (run_gdbStopReply_text h signo))]
  rfl

/-- `gdb_continue` steps the core. -/
theorem gdbServe_step
    {step : Char} (hmode : l.server.mode = .stepping step) {ret : OpRet} (hret : ret ≠ .breakPoint)
    (hstep : avrCoreStep.run l.server.core = .ok (ret, c')) :
  gdbServe cellName l []
    { l with server := { l.server with core := c', mode := .polling step }, input := [] } [] []
  := by
  have hcont : (gdbContinueStep step).run l.server
      = .ok ((), { l.server with core := c', mode := .polling step }) := by
    rw [gdbContinueStep, run_bind_of_ok (run_serverLift hstep), if_neg hret]
    rfl
  have hafter : linkAfter cellName l.server.mode.event (l.after (([] : List Byte).map .byte))
      = some { l with server := { l.server with core := c', mode := .polling step }, input := [] } := by
    rw [hmode]
    apply linkAfter_eq (x := Connection.lift (gdbContinueStep step))
    · change linkNext cellName l.server.mode .step = _
      rw [hmode]
      rfl
    · exact run_connectionLift (l := l.after []) hcont
  exact linkServe_eq hafter (List.nil_append _).symm rfl

variable (cellName) in
/-- `gdb_continue` finds a breakpoint. -/
theorem gdbServe_break
    {step : Char} (hmode : l.server.mode = .stepping step) {c₁ : AvrCore δ}
    (hstep : avrCoreStep.run l.server.core = .ok (.breakPoint, c₁))
    (hdisable : avrCoreDisableBreakpoints.run c₁ = .ok ((), c')) (h : HasGdbSp c') :
  gdbServe cellName l [] { l with
    server := ⟨c', .waiting, .reply (stopText sigtrap c') :: l.server.sent⟩, input := [] }
    [] (Framing.frame ((stopText sigtrap c').map charByte))
  := by
  have hcont : (gdbContinueStep step).run l.server
      = .ok ((), ⟨c', .waiting, .reply (stopText sigtrap c') :: l.server.sent⟩) := by
    rw [gdbContinueStep, run_bind_of_ok (run_serverLift hstep), if_pos rfl,
      run_bind_of_ok (run_serverLift hdisable)]
    exact run_gdbContinueEnd (s := { l.server with core := c' }) h sigtrap
  have hafter : linkAfter cellName l.server.mode.event (l.after (([] : List Byte).map .byte))
      = some { l with
        server := ⟨c', .waiting, .reply (stopText sigtrap c') :: l.server.sent⟩, input := [] } := by
    rw [hmode]
    apply linkAfter_eq (x := Connection.lift (gdbContinueStep step))
    · change linkNext cellName l.server.mode .step = _
      rw [hmode]
      rfl
    · exact run_connectionLift (l := l.after []) hcont
  have hbytes : [Sent.reply (stopText sigtrap c')].reverse.mapM Sent.bytes
      = .ok [Framing.frame ((stopText sigtrap c').map charByte)] := by
    have hlen : (stopText sigtrap c').length ≤ 395 := by
      rw [length_stopText]
      decide
    rw [List.reverse_singleton, List.mapM_cons, bytes_reply hlen]
    rfl
  have hserve := linkServe_eq hafter (List.singleton_append).symm hbytes
  rw [List.flatten_singleton] at hserve
  exact hserve

/-- `gdb_continue` looks for a request, of which there is none. -/
theorem gdbServe_poll
    {step : Char} (hmode : l.server.mode = .polling step) (hflag : l.blockOn = l.blocking)
    {s' : Server δ} (hpoll : (gdbContinuePoll cellName step .empty).run l.server = .ok ((), s'))
    {new : List Sent} {output : List (List Byte)} (hsent : s'.sent = new ++ l.server.sent)
    (hbytes : new.reverse.mapM Sent.bytes = .ok output) :
  gdbServe cellName l [] { server := s', input := [], blockOn := false, blocking := false } []
    output.flatten
  := by
  have hflag' : (l.after []).blockOn = (l.after []).blocking := hflag
  have hread : (gdbReadRequest false).run (l.after [])
      = .ok (.empty, { l with input := [], blockOn := false, blocking := false }) := by
    have hnothing : Descriptor.read ((l.after []).enter false).blocking ((l.after []).enter false).input
        = some (.noData, []) := by
      rw [Connection.enter, entered_of_flag hflag']
      rfl
    rw [gdbReadRequest, run_bind_of_ok (run_gdbEnter false _), gdbReadByte, gdbReadByteFrom,
      run_bind_eq_ok]
    refine ⟨-1, { l with input := [], blockOn := false, blocking := false }, ?_, rfl⟩
    rw [run_bind_of_ok (run_get _), hnothing, Connection.enter, entered_of_flag hflag']
    rfl
  have hafter : linkAfter cellName l.server.mode.event (l.after (([] : List Byte).map .byte))
      = some { server := s', input := [], blockOn := false, blocking := false } := by
    rw [hmode]
    apply linkAfter_eq (x := do
      let request ← gdbReadRequest false
      Connection.lift (gdbContinuePoll cellName step request))
    · change linkNext cellName l.server.mode .request = _
      rw [hmode]
      rfl
    · rw [List.map_nil, run_bind_of_ok hread]
      exact run_connectionLift (l := { l with input := [], blockOn := false, blocking := false }) hpoll
  exact linkServe_eq hafter hsent hbytes

/-- `gdb_continue` sends its reply after a single step. -/
theorem run_gdbContinuePoll_once
    {s : Server δ} (h : HasGdbSp s.core) :
  (gdbContinuePoll cellName 's' .empty).run s = .ok ((),
    { s with mode := .waiting, sent := .reply (stopText sigtrap s.core) :: s.sent })
  := by
  have hpre : (gdbPreParsePacket cellName .empty).run s = .ok (.ok, s) := rfl
  rw [gdbContinuePoll, run_bind_of_ok hpre]
  exact run_gdbContinueEnd h sigtrap

/-- `gdb_continue` goes on. -/
theorem run_gdbContinuePoll_go
    (s : Server δ) :
  (gdbContinuePoll cellName 'c' .empty).run s = .ok ((), { s with mode := .stepping 'c' })
  := by
  have hpre : (gdbPreParsePacket cellName .empty).run s = .ok (.ok, s) := rfl
  rw [gdbContinuePoll, run_bind_of_ok hpre]
  rfl

/-- The core takes steps, none of which meets a breakpoint. -/
inductive StepsFor : Nat → AvrCore δ → AvrCore δ → Prop
  | zero (c : AvrCore δ) : StepsFor 0 c c
  | succ {n : Nat} {c c₁ c' : AvrCore δ} {ret : OpRet} (hstep : avrCoreStep.run c = .ok (ret, c₁))
      (hret : ret ≠ .breakPoint) (h : StepsFor n c₁ c') : StepsFor (n + 1) c c'

omit [IoDevices δ] in
/-- The bytes of the reply of `gdb_continue` -/
theorem mapM_stopText
    (c : AvrCore δ) :
  [Sent.reply (stopText sigtrap c)].reverse.mapM Sent.bytes
    = .ok [Framing.frame ((stopText sigtrap c).map charByte)]
  := by
  have hlen : (stopText sigtrap c).length ≤ 395 := by
    rw [length_stopText]
    decide
  rw [List.reverse_singleton, List.mapM_cons, bytes_reply hlen]
  rfl

variable (cellName) in
/-- What is left of a single step of the core -/
theorem answers_stepping_once
    (hmode : l.server.mode = .stepping 's') (hflag : l.blockOn = l.blocking) {ret : OpRet}
    (hstep : avrCoreStep.run l.server.core = .ok (ret, c')) (hret : ret ≠ .breakPoint)
    (h : HasGdbSp c') :
  ∃ l', Answers (gdbServe cellName) 2 l [] (Framing.frame ((stopText sigtrap c').map charByte)) l'
    ∧ Ready l' c'
  := by
  let l₁ : Connection δ :=
    { l with server := { l.server with core := c', mode := .polling 's' }, input := [] }
  let s' : Server δ := ⟨c', .waiting, .reply (stopText sigtrap c') :: l.server.sent⟩
  have hpoll : (gdbContinuePoll cellName 's' .empty).run l₁.server = .ok ((), s') :=
    run_gdbContinuePoll_once (s := l₁.server) h
  have hserve := gdbServe_poll (l := l₁) rfl hflag hpoll
    (List.singleton_append (l := l₁.server.sent)).symm (mapM_stopText c')
  have hready : Ready { server := s', input := [], blockOn := false, blocking := false } c' :=
    ⟨rfl, rfl, rfl⟩
  have hlast := answers_step hserve (.done hready.waits) (List.cons_ne_nil _ _)
  rw [List.flatten_singleton, List.append_nil] at hlast
  exact ⟨_, answers_step (gdbServe_step hmode hret hstep) hlast (List.cons_ne_nil _ _), hready⟩

variable (cellName) in
/-- What is left of the steps of the core up to a breakpoint -/
theorem answers_stepping
    {n : Nat} {c₁ : AvrCore δ} (hcore : l.server.core = c) (hmode : l.server.mode = .stepping 'c')
    (hflag : l.blockOn = l.blocking) (hsteps : StepsFor n c c₁) {c₂ : AvrCore δ}
    (hbreak : avrCoreStep.run c₁ = .ok (.breakPoint, c₂))
    (hdisable : avrCoreDisableBreakpoints.run c₂ = .ok ((), c')) (h : HasGdbSp c') :
  ∃ l', Answers (gdbServe cellName) (2 * n + 1) l []
      (Framing.frame ((stopText sigtrap c').map charByte)) l' ∧ Ready l' c'
  := by
  induction hsteps generalizing l with
  | zero c =>
    subst hcore
    have hserve := gdbServe_break cellName hmode hbreak hdisable h
    have hready : Ready { l with
        server := ⟨c', .waiting, .reply (stopText sigtrap c') :: l.server.sent⟩, input := [] } c' :=
      ⟨rfl, rfl, hflag⟩
    have hlast := answers_step hserve (.done hready.waits) (List.cons_ne_nil _ _)
    rw [List.append_nil] at hlast
    exact ⟨_, hlast, hready⟩
  | @succ n c c₃ c₁ ret hstep hret _ ih =>
    subst hcore
    let l₁ : Connection δ :=
      { l with server := { l.server with core := c₃, mode := .polling 'c' }, input := [] }
    let s' : Server δ := { l.server with core := c₃, mode := .stepping 'c' }
    have hpoll : (gdbContinuePoll cellName 'c' .empty).run l₁.server = .ok ((), s') :=
      run_gdbContinuePoll_go l₁.server
    have hserve := gdbServe_poll (l := l₁) rfl hflag hpoll (List.nil_append l₁.server.sent).symm rfl
    obtain ⟨l', hanswers, hready⟩ := ih
      (l := { server := s', input := [], blockOn := false, blocking := false }) rfl rfl rfl hbreak
    have hlast := answers_step hserve hanswers (List.cons_ne_nil _ _)
    exact ⟨l', answers_step (gdbServe_step hmode hret hstep) hlast (List.cons_ne_nil _ _), hready⟩

/-- The packet `s`: the acknowledgement, and the reply after a step of the core -/
theorem answers_step_packet
    (h : Ready l c) {ret : OpRet} (hstep : avrCoreStep.run c = .ok (ret, c')) (hret : ret ≠ .breakPoint)
    (hsp : HasGdbSp c') :
  ∃ l', Answers (gdbServe cellName) 3 l (Framing.frame ("s".toList.map charByte))
      (charByte '+' :: Framing.frame ((stopText sigtrap c').map charByte)) l' ∧ Ready l' c'
  := by
  have hcore := h.core
  subst hcore
  have hplain : Plain "s".toList := by
    decide
  have hpass : (gdbMainLoopPass cellName (.packet "s".toList)).run l.server
      = .ok ((), { l.server with mode := .stepping 's', sent := .ack :: l.server.sent }) :=
    run_gdbMainLoopPass_packet h.mode rfl rfl
  have hserve := gdbServe_packet h hplain (by decide) hpass (List.singleton_append).symm rfl
  obtain ⟨l', hanswers, hready⟩ := answers_stepping_once cellName
    (l := { server := { l.server with mode := .stepping 's', sent := .ack :: l.server.sent },
            input := [], blockOn := true, blocking := true }) rfl rfl hstep hret hsp
  exact ⟨l', answers_step hserve hanswers (List.cons_ne_nil _ _), hready⟩

/-- The packet `c`: the acknowledgement, and the reply when the core has come to a breakpoint -/
theorem answers_continue_packet
    {n : Nat} {c₁ c₂ : AvrCore δ} (h : Ready l c) (hsteps : StepsFor n c c₁)
    (hbreak : avrCoreStep.run c₁ = .ok (.breakPoint, c₂))
    (hdisable : avrCoreDisableBreakpoints.run c₂ = .ok ((), c')) (hsp : HasGdbSp c') :
  ∃ l', Answers (gdbServe cellName) (2 * n + 2) l (Framing.frame ("c".toList.map charByte))
      (charByte '+' :: Framing.frame ((stopText sigtrap c').map charByte)) l' ∧ Ready l' c'
  := by
  have hcore := h.core
  subst hcore
  have hplain : Plain "c".toList := by
    decide
  have hpass : (gdbMainLoopPass cellName (.packet "c".toList)).run l.server
      = .ok ((), { l.server with mode := .stepping 'c', sent := .ack :: l.server.sent }) :=
    run_gdbMainLoopPass_packet h.mode rfl rfl
  have hserve := gdbServe_packet h hplain (by decide) hpass (List.singleton_append).symm rfl
  obtain ⟨l', hanswers, hready⟩ := answers_stepping cellName
    (l := { server := { l.server with mode := .stepping 'c', sent := .ack :: l.server.sent },
            input := [], blockOn := true, blocking := true }) rfl rfl rfl hsteps hbreak hdisable hsp
  exact ⟨l', answers_step hserve hanswers (List.cons_ne_nil _ _), hready⟩

end

end SimulAvr
