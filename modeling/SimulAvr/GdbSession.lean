import SimulAvr.GdbRegisters
import SimulAvr.Lib.Runs

/-!
# The debugger session

The packets of gdb and the loops that serve them: `gdb_parse_packet` selects the handler of a
packet, `gdb_main_loop` waits for requests, and `gdb_continue` steps the core and looks for a
request after every step.  A session is a transition system: the steps of the core, the
requests, the signal that interrupts the loop, and the next connection.
-/

namespace SimulAvr

open Program

/-- What a packet leads to, after its handler. -/
inductive Handled where
  /-- A reply, and `GDB_RET_OK`. -/
  | reply (text : List Char)
  /-- A reply, and `GDB_RET_KILL_REQUEST`. -/
  | kill (text : List Char)
  /-- The loop of `gdb_continue`, called from the packet `step`. -/
  | resume (step : Char)
  /-- `gdb_continue` is running, and returns at once. -/
  | ignored

/-! ### The handlers -/

section

variable {δ : Type}

/-- `gdb_break_point`, for the character `z` of the packet -/
def gdbBreakPoint (z : Char) (pkt : List Char) : CoreM δ (List Char) := do
  let t := pkt.headD nul
  let (addr, _, _) ← liftExcept (gdbGetAddrLen (pkt.drop 2) ',' nul)
  if t = '0' then
    -- addr/2 since addr refers to PC
    let maxPc ← gets AvrCore.pcMax
    if addr.tdiv 2 ≥ maxPc then
      gdbSendReply "E01".toList
    else do
      if z = 'z' then avrCoreRemoveBreakpoint (addr.tdiv 2)
      else avrCoreInsertBreakpoint (addr.tdiv 2)
      gdbSendReply "OK".toList
  else if t ∈ ['1', '2', '3', '4'] then
    gdbSendReply []
  else
    gdbSendReply "OK".toList

/-- The start of `gdb_continue`, called from the packet `step`. -/
def gdbContinue (isRunning : Bool) (step : Char) (pkt : List Char) : CoreM δ Handled := do
  if isRunning then
    return .ignored
  avrErrorIf (pkt.headD nul ≠ nul) "attempt to resume at other than current" []
  return .resume step

/-- The digits of `%x`. -/
def hexNum (val : Byte) : List Char :=
  if val < 0x10 then [hexDigit val] else hexByte val

variable [IoDevices δ]

/-- `mem_io_fetch`, for the names of the cells: the name and the value of a register -/
def memIoFetch (cellName : Int → Option (List Char)) (addr : Int) : CoreM δ (List Char × Byte) := do
  let mem ← gets AvrCore.mem
  if memIsIoReg mem addr then
    let cell ← memGetCell addr
    match cellName addr with
    | none => return ("Reserved".toList, 0)
    | some name =>
      match cell.vdev with
      | some vdev =>
        let val ← vdevRead vdev addr
        return (name, val &&& cell.rdMask)
      | none => return (name, 0)
  else
    return ("NOT AN IO REG".toList, 0)

/-- `gdb_fetch_io_registers` -/
def gdbFetchIoRegisters (cellName : Int → Option (List Char)) (pkt : List Char) :
    CoreM δ (List Char) := do
  if pkt.headD nul = nul then
    -- gdb is asking how many io registers the device has.
    gdbSendReply "40".toList
  else if pkt.headD nul = ':' then
    let (addr, len, _) ← liftExcept (gdbGetAddrLen pkt.tail ',' nul)
    let reply ← loop (fun i reply => do
      let (name, val) ← memIoFetch cellName (i + ioRegAddrBegin)
      return reply ++ name ++ [','] ++ hexNum val ++ [';']) addr len.toNat []
    gdbSendReply reply
  else
    gdbSendReply "E01".toList

/-- `gdb_query_request` -/
def gdbQueryRequest (cellName : Int → Option (List Char)) (pkt : List Char) :
    CoreM δ (List Char) :=
  if pkt.headD nul = 'R' ∧ "avr.io_reg".toList.isPrefixOf pkt.tail then
    gdbFetchIoRegisters cellName (pkt.drop 11)
  else
    gdbSendReply []

/-- `gdb_continue_with_signal`, called from the packet `step` -/
def gdbContinueWithSignal (isRunning : Bool) (step : Char) (pkt : List Char) :
    CoreM δ Handled := do
  let (signo, rest) ← liftExcept (gdbGetByte pkt)
  -- SIGHUP
  if signo = 1 then
    update AvrCore.reset
    return .reply (← gdbSendReply "S05".toList)
  update (fun c => if signo ≥ 94 then c.irqRaise (signo.toNat - 94) else c)
  if rest.headD nul = nul then
    gdbContinue isRunning step []
  else if rest.headD nul = ';' then
    -- the character before `*pkt`, which is the second digit of the signal, and `*pkt = step`
    gdbContinue isRunning (pkt.tail.headD nul) (step :: rest.tail)
  else
    return .reply (← gdbSendReply [])

/-- `gdb_parse_packet`, where `gdb_continue` is running or not -/
def gdbParsePacket (cellName : Int → Option (List Char)) (isRunning : Bool) (pkt : List Char) :
    CoreM δ Handled := do
  let rest := pkt.tail
  match pkt.headD nul with
  | '?' => return .reply (← gdbSendReply "S05".toList)
  | 'g' => return .reply (← gdbReadRegisters)
  | 'G' => return .reply (← gdbWriteRegisters rest)
  | 'p' => return .reply (← gdbReadRegister rest)
  | 'P' => return .reply (← gdbWriteRegister rest)
  | 'm' => return .reply (← gdbReadMemory rest)
  | 'M' => return .reply (← gdbWriteMemory rest)
  | 'k' | 'D' =>
    update AvrCore.reset
    return .kill (← gdbSendReply "OK".toList)
  | 'C' => gdbContinueWithSignal isRunning 'C' rest
  | 'S' => gdbContinueWithSignal isRunning 'S' rest
  | 'c' => gdbContinue isRunning 'c' rest
  | 's' => gdbContinue isRunning 's' rest
  | 'z' => return .reply (← gdbBreakPoint 'z' rest)
  | 'Z' => return .reply (← gdbBreakPoint 'Z' rest)
  | 'q' => return .reply (← gdbQueryRequest cellName rest)
  | _ => return .reply (← gdbSendReply [])

/-- The reply of `gdb_continue` for the signal `signo`: SREG, SP and PC. -/
def gdbStopReply (signo : Byte) : CoreM δ (List Char) := do
  let pc ← avrCorePCGet
  let sreg ← avrCoreSregGet
  let spl ← memRead splAddrGdb
  let sph ← memRead sphAddrGdb
  gdbSendReply ("T".toList ++ hexByte signo ++ "20:".toList ++ hexByte sreg ++ ";21:".toList ++
    hexByte spl ++ hexByte sph ++ ";22:".toList ++ hexLong (.ofInt 32 (pc * 2)) ++ ";".toList)

end

/-! ### The session -/

/-- `SIGINT` -/
abbrev sigint : Byte := 2

/-- `SIGTRAP` -/
abbrev sigtrap : Byte := 5

/-- A request of gdb, as the first byte of `gdb_pre_parse_packet` tells it. -/
inductive Request where
  /-- A packet with the right checksum. -/
  | packet (pkt : List Char)
  | nak
  | ack
  | ctrlC
  /-- There is no data to read. -/
  | empty
  | unknown

/-- The return values of `gdb_pre_parse_packet`. -/
inductive GdbRet where
  | ctrlC
  | killRequest
  | ok
deriving DecidableEq

/-- What the server writes to gdb. -/
inductive Sent where
  | ack
  | reply (text : List Char)

/-- Where the server is. -/
inductive Mode where
  /-- `gdb_main_loop` waits for a request. -/
  | waiting
  /-- `gdb_continue`, called from the packet `step`, is about to step the core. -/
  | stepping (step : Char)
  /-- `gdb_continue` is about to look for a request. -/
  | polling (step : Char)
  /-- `gdb_main_loop` has returned. -/
  | closed
deriving DecidableEq

/-- `gdb_continue` is running. -/
def Mode.isRunning : Mode → Bool
  | stepping _ => true
  | polling _ => true
  | _ => false

/-- The server, with all that it has sent, the last one first. -/
structure Server (δ : Type) where
  core : AvrCore δ
  mode : Mode
  sent : List Sent

/-- A program of the server. -/
abbrev ServerM (δ : Type) : Type → Type :=
  Program (Server δ) AvrError

namespace Server

variable {δ : Type}

/-- `gdb_last_reply (NULL)` -/
def lastReply (s : Server δ) : List Char :=
  (s.sent.findSome? fun
    | .reply text => some text
    | .ack => none).getD []

/-- Run a program of the core. -/
def lift {α : Type} (x : CoreM δ α) : ServerM δ α :=
  fun s => (x s.core).map fun r => (r.1, { s with core := r.2 })

/-- Write to gdb. -/
def send (message : Sent) : ServerM δ Unit :=
  modify fun s => { s with sent := message :: s.sent }

def setMode (mode : Mode) : ServerM δ Unit :=
  modify fun s => { s with mode := mode }

end Server

open Server

section

variable {δ : Type}

/-- What follows the handler of a packet. -/
def gdbHandled : Handled → ServerM δ GdbRet
  | .reply text => do
    send (.reply text)
    return .ok
  | .kill text => do
    send (.reply text)
    return .killRequest
  | .resume step => do
    setMode (.stepping step)
    return .ok
  | .ignored => return .ok

variable [IoDevices δ]

/-- `gdb_pre_parse_packet` -/
def gdbPreParsePacket (cellName : Int → Option (List Char)) (request : Request) :
    ServerM δ GdbRet := do
  let s ← get
  match request with
  | .packet pkt =>
    send .ack
    let handled ← lift (gdbParsePacket cellName s.mode.isRunning pkt)
    gdbHandled handled
  | .nak =>
    send (.reply s.lastReply)
    return .ok
  | .ctrlC => return .ctrlC
  | .ack => return .ok
  | .empty => return .ok
  | .unknown => return .ok

/-- The pass of the loop of `gdb_main_loop` for a request. -/
def gdbMainLoopPass (cellName : Int → Option (List Char)) (request : Request) :
    ServerM δ Unit := do
  let res ← gdbPreParsePacket cellName request
  match res with
  | .killRequest => setMode .closed
  | .ctrlC =>
    send .ack
    send (.reply "S02".toList)
  | .ok => return ()

/-- The end of `gdb_continue`. -/
def gdbContinueEnd (signo : Byte) : ServerM δ Unit := do
  let reply ← lift (gdbStopReply signo)
  send (.reply reply)
  setMode .waiting

/-- The loop of `gdb_continue` up to the look for a request. -/
def gdbContinueStep (step : Char) : ServerM δ Unit := do
  let res ← lift avrCoreStep
  if res = .breakPoint then
    lift avrCoreDisableBreakpoints
    gdbContinueEnd sigtrap
  else
    setMode (.polling step)

/-- The loop of `gdb_continue` from the look for a request on. -/
def gdbContinuePoll (cellName : Int → Option (List Char)) (step : Char) (request : Request) :
    ServerM δ Unit := do
  let res ← gdbPreParsePacket cellName request
  match res with
  | .ctrlC => gdbContinueEnd sigint
  | .killRequest => gdbContinueEnd sigtrap
  | .ok =>
    if step = 's' ∨ step = 'S' then
      gdbContinueEnd sigtrap
    else
      setMode (.stepping step)

/-- The events of a session. -/
inductive ServerEvent where
  /-- `gdb_continue` steps the core. -/
  | step
  | request (request : Request)
  /-- The signal SIGINT has occurred. -/
  | sigint
  /-- The next connection. -/
  | accept

/-- What the server does at an event, where it is ready for it. -/
def serverNext (cellName : Int → Option (List Char)) : Mode → ServerEvent → Option (ServerM δ Unit)
  | .waiting, .request request => some (gdbMainLoopPass cellName request)
  | .stepping step, .step => some (gdbContinueStep step)
  | .polling step, .request request => some (gdbContinuePoll cellName step request)
  | .stepping _, .sigint => some (gdbContinueEnd sigtrap)
  -- `gdb_interact` resets the core when `gdb_main_loop` returns
  | .closed, .accept => some (do
    lift (update AvrCore.reset)
    setMode .waiting)
  | _, _ => none

/-- The steps of a session. -/
def ServerStep (cellName : Int → Option (List Char)) (e : ServerEvent) (s s' : Server δ) : Prop :=
  ∃ x, serverNext cellName s.mode e = some x ∧ x.run s = .ok ((), s')

/-- The server after an event. -/
def serverAfter (cellName : Int → Option (List Char)) (e : ServerEvent) (s : Server δ) :
    Option (Server δ) :=
  (serverNext cellName s.mode e).bind fun x => (x.run s).toOption.map Prod.snd

theorem serverStep_of_after
    {cellName : Int → Option (List Char)} {e : ServerEvent} {s s' : Server δ}
    (h : serverAfter cellName e s = some s') :
  ServerStep cellName e s s'
  := by
  obtain ⟨x, hnext, hx⟩ := Option.bind_eq_some_iff.mp h
  use x, hnext
  cases hrun : x.run s with
  | error e =>
    rw [hrun] at hx
    contradiction
  | ok r =>
    rw [hrun] at hx
    cases hx
    rfl

/-- The runs of a session whose events meet a condition. -/
abbrev ServerRun (cellName : Int → Option (List Char)) (ok : Server δ → ServerEvent → Prop) :
    Server δ → Server δ → Prop :=
  Transition.Run (ServerStep cellName) ok

end

end SimulAvr
