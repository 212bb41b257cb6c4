import SimulAvr.Display
import SimulAvr.GdbLink

/-!
# The pipe to the display

The bytes of the pipe between the simulator and the display coprocess.  `display_send_msg`
writes a message as a frame `$…#cc` and the NUL that ends the string, and the coprocess looks
for the mark `$` of a frame in non-blocking mode and reads the rest of it in blocking mode.  The
coprocess takes the messages out of the pipe as they were written, up to one that ends it
(`display_pipe_round_trip`).
-/

namespace SimulAvr

open Program Descriptor

/-! ### Writing messages -/

/-- The bytes that `display_send_msg` writes: the frame, and the NUL after it. -/
def displaySendMsg (msg : List Byte) : List Byte :=
  Framing.frame msg ++ [0]

/-! ### Reading messages -/

/-- `MAX_BUF` of the coprocess -/
abbrev dispMaxBuf : Nat := 1024

/-- The ends of a run of the coprocess other than a return. -/
inductive PipeEnd where
  /-- `exit (1)` -/
  | exit
  /-- `disp_parse_packet` ends the coprocess at a packet. -/
  | parse (pkt : List Byte) (e : DispEnd)
  /-- A read in blocking mode waits for data. -/
  | waiting

/-- The coprocess with its pipe. -/
structure Coprocess where
  display : Display
  /-- What the reads of the pipe find. -/
  input : List (Arrival Byte)
  /-- The descriptor is in blocking mode. -/
  blocking : Bool
  /-- The packets that `disp_parse_packet` has processed, oldest first. -/
  parsed : List (List Byte)

/-- A program of the coprocess. -/
abbrev DispM : Type → Type :=
  Program Coprocess PipeEnd

/-- The loop of `disp_read_byte`, with `cnt` tries left. -/
def dispReadByteFrom : Nat → DispM Byte
  | 0 => throw .exit
  | cnt + 1 => do
    let p ← get
    match Descriptor.read p.blocking p.input with
    | none => throw .waiting
    | some (arrival, input) => do
      modify fun p => { p with input := input }
      match arrival with
      | .byte c => return c
      -- `read` fails with EAGAIN
      | .noData => throw .exit
      | .failed => throw .exit
      | .endOfFile => dispReadByteFrom cnt

/-- `disp_read_byte`, with `MAX_READ_RETRY` tries -/
def dispReadByte : DispM Byte :=
  dispReadByteFrom 10

/-- Turn blocking mode on or off. -/
def dispSetBlocking (mode : Bool) : DispM Unit :=
  modify fun p => { p with blocking := mode }

/-- `hex2nib` of a byte of the pipe -/
def pipeHex2nib (c : Byte) : DispM Byte :=
  fun p => ((hex2nib (byteChar c)).mapError fun _ => .exit).map fun nib => (nib, p)

/-- The call of `disp_parse_packet`, and what it returns -/
def dispParse (pkt : List Byte) : DispM Bool :=
  fun p =>
    match dispParsePacket (pkt.map byteChar) p.display with
    | .ok d => .ok (false, { p with display := d, parsed := p.parsed ++ [pkt] })
    | .error .quit => .ok (true, { p with parsed := p.parsed ++ [pkt] })
    | .error e => .error (.parse pkt e)

/-- `disp_read_packet` -/
def dispReadPacket : DispM Bool := do
  dispSetBlocking true
  let (pkt, cksum) ← Framing.readFrame dispReadByte pipeHex2nib dispMaxBuf
  if (pkt.map BitVec.toNat).sum % 256 ≠ cksum.toNat then
    throw .exit
  let result ← dispParse pkt
  dispSetBlocking false
  return result

/-- The loop of `disp_check_update_pipe`, with `n` reads left. -/
def dispCheckUpdatePipeFrom : Nat → DispM Bool
  | 0 => throw .waiting
  | n + 1 => do
    let p ← get
    match Descriptor.read p.blocking p.input with
    | none => throw .waiting
    | some (arrival, input) => do
      modify fun p => { p with input := input }
      match arrival with
      | .byte c => if c = Framing.startMark then dispReadPacket else dispCheckUpdatePipeFrom n
      | .noData => return false
      | .failed => throw .exit
      | .endOfFile => return false

/-- `disp_check_update_pipe`, which reads no more than what the reads of the pipe find -/
def dispCheckUpdatePipe : DispM Bool := do
  let p ← get
  dispCheckUpdatePipeFrom (p.input.length + 1)

/-- Calls of `disp_check_update_pipe`, one after the other. -/
def dispCheckUpdatePipes : Nat → DispM Unit
  | 0 => return ()
  | n + 1 => do
    let _ ← dispCheckUpdatePipe
    dispCheckUpdatePipes n

/-! ### Runs of the reads -/

/-- The coprocess with other input. -/
def Coprocess.after (p : Coprocess) (input : List (Arrival Byte)) : Coprocess :=
  { p with input := input }

theorem run_dispReadByte
    {p : Coprocess} {c : Byte} {input : List (Arrival Byte)}
    (h : Descriptor.read p.blocking p.input = some (.byte c, input)) :
  dispReadByte.run p = .ok (c, p.after input)
  := by
  rw [dispReadByte, dispReadByteFrom, run_bind_of_ok (run_get p), h]
  rfl

/-- In blocking mode the bytes that arrive are read one after the other. -/
theorem disp_reads_of_brings
    {p : Coprocess} {bytes : List Byte} {rest : List (Arrival Byte)} (hmode : p.blocking = true)
    (h : Brings p.input bytes rest) :
  Framing.Reads dispReadByte p bytes (p.after rest)
  := by
  induction bytes generalizing p with
  | nil =>
    have hrest : p.after rest = p := by
      rw [← h.eq_of_nil]
      rfl
    rw [hrest]
    apply Framing.Reads.nil
  | cons c bytes ih =>
    obtain ⟨input, hread, hbrings⟩ := read_of_brings h
    rw [← hmode] at hread
    apply Framing.Reads.cons (run_dispReadByte hread)
    apply ih (p := p.after input) hmode hbrings

theorem pipeHex2nib_converts :
  Framing.Converts pipeHex2nib
  := by
  intro nib hnib p
  change ((hex2nib (byteChar (Framing.digit nib))).mapError _).map _ = _
  rw [hex2nib_digit nib hnib]
  rfl

/-- A message of 1 to 1023 bytes, of which none is `#` or NUL. -/
structure IsMessage (msg : List Byte) : Prop where
  length : 1 ≤ msg.length ∧ msg.length ≤ 1023
  noEnd : Framing.endMark ∉ msg
  noNul : 0 ∉ msg

/-- The rest of a frame is read, with its checksum accepted, and its message is parsed. -/
theorem run_dispReadPacket
    {p : Coprocess} {msg : List Byte} {rest : List (Arrival Byte)} (hmsg : IsMessage msg)
    (h : Brings p.input (Framing.body msg) rest) :
  dispReadPacket.run p = (do
    let result ← dispParse msg
    dispSetBlocking false
    return result).run { p with input := rest, blocking := true }
  := by
  have hreads : Framing.Reads dispReadByte { p with blocking := true } (Framing.body msg)
      { p with input := rest, blocking := true } := disp_reads_of_brings rfl h
  have hlen : msg.length ≤ dispMaxBuf := by
    apply le_trans hmsg.length.2
    decide
  have hsum : (msg.map BitVec.toNat).sum % 256 = (Framing.checksum msg).toNat := by
    rw [Framing.checksum, BitVec.toNat_ofNat]
  rw [dispReadPacket, dispSetBlocking, run_bind_of_ok (run_modify _ p)]
  rw [run_bind_of_ok (Framing.run_readFrame pipeHex2nib_converts hmsg.noEnd hlen hreads)]
  dsimp only
  rw [if_neg (not_not.mpr hsum)]

/-- A read of the loop that finds no data -/
theorem run_dispCheckUpdatePipeFrom_noData
    {p : Coprocess} (hmode : p.blocking = false) {input : List (Arrival Byte)}
    (h : p.input = .noData :: input) (n : Nat) :
  (dispCheckUpdatePipeFrom (n + 1)).run p = .ok (false, p.after input)
  := by
  rw [dispCheckUpdatePipeFrom, run_bind_of_ok (run_get p), hmode, h]
  rfl

/-- A read of the loop that finds a byte -/
theorem run_dispCheckUpdatePipeFrom_byte
    {p : Coprocess} (hmode : p.blocking = false) {b : Byte} {input : List (Arrival Byte)}
    (h : p.input = .byte b :: input) (n : Nat) :
  (dispCheckUpdatePipeFrom (n + 1)).run p =
    (if b = Framing.startMark then dispReadPacket else dispCheckUpdatePipeFrom n).run
      (p.after input)
  := by
  rw [dispCheckUpdatePipeFrom, run_bind_of_ok (run_get p), hmode, h]
  rfl

/-- The look for a frame, over bytes without the mark `$`: no data has arrived, or the rest of
the frame is read. -/
theorem run_dispCheckUpdatePipeFrom
    {p : Coprocess} (hmode : p.blocking = false) {stray bytes : List Byte}
    (hstray : Framing.startMark ∉ stray) {rest : List (Arrival Byte)}
    (h : Brings p.input (stray ++ Framing.startMark :: bytes) rest) {n : Nat}
    (hn : stray.length < n) :
  (∃ input stray', (dispCheckUpdatePipeFrom n).run p = .ok (false, p.after input) ∧
      input.length < p.input.length ∧ Framing.startMark ∉ stray' ∧
      Brings input (stray' ++ Framing.startMark :: bytes) rest) ∨
    ∃ input, (dispCheckUpdatePipeFrom n).run p = dispReadPacket.run (p.after input) ∧
      Brings input bytes rest
  := by
  obtain ⟨n, rfl⟩ := Nat.exists_eq_add_one_of_ne_zero (Nat.ne_zero_of_lt hn)
  induction stray generalizing p n with
  | nil =>
    generalize hinput : p.input = feed at h
    cases h with
    | @byte input _ _ _ h =>
      right
      use input
      rw [run_dispCheckUpdatePipeFrom_byte hmode hinput, if_pos rfl]
      exact ⟨rfl, h⟩
    | @wait input _ _ _ h =>
      left
      use input, []
      rw [run_dispCheckUpdatePipeFrom_noData hmode hinput]
      exact ⟨rfl, Nat.lt_succ_self _, hstray, h⟩
  | cons b stray ih =>
    obtain ⟨hne, hstray'⟩ := not_or.mp (List.mem_cons.not.mp hstray)
    generalize hinput : p.input = feed at h
    cases h with
    | @byte input _ _ _ h =>
      rw [List.length_cons] at hn
      obtain ⟨m, rfl⟩ := Nat.exists_eq_add_one_of_ne_zero (show n ≠ 0 by omega)
      rw [run_dispCheckUpdatePipeFrom_byte hmode hinput, if_neg (Ne.symm hne)]
      obtain ⟨input', stray', hrun, hlen, hmark, hbrings⟩ | hread :=
        ih (p := p.after input) hmode hstray' h m (by omega)
      · left
        use input', stray', hrun
        exact ⟨Nat.lt_succ_of_lt hlen, hmark, hbrings⟩
      · right
        apply hread
    | @wait input _ _ _ h =>
      left
      use input, b :: stray
      rw [run_dispCheckUpdatePipeFrom_noData hmode hinput]
      exact ⟨rfl, Nat.lt_succ_self _, hstray, h⟩

/-- Calls after calls -/
theorem run_dispCheckUpdatePipes_add
    {n : Nat} {p p' : Coprocess} (h : (dispCheckUpdatePipes n).run p = .ok ((), p')) (m : Nat) :
  (dispCheckUpdatePipes (n + m)).run p = (dispCheckUpdatePipes m).run p'
  := by
  induction n generalizing p with
  | zero =>
    cases h
    rw [Nat.zero_add]
  | succ n ih =>
    obtain ⟨result, p₁, hcall, hcalls⟩ := run_bind_eq_ok.mp h
    rw [Nat.succ_add, dispCheckUpdatePipes, run_bind_of_ok hcall]
    apply ih hcalls

/-- A frame behind bytes without the mark `$` is reached after some calls that return 0, and
the next call reads its rest. -/
theorem exists_calls
    {p : Coprocess} (hmode : p.blocking = false) {stray bytes : List Byte}
    (hstray : Framing.startMark ∉ stray) {rest : List (Arrival Byte)}
    (h : Brings p.input (stray ++ Framing.startMark :: bytes) rest) :
  ∃ n mid input, (dispCheckUpdatePipes n).run p = .ok ((), p.after mid) ∧
    dispCheckUpdatePipe.run (p.after mid) = dispReadPacket.run (p.after input) ∧
    Brings input bytes rest
  := by
  generalize hlen : p.input.length = len
  induction len using Nat.strongRecOn generalizing p stray with
  | ind len ih =>
    have hn : stray.length < p.input.length + 1 := by
      have hle := h.length_le
      rw [List.length_append] at hle
      omega
    obtain ⟨mid, stray', hrun, hlt, hstray', hbrings⟩ | ⟨input, hrun, hbrings⟩ :=
      run_dispCheckUpdatePipeFrom hmode hstray h hn
    · obtain ⟨n, mid', input, hcalls, hcall, hrest⟩ :=
        ih mid.length (by omega) (p := p.after mid) hmode hstray' hbrings rfl
      use n + 1, mid', input
      have hcheck : dispCheckUpdatePipe.run p = .ok (false, p.after mid) := hrun
      rw [dispCheckUpdatePipes, run_bind_of_ok hcheck]
      exact ⟨hcalls, hcall, hrest⟩
    · exact ⟨0, p.input, input, rfl, hrun, hbrings⟩

/-! ### The round trip -/

/-- The coprocess ends at the packet, by a call of `exit` or by an access behind a buffer. -/
def Coprocess.EndsAt (p : Coprocess) (pkt : List Byte) (e : DispEnd) : Prop :=
  dispParsePacket (pkt.map byteChar) p.display = .error e ∧ e ≠ .quit

/-- The call that reads a frame: its message is parsed, or ends the coprocess. -/
theorem run_dispReadPacket_cases
    {p : Coprocess} {msg : List Byte} {rest : List (Arrival Byte)} (hmsg : IsMessage msg)
    (h : Brings p.input (Framing.body msg) rest) :
  (∃ result d, dispReadPacket.run p = .ok (result, { p with
      display := d, input := rest, blocking := false, parsed := p.parsed ++ [msg] })) ∨
    ∃ e, p.EndsAt msg e ∧ dispReadPacket.run p = .error (.parse msg e)
  := by
  rw [run_dispReadPacket hmsg h]
  cases hparse : dispParsePacket (msg.map byteChar) p.display with
  | ok d =>
    left
    have hcall : (dispParse msg).run { p with input := rest, blocking := true } =
        .ok (false, { p with
          display := d, input := rest, blocking := true, parsed := p.parsed ++ [msg] }) := by
      simp only [StateT.run, dispParse, hparse]
    use false, d
    rw [run_bind_of_ok hcall]
    rfl
  | error e =>
    by_cases hquit : e = .quit
    · left
      have hcall : (dispParse msg).run { p with input := rest, blocking := true } =
          .ok (true, { p with input := rest, blocking := true, parsed := p.parsed ++ [msg] }) := by
        simp only [StateT.run, dispParse, hparse, hquit]
      use true, p.display
      rw [run_bind_of_ok hcall]
      rfl
    · right
      have hcall : (dispParse msg).run { p with input := rest, blocking := true } =
          .error (.parse msg e) := by
        cases e with
        | quit => contradiction
        | exit => simp only [StateT.run, dispParse, hparse]
        | overrun => simp only [StateT.run, dispParse, hparse]
      use e, ⟨hparse, hquit⟩
      rw [run_bind_of_error hcall]

/-- The messages are taken out of the pipe as they were written, up to one that ends the
coprocess. -/
theorem run_dispCheckUpdatePipes
    {p : Coprocess} (hmode : p.blocking = false) {msgs : List (List Byte)}
    (hmsgs : ∀ msg ∈ msgs, IsMessage msg) {stray : List Byte} (hstray : stray = [] ∨ stray = [0])
    {rest : List (Arrival Byte)}
    (h : Brings p.input (stray ++ msgs.flatMap displaySendMsg) rest) :
  ∃ n p', (dispCheckUpdatePipes n).run p = .ok ((), p') ∧
    ((p'.parsed = p.parsed ++ msgs ∧
        ∃ stray', (stray' = [] ∨ stray' = [0]) ∧ Brings p'.input stray' rest) ∨
      ∃ before msg after e, msgs = before ++ msg :: after ∧ p'.parsed = p.parsed ++ before ∧
        p'.EndsAt msg e ∧ dispCheckUpdatePipe.run p' = .error (.parse msg e))
  := by
  induction msgs generalizing p stray with
  | nil =>
    rw [List.flatMap_nil, List.append_nil] at h
    refine ⟨0, p, rfl, .inl ⟨?_, stray, hstray, h⟩⟩
    rw [List.append_nil]
  | cons msg msgs ih =>
    obtain ⟨hmsg, hmsgs⟩ := List.forall_mem_cons.mp hmsgs
    have hmark : Framing.startMark ∉ stray := by
      rcases hstray with rfl | rfl
      · nofun
      · decide
    have hbytes : stray ++ (msg :: msgs).flatMap displaySendMsg =
        stray ++ Framing.startMark :: (Framing.body msg ++ ([0] ++ msgs.flatMap displaySendMsg)) := by
      rw [List.flatMap_cons, displaySendMsg, Framing.frame, List.cons_append, List.cons_append,
        List.append_assoc]
    rw [hbytes] at h
    obtain ⟨n, mid, input, hcalls, hcall, hbrings⟩ := exists_calls hmode hmark h
    obtain ⟨input', hbody, hnext⟩ := hbrings.split
    obtain ⟨result, d, hread⟩ | ⟨e, hends, hread⟩ :=
      run_dispReadPacket_cases (p := p.after input) hmsg hbody
    · obtain ⟨m, p', hrun, hresult⟩ := ih (p := { p with
        display := d, input := input', blocking := false, parsed := p.parsed ++ [msg] })
        rfl hmsgs (.inr rfl) hnext
      use n + (m + 1), p'
      constructor
      · rw [run_dispCheckUpdatePipes_add hcalls, dispCheckUpdatePipes,
          run_bind_of_ok (hcall.trans hread)]
        apply hrun
      · obtain ⟨hparsed, hrest⟩ | ⟨before, m', after, e, hsplit, hparsed, hends⟩ := hresult
        · left
          rw [hparsed, List.append_assoc]
          exact ⟨rfl, hrest⟩
        · right
          use msg :: before, m', after, e
          rw [hsplit, hparsed, List.append_assoc]
          exact ⟨rfl, rfl, hends⟩
    · refine ⟨n, p.after mid, hcalls, .inr ⟨[], msg, msgs, e, rfl, ?_, hends, ?_⟩⟩
      · rw [List.append_nil]
        rfl
      · rw [hcall, hread]

/-- The messages that `display_send_msg` writes one after the other are taken out of the pipe
in order, whatever the pace at which their bytes arrive: after some calls of
`disp_check_update_pipe` all of them are parsed and no more than the NUL of the last one is
left before what follows them, or those before one at which the next call ends the
coprocess. -/
theorem display_pipe_round_trip
    {p : Coprocess} (hmode : p.blocking = false) {msgs : List (List Byte)}
    (hmsgs : ∀ msg ∈ msgs, IsMessage msg) {rest : List (Arrival Byte)}
    (h : Brings p.input (msgs.flatMap displaySendMsg) rest) :
  ∃ n p', (dispCheckUpdatePipes n).run p = .ok ((), p') ∧
    ((p'.parsed = p.parsed ++ msgs ∧
        ∃ stray', (stray' = [] ∨ stray' = [0]) ∧ Brings p'.input stray' rest) ∨
      ∃ before msg after e, msgs = before ++ msg :: after ∧ p'.parsed = p.parsed ++ before ∧
        p'.EndsAt msg e ∧ dispCheckUpdatePipe.run p' = .error (.parse msg e))
  := run_dispCheckUpdatePipes hmode hmsgs (.inl rfl) h

/-- A fresh coprocess over whose pipe the messages have arrived. -/
def Coprocess.fresh (msgs : List (List Byte)) : Coprocess where
  display := .fresh 128 0x60
  input := (msgs.flatMap displaySendMsg).map .byte
  blocking := false
  parsed := []

/-- The message that sets the program counter to 0 -/
def pcMessage : List Byte :=
  "p0".toList.map charByte

/-- The message that sets the register R5 -/
def registerMessage : List Byte :=
  "r5:ab".toList.map charByte

/-- A message with a character that is no digit -/
def noDigitMessage : List Byte :=
  "s0,1:zz".toList.map charByte

theorem isMessage_examples :
  ∀ msg ∈ [noDigitMessage, pcMessage, registerMessage], IsMessage msg
  := by
  intro msg hmsg
  constructor
  · revert msg
    decide
  · revert msg
    decide
  · revert msg
    decide

/-- The message behind one with a character that is no digit is never parsed. -/
theorem display_pipe_exits :
  (∀ msg ∈ [noDigitMessage, pcMessage], IsMessage msg) ∧
    ¬ ∃ n p', (dispCheckUpdatePipes n).run (.fresh [noDigitMessage, pcMessage]) = .ok ((), p') ∧
      p'.parsed = [noDigitMessage, pcMessage]
  := by
  have hcall : dispCheckUpdatePipe.run (.fresh [noDigitMessage, pcMessage]) =
      .error (.parse noDigitMessage .exit) := by
    have hbrings := brings_map (Framing.body noDigitMessage)
      (([0] ++ displaySendMsg pcMessage).map .byte)
    have hparse (d : Display) : dispParsePacket (noDigitMessage.map byteChar) d = .error .exit := rfl
    have hread : dispReadPacket.run (Coprocess.after (.fresh [noDigitMessage, pcMessage])
        ((Framing.body noDigitMessage).map .byte ++ ([0] ++ displaySendMsg pcMessage).map .byte)) =
          .error (.parse noDigitMessage .exit) := by
      rw [run_dispReadPacket (isMessage_examples _ List.mem_cons_self) hbrings]
      apply run_bind_of_error
      simp only [StateT.run, dispParse, hparse]
    rw [dispCheckUpdatePipe, run_bind_of_ok (run_get _)]
    apply (run_dispCheckUpdatePipeFrom_byte rfl rfl _).trans
    apply hread
  use fun msg hmsg => isMessage_examples msg (List.mem_append_left [registerMessage] hmsg)
  rintro ⟨n, p', hrun, hparsed⟩
  cases n with
  | zero =>
    obtain rfl := (Prod.mk.inj (Except.ok.inj hrun)).2
    exact List.cons_ne_nil _ _ hparsed.symm
  | succ n =>
    rw [dispCheckUpdatePipes, run_bind_of_error hcall] at hrun
    cases hrun

/-- A fresh coprocess over whose pipe the bytes of the messages arrive, each after a pause. -/
def Coprocess.paused (msgs : List (List Byte)) : Coprocess where
  display := .fresh 128 0x60
  input := (msgs.flatMap displaySendMsg).flatMap fun b => [.noData, .byte b]
  blocking := false
  parsed := []

/-- Both messages are parsed, and no more than the NUL of the last one is left. -/
theorem display_pipe_round_trip_paused :
  ∃ n p', (dispCheckUpdatePipes n).run (.paused [pcMessage, registerMessage]) = .ok ((), p') ∧
    p'.parsed = [pcMessage, registerMessage] ∧
    ∃ stray', (stray' = [] ∨ stray' = [0]) ∧ Brings p'.input stray' []
  := by
  have hmsgs : ∀ msg ∈ [pcMessage, registerMessage], IsMessage msg := by
    intro msg hmsg
    apply isMessage_examples msg (List.mem_cons_of_mem _ hmsg)
  have hparse : ∀ msg ∈ [pcMessage, registerMessage], ∀ d, ∃ d',
      dispParsePacket (msg.map byteChar) d = .ok d' := by
    rw [List.forall_mem_cons, List.forall_mem_singleton]
    exact ⟨fun d => ⟨_, rfl⟩, fun d => ⟨_, rfl⟩⟩
  have hbrings := brings_paused ([pcMessage, registerMessage].flatMap displaySendMsg)
  obtain ⟨n, p', hrun, ⟨hparsed, hstray⟩ | ⟨before, msg, after, e, hsplit, -, hends, -⟩⟩ :=
    display_pipe_round_trip (p := .paused [pcMessage, registerMessage]) rfl hmsgs hbrings
  · exact ⟨n, p', hrun, hparsed, hstray⟩
  · have hmem : msg ∈ [pcMessage, registerMessage] := by
      rw [hsplit]
      apply List.mem_append_right _ List.mem_cons_self
    obtain ⟨d', hok⟩ := hparse msg hmem p'.display
    rw [hends.1] at hok
    contradiction

end SimulAvr
