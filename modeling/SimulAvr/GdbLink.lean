import SimulAvr.GdbSession
import SimulAvr.Lib.Descriptor
import SimulAvr.Lib.Framing

/-!
# The connection to gdb

The bytes of the connection between gdb and the server.  `gdb_send_reply` writes a reply as a
frame `$…#cc`, and `gdb_pre_parse_packet` sets the mode of the descriptor, reads the first
byte of a request, and the rest of a packet.  The frames of replies are read back as they were
written (`gdb_framing_round_trip`).
-/

namespace SimulAvr

open Program Descriptor

/-! ### Characters and bytes -/

/-- The character of a byte. -/
def byteChar (b : Byte) : Char :=
  Char.ofNat b.toNat

/-- The byte of a character. -/
def charByte (ch : Char) : Byte :=
  .ofNat 8 ch.toNat

/-- The conversion of a hexadecimal digit. -/
theorem hex2nib_digit :
  ∀ nib : Byte, nib < 16 → hex2nib (byteChar (Framing.digit nib)) = .ok nib
  := by
  decide +kernel

/-- The entries of the table `HEX_DIGIT`. -/
theorem charByte_hexDigit :
  ∀ nib : Byte, nib < 16 → charByte (hexDigit nib) = Framing.digit nib
  := by
  decide +kernel

/-! ### Writing replies -/

/-- The loop of `gdb_send_reply`, with the buffer filled so far. -/
def gdbFillBuf (buf : List Byte) (cksum : Nat) : List Byte → Except AvrError (List Byte × Nat)
  | [] => .ok (buf, cksum)
  | ch :: reply =>
    -- must account for "#cc" to be added
    if (buf ++ [ch]).length = maxBuf - 3 then
      .error (.message "buffer overflow" [])
    else
      gdbFillBuf (buf ++ [ch]) (cksum + ch.toNat) reply

/-- The bytes that `gdb_send_reply` writes. -/
def gdbReplyBytes (reply : List Byte) : Except AvrError (List Byte) :=
  if reply = [] then
    .ok ("$#00".toList.map charByte)
  else do
    let (buf, cksum) ← gdbFillBuf [charByte '$'] 0 reply
    return buf ++ [charByte '#', charByte (hexDigit (.ofNat 8 (cksum >>> 4) &&& 0xf#8)),
      charByte (hexDigit (.ofNat 8 cksum &&& 0xf#8))]

/-- The buffer has room for a short reply. -/
theorem gdbFillBuf_of_le
    {buf reply : List Byte} (cksum : Nat) (hlen : buf.length + reply.length < maxBuf - 3) :
  gdbFillBuf buf cksum reply = .ok (buf ++ reply, cksum + (reply.map BitVec.toNat).sum)
  := by
  induction reply generalizing buf cksum with
  | nil => simp [gdbFillBuf]
  | cons ch reply ih =>
    have hne : (buf ++ [ch]).length ≠ maxBuf - 3 := by
      rw [List.length_cons] at hlen
      rw [List.length_append, List.length_singleton]
      omega
    rw [gdbFillBuf, if_neg hne, ih]
    · simp [Nat.add_assoc]
    · rw [List.length_append, List.length_singleton]
      rw [List.length_cons] at hlen
      omega

/-- A long reply overflows the buffer. -/
theorem gdbFillBuf_of_lt
    {buf reply : List Byte} (cksum : Nat) (hbuf : buf.length < maxBuf - 3)
    (hlen : maxBuf - 3 ≤ buf.length + reply.length) :
  gdbFillBuf buf cksum reply = .error (.message "buffer overflow" [])
  := by
  induction reply generalizing buf cksum with
  | nil =>
    rw [List.length_nil] at hlen
    omega
  | cons ch reply ih =>
    rw [gdbFillBuf]
    by_cases heq : (buf ++ [ch]).length = maxBuf - 3
    · rw [if_pos heq]
    · rw [if_neg heq]
      rw [List.length_append, List.length_singleton] at heq
      rw [List.length_cons] at hlen
      apply ih
      · rw [List.length_append, List.length_singleton]
        omega
      · rw [List.length_append, List.length_singleton]
        omega

/-- The nibbles of a checksum as `gdb_send_reply` computes them. -/
theorem gdb_checksum_digits
    (payload : List Byte) :
  BitVec.ofNat 8 ((payload.map BitVec.toNat).sum >>> 4) &&& 0xf#8 =
      Framing.checksum payload >>> 4 ∧
    BitVec.ofNat 8 (payload.map BitVec.toNat).sum &&& 0xf#8 =
      Framing.checksum payload &&& 0xf#8
  := by
  constructor
  · apply BitVec.eq_of_toNat_eq
    rw [Framing.checksum]
    generalize (payload.map BitVec.toNat).sum = n
    simp only [BitVec.toNat_and, BitVec.toNat_ofNat, BitVec.toNat_ushiftRight,
      Nat.shiftRight_eq_div_pow]
    rw [show 15 % 2 ^ 8 = 2 ^ 4 - 1 from rfl, Nat.and_two_pow_sub_one_eq_mod]
    omega
  · rfl

/-- `gdb_send_reply` writes the frame of a reply that fits. -/
theorem gdbReplyBytes_of_le
    {reply : List Byte} (hlen : reply.length ≤ 395) :
  gdbReplyBytes reply = .ok (Framing.frame reply)
  := by
  by_cases hnil : reply = []
  · subst hnil
    rfl
  · have hfit : [charByte '$'].length + reply.length < maxBuf - 3 := by
      rw [List.length_singleton, maxBuf]
      omega
    obtain ⟨hhigh, hlow⟩ := gdb_checksum_digits reply
    obtain ⟨hhigh', hlow', -⟩ := Framing.nibbles (Framing.checksum reply)
    rw [gdbReplyBytes, if_neg hnil, gdbFillBuf_of_le 0 hfit]
    dsimp only [Program.ok_bind]
    rw [Nat.zero_add, hhigh, hlow, charByte_hexDigit _ hhigh', charByte_hexDigit _ hlow']
    rfl

/-- The replies that the handlers send are those that `gdb_send_reply` can write. -/
theorem gdbSendReply_bytes
    {δ : Type} (c : AvrCore δ) (reply : List Char) :
  (gdbSendReply reply).run c =
    (gdbReplyBytes (reply.map charByte)).map fun _ => (reply, c)
  := by
  by_cases hlen : reply.length < maxBuf - 4
  · have hlen' : (reply.map charByte).length ≤ 395 := by
      rw [maxBuf] at hlen
      rw [List.length_map]
      omega
    rw [run_gdbSendReply hlen, gdbReplyBytes_of_le hlen']
    rfl
  · have hover : reply.length ≥ maxBuf - 4 := by omega
    have hne : reply.map charByte ≠ [] := by
      intro hnil
      rw [List.map_eq_nil_iff] at hnil
      rw [hnil] at hlen
      apply hlen
      decide
    have hlong : maxBuf - 3 ≤ [charByte '$'].length + (reply.map charByte).length := by
      rw [List.length_singleton, List.length_map]
      omega
    have herror := run_avrErrorIf_pos hover "buffer overflow" [] c
    rw [gdbSendReply, run_bind_of_error herror, gdbReplyBytes, if_neg hne]
    rw [gdbFillBuf_of_lt 0 (by decide) hlong]
    rfl

/-! ### Reading requests -/

/-- The ends of a run of the server other than a return. -/
inductive ConnectionError where
  /-- `avr_error` -/
  | avr (e : AvrError)
  /-- A read in blocking mode waits for data. -/
  | waiting

/-- The server with its connection. -/
structure Connection (δ : Type) where
  server : Server δ
  /-- What the reads of the descriptor find. -/
  input : List (Arrival Byte)
  /-- The static variable `block_on`. -/
  blockOn : Bool
  /-- The descriptor is in blocking mode. -/
  blocking : Bool

/-- A program of the server with its connection. -/
abbrev ConnectionM (δ : Type) : Type → Type :=
  Program (Connection δ) ConnectionError

namespace Connection

variable {δ : Type}

/-- Run a program of the server. -/
def lift {α : Type} (x : ServerM δ α) : ConnectionM δ α :=
  fun l => ((x l.server).mapError .avr).map fun r => (r.1, { l with server := r.2 })

/-- `avr_error` -/
def avrError {α : Type} (fmt : String) (args : List Int) : ConnectionM δ α :=
  throw (.avr (.message fmt args))

end Connection

section

variable {δ : Type}

/-- The loop of `gdb_read_byte`, with `cnt` tries left. -/
def gdbReadByteFrom : Nat → ConnectionM δ Int
  | 0 => Connection.avrError "Maximum read reties reached" []
  | cnt + 1 => do
    let l ← get
    match Descriptor.read l.blocking l.input with
    | none => throw .waiting
    | some (arrival, input) => do
      modify fun l => { l with input := input }
      match arrival with
      | .byte c => return c.toInt
      -- fd was set to non-blocking and no data was available
      | .noData => return -1
      | .failed => Connection.avrError "read failed: %s" []
      | .endOfFile => gdbReadByteFrom cnt

/-- `gdb_read_byte`, with `MAX_READ_RETRY` tries -/
def gdbReadByte : ConnectionM δ Int :=
  gdbReadByteFrom 10

/-- `gdb_set_blocking_mode` -/
def gdbSetBlockingMode (mode : Bool) : ConnectionM δ Unit :=
  modify fun l => { l with blocking := mode }

/-- The next character of a packet, `pkt_buf[i++] = c`. -/
def gdbReadChar : ConnectionM δ Byte := do
  let c ← gdbReadByte
  return .ofInt 8 c

/-- `hex2nib` of a character of a packet -/
def gdbHex2nib (c : Byte) : ConnectionM δ Byte :=
  fun l => ((hex2nib (byteChar c)).mapError .avr).map fun nib => (nib, l)

/-- The branch of `gdb_pre_parse_packet` that reads the rest of a packet. -/
def gdbReadPacket : ConnectionM δ (List Byte) := do
  -- make sure we block on fd
  gdbSetBlockingMode true
  let (pkt, cksum) ← Framing.readFrame gdbReadChar gdbHex2nib maxBuf
  let pktCksum := (pkt.map BitVec.toNat).sum
  if pktCksum % 256 ≠ cksum.toNat then
    Connection.avrError "Bad checksum: sent 0x%x <--> computed 0x%x" [cksum.toNat, pktCksum]
  return pkt

/-- The start of `gdb_pre_parse_packet`: turn blocking on or off, if it is not that way
already. -/
def gdbEnter (blocking : Bool) : ConnectionM δ Unit := do
  let l ← get
  if l.blockOn ≠ blocking then
    gdbSetBlockingMode blocking
    modify fun l => { l with blockOn := blocking }

/-- `gdb_pre_parse_packet` up to the response to the request it reads. -/
def gdbReadRequest (blocking : Bool) : ConnectionM δ Request := do
  gdbEnter blocking
  let c ← gdbReadByte
  if c = 0x24 then
    let pkt ← gdbReadPacket
    return .packet (pkt.map byteChar)
  else if c = 0x2d then
    return .nak
  else if c = 0x2b then
    return .ack
  else if c = 0x03 then
    return .ctrlC
  else if c = -1 then
    return .empty
  else
    return .unknown

/-! ### Runs of the reads -/

/-- The connection with other input. -/
def Connection.after (l : Connection δ) (input : List (Arrival Byte)) : Connection δ :=
  { l with input := input }

/-- A read that finds a byte. -/
theorem run_gdbReadByte_of_byte
    {l : Connection δ} {c : Byte} {input : List (Arrival Byte)}
    (h : Descriptor.read l.blocking l.input = some (.byte c, input)) :
  gdbReadByte.run l = .ok (c.toInt, l.after input)
  := by
  rw [gdbReadByte, gdbReadByteFrom, run_bind_of_ok (run_get l), h]
  rfl

/-- A read of a character of a packet. -/
theorem run_gdbReadChar
    {l : Connection δ} {c : Byte} {input : List (Arrival Byte)}
    (h : Descriptor.read l.blocking l.input = some (.byte c, input)) :
  gdbReadChar.run l = .ok (c, l.after input)
  := by
  rw [gdbReadChar, run_bind_of_ok (run_gdbReadByte_of_byte h)]
  simp only [run_pure, BitVec.ofInt_toInt]

/-- In blocking mode the bytes that arrive are read one after the other. -/
theorem reads_of_brings
    {l : Connection δ} {bytes : List Byte} {rest : List (Arrival Byte)} (hmode : l.blocking = true)
    (h : Brings l.input bytes rest) :
  Framing.Reads gdbReadChar l bytes (l.after rest)
  := by
  induction bytes generalizing l with
  | nil =>
    have hrest : l.after rest = l := by
      rw [← h.eq_of_nil]
      rfl
    rw [hrest]
    apply Framing.Reads.nil
  | cons c bytes ih =>
    obtain ⟨input, hread, hbrings⟩ := read_of_brings h
    rw [← hmode] at hread
    apply Framing.Reads.cons (run_gdbReadChar hread)
    apply ih (l := l.after input) hmode hbrings

theorem gdbHex2nib_converts :
  Framing.Converts (gdbHex2nib : Byte → ConnectionM δ Byte)
  := by
  intro nib hnib l
  change ((hex2nib (byteChar (Framing.digit nib))).mapError _).map _ = _
  rw [hex2nib_digit nib hnib]
  rfl

/-- The branch for packets reads the body of a frame, whatever the mode was before it. -/
theorem run_gdbReadPacket
    {l : Connection δ} {payload : List Byte} {rest : List (Arrival Byte)}
    (hend : Framing.endMark ∉ payload) (hlen : payload.length ≤ maxBuf)
    (h : Brings l.input (Framing.body payload) rest) :
  gdbReadPacket.run l = .ok (payload, { l with input := rest, blocking := true })
  := by
  have hreads : Framing.Reads gdbReadChar { l with blocking := true } (Framing.body payload)
      { l with input := rest, blocking := true } := reads_of_brings rfl h
  have hsum : (payload.map BitVec.toNat).sum % 256 = (Framing.checksum payload).toNat := by
    rw [Framing.checksum, BitVec.toNat_ofNat]
  rw [gdbReadPacket, gdbSetBlockingMode, run_bind_of_ok (run_modify _ l)]
  rw [run_bind_of_ok (Framing.run_readFrame gdbHex2nib_converts hend hlen hreads)]
  dsimp only
  rw [if_neg (not_not.mpr hsum)]
  rfl

/-- In blocking mode a frame is read as a packet. -/
theorem run_gdbReadRequest_frame
    {l : Connection δ} {payload : List Byte} {rest : List (Arrival Byte)} (hon : l.blockOn = true)
    (hmode : l.blocking = true) (hend : Framing.endMark ∉ payload)
    (hlen : payload.length ≤ maxBuf) (h : Brings l.input (Framing.frame payload) rest) :
  (gdbReadRequest true).run l = .ok (.packet (payload.map byteChar), l.after rest)
  := by
  have henter : (gdbEnter true).run l = .ok ((), l) := by
    rw [gdbEnter, run_bind_of_ok (run_get l), hon, if_neg (not_not.mpr rfl)]
    rfl
  obtain ⟨input, hread, hbrings⟩ := read_of_brings h
  rw [← hmode] at hread
  have hpacket : gdbReadPacket.run (l.after input) = .ok (payload, l.after rest) := by
    rw [run_gdbReadPacket hend hlen hbrings, ← hmode]
    rfl
  rw [gdbReadRequest, run_bind_of_ok henter, run_bind_of_ok (run_gdbReadByte_of_byte hread)]
  rw [if_pos (by decide), run_bind_of_ok hpacket]
  rfl

/-- Read requests in blocking mode, as `gdb_main_loop` does. -/
def gdbReadRequests : Nat → ConnectionM δ (List Request)
  | 0 => return []
  | n + 1 => do
    let request ← gdbReadRequest true
    let requests ← gdbReadRequests n
    return request :: requests

/-- In blocking mode frames are read as packets, one after the other. -/
theorem run_gdbReadRequests
    {l : Connection δ} {payloads : List (List Byte)} {rest : List (Arrival Byte)}
    (hon : l.blockOn = true) (hmode : l.blocking = true)
    (hend : ∀ payload ∈ payloads, Framing.endMark ∉ payload ∧ payload.length ≤ maxBuf)
    (h : Brings l.input (payloads.flatMap Framing.frame) rest) :
  (gdbReadRequests payloads.length).run l =
    .ok (payloads.map fun payload => .packet (payload.map byteChar), l.after rest)
  := by
  induction payloads generalizing l with
  | nil =>
    rw [← h.eq_of_nil]
    rfl
  | cons payload payloads ih =>
    obtain ⟨⟨hmark, hlen⟩, hends⟩ := List.forall_mem_cons.mp hend
    rw [List.flatMap_cons] at h
    obtain ⟨input, hframe, hframes⟩ := h.split
    rw [List.length_cons, gdbReadRequests]
    rw [run_bind_of_ok (run_gdbReadRequest_frame hon hmode hmark hlen hframe)]
    rw [run_bind_of_ok (ih (l := l.after input) hon hmode hends hframes)]
    rfl

/-! ### The round trip of replies -/

/-- A reply of 0 to 395 characters, of which none is `#`, `$` or NUL. -/
structure IsReply (reply : List Byte) : Prop where
  length : reply.length ≤ 395
  noEnd : charByte '#' ∉ reply
  noStart : charByte '$' ∉ reply
  noNul : charByte nul ∉ reply

omit δ in
/-- `gdb_send_reply` writes replies one after the other. -/
theorem mapM_gdbReplyBytes
    {replies : List (List Byte)} (h : ∀ reply ∈ replies, IsReply reply) :
  replies.mapM gdbReplyBytes = .ok (replies.map Framing.frame)
  := by
  induction replies with
  | nil => rfl
  | cons reply replies ih =>
    obtain ⟨hreply, hreplies⟩ := List.forall_mem_cons.mp h
    rw [List.mapM_cons, gdbReplyBytes_of_le hreply.length, ih hreplies]
    rfl

/-- The bytes that `gdb_send_reply` writes for replies are read back.  After the `$` of the
frame of a reply, and in either mode, the branch of `gdb_pre_parse_packet` for packets reads
the reply up to the end of the frame, without an error of its checksum; and of a list of
frames the reads of `gdb_main_loop` get the replies, one after the other, and leave what
follows them. -/
theorem gdb_framing_round_trip
    {replies : List (List Byte)} (hreplies : ∀ reply ∈ replies, IsReply reply) :
  (∀ reply ∈ replies, ∃ body, gdbReplyBytes reply = .ok (charByte '$' :: body) ∧
    ∀ (l : Connection δ) (rest : List (Arrival Byte)), Brings l.input body rest →
      gdbReadPacket.run l = .ok (reply, { l with input := rest, blocking := true })) ∧
  ∃ frames, replies.mapM gdbReplyBytes = .ok frames ∧
    ∀ (l : Connection δ) (rest : List (Arrival Byte)), l.blockOn = true → l.blocking = true →
      Brings l.input frames.flatten rest →
        (gdbReadRequests replies.length).run l =
          .ok (replies.map fun reply => .packet (reply.map byteChar), l.after rest)
  := by
  have hlen : ∀ reply ∈ replies, reply.length ≤ maxBuf := by
    intro reply hmem
    apply le_trans (hreplies reply hmem).length
    decide
  constructor
  · intro reply hmem
    use Framing.body reply, gdbReplyBytes_of_le (hreplies reply hmem).length
    intro l rest hbrings
    apply run_gdbReadPacket (hreplies reply hmem).noEnd (hlen reply hmem) hbrings
  · use replies.map Framing.frame, mapM_gdbReplyBytes hreplies
    intro l rest hon hmode hbrings
    apply run_gdbReadRequests hon hmode
    · intro reply hmem
      exact ⟨(hreplies reply hmem).noEnd, hlen reply hmem⟩
    · rw [List.flatMap_def]
      apply hbrings

end

/-- A new connection to a core with a flash of NOPs, over which the bytes have arrived. -/
def Connection.idle (bytes : List Char) : Connection Unit where
  server := { core := AvrCore.atOpcode 0 0x0000, mode := .waiting, sent := [] }
  input := bytes.map fun ch => .byte (charByte ch)
  blockOn := true
  blocking := true

/-- The replies `OK` and the empty one. -/
theorem gdb_framing_round_trip_ok :
  (gdbReadRequests 2).run (.idle "$OK#9a$#00".toList) =
    .ok ([.packet "OK".toList, .packet []], .idle [])
  := by
  let replies : List (List Byte) := ["OK".toList.map charByte, []]
  have hreplies : ∀ reply ∈ replies, IsReply reply := by
    intro reply hmem
    have hcases : reply = "OK".toList.map charByte ∨ reply = [] := by simpa [replies] using hmem
    obtain rfl | rfl := hcases
    · constructor <;> decide
    · constructor <;> decide
  obtain ⟨-, frames, hframes, hread⟩ := gdb_framing_round_trip (δ := Unit) hreplies
  have hbytes : replies.mapM gdbReplyBytes =
      .ok ["$OK#9a".toList.map charByte, "$#00".toList.map charByte] := by
    rfl
  obtain rfl := Except.ok.inj (hframes.symm.trans hbytes)
  have hbrings := brings_map ("$OK#9a$#00".toList.map charByte) []
  rw [List.append_nil, List.map_map] at hbrings
  apply hread (.idle "$OK#9a$#00".toList) [] rfl rfl hbrings

end SimulAvr
