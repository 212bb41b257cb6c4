import SimulAvr.GdbLink
import SimulAvr.Lib.Exchange

/-!
# The client of the regression tests

The regression tests talk to the simulator as gdb does.  The methods of their client
`GdbRemoteSerialProtocol` write a packet, read the acknowledgement and the reply, and turn the
texts of replies into numbers.  A method is a process that writes and reads bytes; its exceptions
are those that it raises itself and those of the Python library.
-/

namespace SimulAvr

open Exchange

/-- An exception of a client or of a test -/
inductive ClientError where
  | errCheckSum (pkt cccc : List Char) (sum csum : Nat)
  | errPacket (reply : List Char)
  | errReply (reply : List Char)
  | errMemRead
  /-- `IndexError`, `TypeError`, `ValueError` or `struct.error` -/
  | python
  /-- More packets than the client reads before the reply -/
  | limit
  /-- `TestFail`, with a format and its arguments -/
  | testFail (format : String) (args : List Int)

/-- A program of a client -/
abbrev ClientM : Type → Type :=
  Process ClientError Byte

/-- The values of the registers, by the numbers of gdb -/
abbrev Regs : Type :=
  Fin 35 → Nat

/-- The registers of gdb are numbered by literals. -/
instance gdbRegisters_neZero : NeZero 35 :=
  ⟨by decide⟩

namespace Reg

/-- `Reg.SREG` -/
abbrev SREG : Fin 35 := 32

/-- `Reg.SP` -/
abbrev SP : Fin 35 := 33

/-- `Reg.PC` -/
abbrev PC : Fin 35 := 34

/-- `Reg.R00` to `Reg.R31` -/
abbrev R (i : Fin 32) : Fin 35 :=
  i.castLE (by decide)

end Reg

/-! ### Texts -/

/-- `'%x'` -/
def formatHex (n : Nat) : List Char :=
  Nat.toDigits 16 n

/-- `'%d'` -/
def formatDec (n : Nat) : List Char :=
  Nat.toDigits 10 n

/-- `'%02x'` -/
def formatHex2 (n : Nat) : List Char :=
  (Nat.toDigits 16 n).leftpad 2 '0'

/-- The value of a hexadecimal digit -/
def digitValue (ch : Char) : Option Nat :=
  "0123456789abcdef".toList.idxOf? ch.toLower

/-- `int (s, 16)`, for a text of digits -/
def int16 (s : List Char) : Option Nat :=
  if s = [] then none
  else s.foldlM (fun n ch => (digitValue ch).map fun d => n * 16 + d) 0

/-- The value, or an exception of the Python library -/
def orRaise {α : Type} : Option α → ClientM α
  | some a => .ret a
  | none => .fail .python

/-- `str2bin` -/
def str2bin : List Char → Option (List Byte)
  | [] => some []
  | [a] => (int16 [a]).map fun n => [.ofNat 8 n]
  | a :: b :: s => do
    let n ← int16 [a, b]
    let arr ← str2bin s
    return .ofNat 8 n :: arr

/-- `bin2str` -/
def bin2str (arr : List Byte) : List Char :=
  arr.flatMap fun i => formatHex2 i.toNat

/-- `struct.unpack ('<33BHL', s)` -/
def unpackRegs (s : List Byte) : Option Regs :=
  if s.length = 39 then
    let byte (i : Nat) : Nat := (s.getD i 0).toNat
    some fun reg =>
      if reg.val < 33 then byte reg
      else if reg = Reg.SP then byte 33 + byte 34 * 2 ^ 8
      else byte 35 + byte 36 * 2 ^ 8 + byte 37 * 2 ^ 16 + byte 38 * 2 ^ 24
  else none

/-- The `size` bytes of a number, low byte first -/
def packBytes (size n : Nat) : List Byte :=
  (List.range size).map fun i => .ofNat 8 (n / 2 ^ (8 * i))

/-- The number of bytes of a register in a packet -/
def regSize (reg : Fin 35) : Nat :=
  if reg < Reg.SP then 1
  else if reg < Reg.PC then 2
  else 4

/-- `struct.pack` of the value of a register: `'<B'`, `'<H'` or `'<L'` -/
def packReg (reg : Fin 35) (val : Nat) : Option (List Byte) :=
  if val < 2 ^ (8 * regSize reg) then some (packBytes (regSize reg) val)
  else none

/-- `struct.pack ('<33BHL', *regs)` -/
def packRegs (regs : Regs) : Option (List Byte) :=
  ((List.finRange 35).mapM fun reg => packReg reg (regs reg)).map List.flatten

/-! ### Packets -/

/-- `self.socket.send (s)` -/
def socketSend (s : List Char) : ClientM Unit :=
  .send (s.map charByte) (.ret ())

/-- `self.socket.recv (1)` -/
def socketRecv : ClientM Char :=
  .recv fun b => .ret (byteChar b)

/-- `cksum` -/
def cksum (pkt : List Char) : Nat :=
  (pkt.map Char.toNat).sum &&& 0xff

/-- `send` -/
def rspSend (msg : List Char) : ClientM Unit := do
  socketSend ('$' :: (msg ++ '#' :: formatHex2 (cksum msg)))
  let reply ← socketRecv
  if reply ≠ '+' then
    .fail (.errReply [reply])

/-- The loop of `recv` over the characters of a packet, with `max_buf` left -/
def rspRecvLoop : Nat → ClientM (List Char)
  | 0 => return []
  | maxBuf + 1 => do
    let c ← socketRecv
    if c = '#' then
      return []
    let pkt ← rspRecvLoop maxBuf
    return c :: pkt

/-- `recv` -/
def rspRecv : ClientM (Option (List Char)) := do
  let c ← socketRecv
  if c = '$' then
    let pkt ← rspRecvLoop 400
    let high ← socketRecv
    let low ← socketRecv
    let csum ← orRaise (int16 [high, low])
    if cksum pkt ≠ csum then
      .fail (.errCheckSum pkt [high, low] (cksum pkt) csum)
    else
      return some pkt
  else if c = '+' then
    return none
  else
    .fail (.errPacket [c])

/-- Send a packet and receive the reply. -/
def rspCall (msg : List Char) : ClientM (List Char) := do
  rspSend msg
  let reply ← rspRecv
  orRaise reply

/-- Send a packet to which the reply is `OK`. -/
def rspCommand (msg : List Char) : ClientM Unit := do
  rspSend msg
  let reply ← rspRecv
  if reply ≠ some "OK".toList then
    .fail (.errReply [])

/-! ### The methods -/

/-- `read_regs` -/
def readRegs : ClientM Regs := do
  let reply ← rspCall "g".toList
  let bin ← orRaise (str2bin reply)
  orRaise (unpackRegs bin)

/-- `write_regs` -/
def writeRegs (regs : Regs) : ClientM Unit := do
  let arr ← orRaise (packRegs regs)
  rspCommand ('G' :: bin2str arr)

/-- `read_reg` -/
def readReg (reg : Fin 35) : ClientM Nat := do
  let reply ← rspCall ('p' :: formatHex reg)
  let bin ← orRaise (str2bin reply)
  if bin.length = regSize reg then
    return (bin.reverse.foldl (fun n b => n * 2 ^ 8 + b.toNat) 0)
  else
    .fail .python

/-- `write_reg` -/
def writeReg (reg : Fin 35) (val : Nat) : ClientM Unit := do
  let arr ← orRaise (packReg reg val)
  rspCommand ('P' :: (formatHex reg ++ '=' :: bin2str arr))

/-- `read_mem` -/
def readMem (addr len : Nat) : ClientM (List Byte) := do
  let reply ← rspCall ('m' :: (formatHex addr ++ ',' :: formatHex len))
  let c ← orRaise reply.head?
  if c = 'E' then
    .fail .errMemRead
  else
    orRaise (str2bin reply)

/-- `write_mem` -/
def writeMem (addr len : Nat) (buf : List Byte) : ClientM Unit :=
  rspCommand ('M' :: (formatHex addr ++ ',' :: (formatHex len ++ ':' :: bin2str buf)))

/-- `handle_reply`, which reads past `limit` packets of output at most -/
def handleReply : Nat → ClientM (List Char)
  | 0 => .fail .limit
  | limit + 1 => do
    let reply ← rspRecv
    let reply ← orRaise reply
    let c ← orRaise reply.head?
    if c ≠ 'O' then
      return reply
    handleReply limit

/-- `step`, at the current address -/
def rspStep (limit : Nat) : ClientM (List Char) := do
  rspSend "s".toList
  handleReply (limit + 1)

/-- `cont`, at the current address -/
def rspCont (limit : Nat) : ClientM (List Char) := do
  rspSend "c".toList
  handleReply (limit + 1)

/-- `cont_with_signal`, at the current address -/
def contWithSignal (limit signo : Nat) : ClientM (List Char) := do
  rspSend ('C' :: formatHex2 signo)
  handleReply (limit + 1)

/-- `break_insert` and `break_remove`, for the character `z` of the packet -/
def breakCommand (z : Char) (type addr len : Nat) : ClientM Unit := do
  rspSend (z :: (formatDec type ++ ',' :: (formatHex addr ++ ',' :: formatHex len)))
  let reply ← rspRecv
  -- the target need not support these packets
  if reply = some [] then
    return ()
  else if reply ≠ some "OK".toList then
    .fail (.errPacket [])

/-- `break_insert` -/
def breakInsert (type addr len : Nat) : ClientM Unit :=
  breakCommand 'Z' type addr len

/-- `break_remove` -/
def breakRemove (type addr len : Nat) : ClientM Unit :=
  breakCommand 'z' type addr len

/-! ### The target -/

/-- `offset_flash` -/
abbrev offsetFlash : Nat := 0x0

/-- `write_flash` -/
def writeFlash (addr len : Nat) (buf : List Byte) : ClientM Unit :=
  writeMem (addr + offsetFlash) len buf

/-- `reset`: continue with the signal `SIGHUP` -/
def targetReset (limit : Nat) : ClientM Unit := do
  let _ ← contWithSignal limit 1
  return ()

end SimulAvr
