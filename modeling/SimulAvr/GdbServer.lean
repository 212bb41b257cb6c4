import SimulAvr.AvrCore

/-!
# Memory packets of the debugger

The handlers of the packets `m addr,len` and `M addr,len:data`, by which gdb reads and
writes flash, data memory and EEPROM.  A packet is the list of its characters, without
the NUL that ends it; the numbers of a packet are 32-bit integers.
-/

namespace SimulAvr

/-! ### The text of a packet -/

/-- The character that ends a string. -/
def nul : Char :=
  Char.ofNat 0

/-- `hex2nib` -/
def hex2nib (hex : Char) : Except AvrError Byte :=
  if 'A' ≤ hex ∧ hex ≤ 'F' then
    .ok (.ofNat 8 (10 + (hex.toNat - ( 'A').toNat)))
  else if 'a' ≤ hex ∧ hex ≤ 'f' then
    .ok (.ofNat 8 (10 + (hex.toNat - ( 'a').toNat)))
  else if '0' ≤ hex ∧ hex ≤ '9' then
    .ok (.ofNat 8 (hex.toNat - ( '0').toNat))
  else
    .error (.message "Invalid hexidecimal digit: 0x%02x" [hex.toNat])

/-- `HEX_DIGIT` -/
def hexDigit (nib : Byte) : Char :=
  "0123456789abcdef".toList.getD nib.toNat nul

/-- The two digits of a byte in a reply. -/
def hexByte (bval : Byte) : List Char :=
  [hexDigit (bval >>> 4), hexDigit (bval &&& 0xf)]

/-- The byte of the next two digits of a packet:
`hex2nib (*pkt++) << 4` and `hex2nib (*pkt++)` -/
def gdbGetByte (pkt : List Char) : Except AvrError (Byte × List Char) := do
  let high ← hex2nib (pkt.headD nul)
  let low ← hex2nib (pkt.tail.headD nul)
  return (high <<< 4 + low, pkt.drop 2)

/-- A loop of `gdb_get_addr_len`, which reads digits up to the character `stop`. -/
def gdbScanNum (stop : Char) (num : BitVec 32) :
    List Char → Except AvrError (BitVec 32 × List Char)
  | [] => do
    if nul = stop then return (num, [])
    let _ ← hex2nib nul
    return (num, [])
  | ch :: pkt => do
    if ch = stop then return (num, pkt)
    let nib ← hex2nib ch
    gdbScanNum stop (num <<< 4 + nib.setWidth 32) pkt

/-- `gdb_get_addr_len`: the address, the length and the rest of the packet -/
def gdbGetAddrLen (pkt : List Char) (aEnd lEnd : Char) :
    Except AvrError (Int × Int × List Char) := do
  let (addr, pkt) ← gdbScanNum aEnd 0 pkt
  let (len, pkt) ← gdbScanNum lEnd 0 pkt
  return (addr.toInt, len.toInt, pkt)

/-! ### The handlers -/

/-- `MAX_BUF` -/
abbrev maxBuf : Nat := 400

/-- `SRAM_OFFSET` -/
abbrev sramOffset : Int := 0x00800000

/-- `EEPROM_OFFSET` -/
abbrev eepromOffset : Int := 0x00810000

section

variable {δ : Type}

/-- `gdb_send_reply`, which must account for the frame of the reply -/
def gdbSendReply (reply : List Char) : CoreM δ (List Char) := do
  avrErrorIf (reply.length ≥ maxBuf - 4) "buffer overflow" []
  return reply

/-- `avr_core_flash_write_lo8` -/
def avrCoreFlashWriteLo8 (addr : Int) (val : Byte) : CoreM δ Unit := do
  let flash ← gets AvrCore.flash
  let flash ← liftExcept (storageWriteb flash (addr * 2 + 1) val)
  update (fun c => { c with flash := flash })

/-- `avr_core_flash_write_hi8` -/
def avrCoreFlashWriteHi8 (addr : Int) (val : Byte) : CoreM δ Unit := do
  let flash ← gets AvrCore.flash
  let flash ← liftExcept (storageWriteb flash (addr * 2) val)
  update (fun c => { c with flash := flash })

/-- The branch of `gdb_read_memory` for flash, after an odd byte at its start: the loop over
the words, and an odd byte at the end. -/
def gdbReadFlashEven (addr : Int) (len : Nat) (buf : List Char) : CoreM δ (List Char) := do
  let buf ← Program.loop (fun addr buf => do
    let wval ← avrCoreFlashRead addr
    return buf ++ hexByte (wval.extractLsb' 0 8) ++ hexByte (wval.extractLsb' 8 8))
      (addr / 2) (len / 2) buf
  if len % 2 = 1 then
    let wval ← avrCoreFlashRead (addr / 2 + (len / 2 : Nat))
    return buf ++ hexByte (wval.extractLsb' 0 8)
  else
    return buf

/-- The branch of `gdb_read_memory` for flash. -/
def gdbReadFlash (addr len : Int) : CoreM δ (List Char) :=
  if addr % 2 = 1 then do
    let wval ← avrCoreFlashRead (addr.tdiv 2)
    gdbReadFlashEven (addr + 1) (len - 1).toNat (hexByte (wval.extractLsb' 8 8))
  else
    gdbReadFlashEven addr len.toNat []

/-- The branch of `gdb_write_memory` for flash, after an odd byte at its start. -/
def gdbWriteFlashEven (addr : Int) (len : Nat) (pkt : List Char) : CoreM δ Unit := do
  let pkt ← Program.loop (fun addr pkt => do
    -- low byte first, high byte last
    let (low, pkt) ← liftExcept (gdbGetByte pkt)
    let (high, pkt) ← liftExcept (gdbGetByte pkt)
    avrCoreFlashWrite addr (high ++ low)
    return pkt) (addr / 2) (len / 2) pkt
  if len % 2 = 1 then
    let (bval, _) ← liftExcept (gdbGetByte pkt)
    avrCoreFlashWriteLo8 (addr / 2 + (len / 2 : Nat)) bval

/-- The branch of `gdb_write_memory` for flash. -/
def gdbWriteFlash (addr len : Int) (pkt : List Char) : CoreM δ Unit :=
  if addr % 2 = 1 then do
    let (bval, pkt) ← liftExcept (gdbGetByte pkt)
    avrCoreFlashWriteHi8 (addr.tdiv 2) bval
    gdbWriteFlashEven (addr + 1) (len - 1).toNat pkt
  else
    gdbWriteFlashEven addr len.toNat pkt

variable [IoDevices δ]

/-- The branch of `gdb_read_memory` for data memory. -/
def gdbReadSram (addr : Int) (len : Nat) : CoreM δ (List Char) :=
  Program.loop (fun addr buf => do
    let bval ← memRead addr
    return buf ++ hexByte bval) addr len []

/-- The branch of `gdb_read_memory` for EEPROM. -/
def gdbReadEeprom (addr : Int) (len : Nat) : CoreM δ (List Char) :=
  Program.loop (fun addr buf => do
    let dev ← gets AvrCore.dev
    return buf ++ hexByte (IoDevices.gdbEeRead addr dev)) addr len []

/-- The bytes that `gdb_read_memory` puts into its reply. -/
def gdbReadSegment (addr len : Int) : CoreM δ (List Char) :=
  if sramOffset ≤ addr ∧ addr < eepromOffset then
    gdbReadSram (addr - sramOffset) len.toNat
  else if addr < sramOffset then
    gdbReadFlash addr len
  else
    gdbReadEeprom (addr - eepromOffset) len.toNat

/-- `gdb_read_memory` -/
def gdbReadMemory (pkt : List Char) : CoreM δ (List Char) := do
  let (addr, len, _) ← liftExcept (gdbGetAddrLen pkt ',' nul)
  let buf ← gdbReadSegment addr len
  gdbSendReply buf

/-- The branch of `gdb_write_memory` for data memory, which leaves the rest of the
packet. -/
def gdbWriteSram (addr : Int) (len : Nat) (pkt : List Char) : CoreM δ (List Char) :=
  Program.loop (fun addr pkt => do
    let (bval, pkt) ← liftExcept (gdbGetByte pkt)
    memWrite addr bval
    return pkt) addr len pkt

/-- The branch of `gdb_write_memory` for EEPROM. -/
def gdbWriteEeprom (addr : Int) (len : Nat) (pkt : List Char) : CoreM δ (List Char) :=
  Program.loop (fun addr pkt => do
    let (bval, pkt) ← liftExcept (gdbGetByte pkt)
    update (fun c => { c with dev := IoDevices.gdbEeWrite addr bval c.dev })
    return pkt) addr len pkt

/-- The writes of `gdb_write_memory`. -/
def gdbWriteSegment (addr len : Int) (pkt : List Char) : CoreM δ Unit :=
  if sramOffset ≤ addr ∧ addr < eepromOffset then do
    let _ ← gdbWriteSram (addr - sramOffset) len.toNat pkt
  else if addr < sramOffset then
    gdbWriteFlash addr len pkt
  else do
    let _ ← gdbWriteEeprom (addr - eepromOffset) len.toNat pkt

/-- `gdb_write_memory` -/
def gdbWriteMemory (pkt : List Char) : CoreM δ (List Char) := do
  let (addr, len, pkt) ← liftExcept (gdbGetAddrLen pkt ',' ':')
  gdbWriteSegment addr len pkt
  gdbSendReply "OK".toList

end

/-- A reply that fits. -/
theorem run_gdbSendReply
    {δ : Type} {c : AvrCore δ} {reply : List Char} (h : reply.length < maxBuf - 4) :
  (gdbSendReply reply).run c = .ok (reply, c)
  := by
  rw [gdbSendReply, Program.run_bind_of_ok (run_avrErrorIf_neg (by omega) _ _ c)]
  rfl

end SimulAvr
