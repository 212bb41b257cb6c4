import SimulAvr.GdbMemory

/-!
# The display

The messages that the simulator writes for the display coprocess as text, and the coprocess,
which parses them and keeps copies of the registers, the stack pointer, the program counter and
the SRAM to show.  The parse of a message that the simulator writes has the effect that the
message stands for (`dispParsePacket_text`).
-/

namespace SimulAvr

open Program

/-! ### The text of a message -/

/-- The digits of `%x`. -/
def hexInt (val : Int) : List Char :=
  Nat.toDigits 16 (BitVec.ofInt 32 val).toNat

/-- The digits of `%04x`. -/
def hexWord (val : Word) : List Char :=
  hexByte (val.extractLsb' 8 8) ++ hexByte (val.extractLsb' 0 8)

/-- The messages of `display_clock`, `display_pc`, `display_reg`, `display_io_reg`,
`display_flash` and `display_sram` -/
def DisplayMsg.text : DisplayMsg → List Char
  | clock val => 'n' :: hexInt val
  | pc val => 'p' :: hexInt val
  | reg i val => 'r' :: (hexInt i ++ ':' :: hexByte val)
  | ioReg i val => 'i' :: (hexInt i ++ ':' :: hexByte val)
  | flash addr vals =>
    'f' :: (hexInt addr ++ ',' :: (hexInt vals.length ++ ':' :: vals.flatMap hexWord))
  | sram addr vals =>
    's' :: (hexInt addr ++ ',' :: (hexInt vals.length ++ ':' :: vals.flatMap hexByte))

/-! ### The conversion `%x` of `sscanf` -/

/-- `isspace` -/
def isSpace (ch : Char) : Bool :=
  ch ∈ [' ', '\t', '\n', '\x0b', '\x0c', '\r']

/-- `isxdigit` -/
def isHexDigit (ch : Char) : Bool :=
  (hex2nib ch).toOption.isSome

/-- The conversion `%x` after white space and the sign: the digits, after which the number is
that of `strtoul`, which stops at `ULONG_MAX`. -/
def scanDigits (negative : Bool) (text : List Char) : Option (BitVec 32 × List Char) :=
  let digits := text.takeWhile isHexDigit
  let rest := text.dropWhile isHexDigit
  if digits = [] then
    none
  else
    let num := (hexValue 0 digits).toOption.getD 0
    if num < 2 ^ 64 then
      some (if negative then -.ofNat 32 num else .ofNat 32 num, rest)
    else
      some (-1, rest)

/-- The conversion `%x` after white space and the sign, where `0x` may come before the
digits. -/
def scanPrefix (negative : Bool) : List Char → Option (BitVec 32 × List Char)
  | '0' :: x :: text =>
    if x = 'x' ∨ x = 'X' then scanDigits negative ('0' :: text)
    else scanDigits negative ('0' :: x :: text)
  | text => scanDigits negative text

/-- The conversion `%x` of `sscanf`: the number and the rest of the text -/
def scanHex (text : List Char) : Option (BitVec 32 × List Char) :=
  match text.dropWhile isSpace with
  | '-' :: text => scanPrefix true text
  | '+' :: text => scanPrefix false text
  | text => scanPrefix false text

/-- `sscanf (pkt, "%x:%x", …)` or `sscanf (pkt, "%x,%x:", …)`, where it is 2 -/
def scanPair (sep : Char) (pkt : List Char) : Option (BitVec 32 × BitVec 32) :=
  (scanHex pkt).bind fun r =>
    if r.2.headD nul = sep then (scanHex r.2.tail).map fun r' => (r.1, r'.1) else none

/-! ### The coprocess -/

/-- The display coprocess: what it shows of the registers, and its variables -/
structure Display where
  /-- `sram->size` -/
  sramSize : Int
  /-- `sram->data` -/
  sram : Nat → Byte
  /-- what `disp_print_pc` has printed -/
  pc : BitVec 32
  /-- what `disp_print_reg` has printed -/
  reg : BitVec 32 → Byte
  xreg : BitVec 32
  yreg : BitVec 32
  zreg : BitVec 32
  spreg : BitVec 32
  /-- what `disp_print_sreg` has printed -/
  sreg : Byte
  /-- what `disp_print_io_reg` has printed -/
  ioReg : BitVec 32 → Byte

/-- The coprocess started with the arguments `sram_size` and `sram_start`. -/
def Display.fresh (size start : Int) : Display where
  sramSize := size + start
  sram _ := 0
  pc := 0
  reg _ := 0
  xreg := 0
  yreg := 0
  zreg := 0
  spreg := 0
  sreg := 0
  ioReg _ := 0

/-- The ends of the coprocess in `disp_parse_packet`. -/
inductive DispEnd where
  /-- It returns 1. -/
  | quit
  /-- `exit (1)` for a character that is no digit -/
  | exit
  /-- It reads or writes behind a buffer. -/
  | overrun
deriving DecidableEq

/-- `hex2nib` -/
def dispHex2nib (hex : Char) : Except DispEnd Byte :=
  (hex2nib hex).mapError fun _ => .exit

/-- Set the low byte of a pair of registers. -/
def setLow (pair bval : BitVec 32) : BitVec 32 :=
  (pair &&& 0xff00) ||| (bval &&& 0xff)

/-- Set the high byte of a pair of registers. -/
def setHigh (pair bval : BitVec 32) : BitVec 32 :=
  (pair &&& 0xff) ||| ((bval <<< 8) &&& 0xff00)

namespace Display

/-- The branch of `disp_parse_packet` for a register. -/
def setReg (d : Display) (val bval : BitVec 32) : Display :=
  let d := { d with reg := Function.update d.reg val (bval.setWidth 8) }
  if val = 26 then { d with xreg := setLow d.xreg bval }
  else if val = 27 then { d with xreg := setHigh d.xreg bval }
  else if val = 28 then { d with yreg := setLow d.yreg bval }
  else if val = 29 then { d with yreg := setHigh d.yreg bval }
  else if val = 30 then { d with zreg := setLow d.zreg bval }
  else if val = 31 then { d with zreg := setHigh d.zreg bval }
  else d

/-- The branch of `disp_parse_packet` for an IO register. -/
def setIoReg (d : Display) (val bval : BitVec 32) : Display :=
  let d := { d with ioReg := Function.update d.ioReg val (bval.setWidth 8) }
  if val = 0x3d then { d with spreg := setLow d.spreg bval }
  else if val = 0x3e then { d with spreg := setHigh d.spreg bval }
  else if val = 0x3f then { d with sreg := bval.setWidth 8 }
  else d

/-- Set a byte of `sram->data`, where it has one. -/
def setSram (d : Display) (addr : BitVec 32) (datum : Byte) : Display :=
  if addr < BitVec.ofInt 32 d.sramSize then
    { d with sram := Function.update d.sram addr.toNat datum }
  else d

end Display

/-- The loop of `disp_set_sram_values`, of which `n` bytes from `addr` on are left. -/
def dispSetSramLoop (addr : BitVec 32) : Nat → List Char → Display → Except DispEnd Display
  | 0, _, d => .ok d
  | n + 1, pkt, d => do
    let high ← dispHex2nib (pkt.headD nul)
    let low ← dispHex2nib (pkt.tail.headD nul)
    dispSetSramLoop (addr + 1) n (pkt.drop 2) (d.setSram addr (high <<< 4 + low))

/-- `disp_set_sram_values` -/
def dispSetSramValues (pkt : List Char) (d : Display) : Except DispEnd Display :=
  match scanPair ',' pkt with
  | none => .ok d
  | some (addr, len) =>
    match pkt.dropWhile (· ≠ ':') with
    | [] => .error .overrun
    | _ :: pkt => dispSetSramLoop addr len.toNat pkt d

/-- The name of an IO register that `sscanf` stores for `%s`. -/
def scanName (text : List Char) : List Char :=
  (text.dropWhile isSpace).takeWhile fun ch => !isSpace ch && ch ≠ nul

/-- `MAX_IO_REG` -/
abbrev maxIoReg : Int := 64

/-- The branch of `disp_parse_packet` for the name of an IO register, which has room for 50
characters and an array of `MAX_IO_REG` names. -/
def dispSetName (pkt : List Char) (d : Display) : Except DispEnd Display :=
  match scanHex pkt with
  | some (val, ':' :: text) =>
    if scanName text = [] then .ok d
    else if (scanName text).length ≥ 50 ∨ val.toInt < 0 ∨ val.toInt ≥ maxIoReg then
      .error .overrun
    else .ok d
  | _ => .ok d

/-- `disp_parse_packet`, where what becomes of the names of IO registers is left out -/
def dispParsePacket (pkt : List Char) (d : Display) : Except DispEnd Display :=
  let rest := pkt.tail
  match pkt.headD nul with
  | 'q' => .error .quit
  | 'p' =>
    match scanHex rest with
    | some (val, _) => .ok { d with pc := val }
    | none => .ok d
  | 'r' =>
    match scanPair ':' rest with
    | some (val, bval) => .ok (d.setReg val bval)
    | none => .ok d
  | 's' => dispSetSramValues rest d
  | 'i' =>
    match scanPair ':' rest with
    | some (val, bval) => .ok (d.setIoReg val bval)
    | none => .ok d
  | 'I' => dispSetName rest d
  | _ => .ok d

/-! ### Numbers are read back -/

theorem hexValue_append
    {text text' : List Char} {n m : Nat} (h : hexValue n text = .ok m) :
  hexValue n (text ++ text') = hexValue m text'
  := by
  induction text generalizing n with
  | nil =>
    cases h
    rfl
  | cons ch text ih =>
    rw [List.cons_append, hexValue]
    rw [hexValue] at h
    cases hnib : hex2nib ch with
    | error e =>
      rw [hnib] at h
      contradiction
    | ok nib =>
      rw [hnib, ok_bind] at h
      rw [ok_bind, ih h]

/-- The digits of `%x` are those of the number. -/
theorem hexValue_toDigits
    (n : Nat) :
  hexValue 0 (Nat.toDigits 16 n) = .ok n
  := by
  have hdigit : ∀ d : Fin 16, (hex2nib (Nat.digitChar d.val)).toOption = some (.ofNat 8 d.val) := by
    decide +kernel
  have hlast (m : Nat) (hm : m < 16) (k : Nat) :
      hexValue k [Nat.digitChar m] = .ok (k * 16 + m) := by
    have hnib := eq_ok_of_toOption (hdigit ⟨m, hm⟩)
    rw [hexValue, hnib, ok_bind, hexValue, BitVec.toNat_ofNat, Nat.mod_eq_of_lt (by omega)]
  induction n using Nat.strongRecOn with
  | ind n ih =>
    rw [Nat.toDigits_eq_if (by decide)]
    split
    · next hn =>
      rw [hlast n hn, Nat.zero_mul, Nat.zero_add]
    · next hn =>
      rw [hexValue_append (ih (n / 16) (by omega)), hlast _ (Nat.mod_lt _ (by decide)),
        Nat.div_add_mod']

theorem hexValue_hexByte
    (bval : Byte) :
  hexValue 0 (hexByte bval) = .ok bval.toNat
  := by
  obtain ⟨hhigh, hlow, hval⟩ := hex2nib_hexByte bval
  have hsum : (bval >>> 4).toNat * 16 + (bval &&& 0xf).toNat = bval.toNat := by
    have h := (by decide +kernel : ∀ b : Byte,
      (b >>> 4).toNat * 16 + (b &&& 0xf).toNat = b.toNat) bval
    apply h
  rw [hexByte, hexValue, eq_ok_of_toOption hhigh, ok_bind, hexValue, eq_ok_of_toOption hlow,
    ok_bind, hexValue, Nat.zero_mul, Nat.zero_add, hsum]

/-- The characters of a number are digits. -/
theorem isHexDigit_of_hexValue
    {text : List Char} {n m : Nat} (h : hexValue n text = .ok m) :
  ∀ ch ∈ text, isHexDigit ch = true
  := by
  induction text generalizing n with
  | nil => nofun
  | cons ch text ih =>
    rw [hexValue] at h
    cases hnib : hex2nib ch with
    | error e =>
      rw [hnib] at h
      contradiction
    | ok nib =>
      rw [hnib, ok_bind] at h
      rw [List.forall_mem_cons]
      constructor
      · rw [isHexDigit, hnib]
        rfl
      · apply ih h

/-- A number ends before the text. -/
def EndsNumber (text : List Char) : Prop :=
  ∀ ch ∈ text.head?, isHexDigit ch = false ∧ ch ≠ 'x' ∧ ch ≠ 'X'

theorem scanDigits_append
    {digits rest : List Char} (hne : digits ≠ []) {n : Nat} (hdigits : hexValue 0 digits = .ok n)
    (hn : n < 2 ^ 64) (hrest : EndsNumber rest) :
  scanDigits false (digits ++ rest) = some (.ofNat 32 n, rest)
  := by
  have hall := isHexDigit_of_hexValue hdigits
  have htake : (digits ++ rest).takeWhile isHexDigit = digits := by
    rw [List.takeWhile_append_of_pos hall]
    cases rest with
    | nil => simp
    | cons ch rest => simp [(hrest ch rfl).1]
  have hdrop : (digits ++ rest).dropWhile isHexDigit = rest := by
    rw [List.dropWhile_append_of_pos hall]
    cases rest with
    | nil => rfl
    | cons ch rest => simp [(hrest ch rfl).1]
  rw [scanDigits]
  dsimp only
  rw [htake, hdrop]
  rw [if_neg hne, hdigits]
  apply if_pos hn

/-- A digit is neither white space nor a sign. -/
theorem of_isHexDigit
    {ch : Char} (h : isHexDigit ch = true) :
  isSpace ch = false ∧ ch ≠ '-' ∧ ch ≠ '+' ∧ ch ≠ 'x' ∧ ch ≠ 'X'
  := by
  refine ⟨?_, ?_, ?_, ?_, ?_⟩
  · rw [isSpace, decide_eq_false_iff_not]
    intro hmem
    have hspace : ([' ', '\t', '\n', '\x0b', '\x0c', '\r'].all fun ch => !isHexDigit ch) = true := by
      decide
    have hnot := List.all_eq_true.mp hspace ch hmem
    rw [h] at hnot
    contradiction
  all_goals
    rintro rfl
    exact absurd h (by decide)

/-- `%x` reads digits up to a text that ends the number. -/
theorem scanHex_append
    {digits rest : List Char} (hne : digits ≠ []) {n : Nat} (hdigits : hexValue 0 digits = .ok n)
    (hn : n < 2 ^ 64) (hrest : EndsNumber rest) :
  scanHex (digits ++ rest) = some (.ofNat 32 n, rest)
  := by
  have hscan := scanDigits_append hne hdigits hn hrest
  have hall := isHexDigit_of_hexValue hdigits
  obtain ⟨ch, digits, rfl⟩ := List.exists_cons_of_ne_nil hne
  obtain ⟨hspace, hminus, hplus, -⟩ := of_isHexDigit (hall ch List.mem_cons_self)
  have hsecond : ∀ x ∈ (digits ++ rest).head?, x ≠ 'x' ∧ x ≠ 'X' := by
    cases digits with
    | nil =>
      intro x hx
      apply (hrest x hx).2
    | cons x digits =>
      rintro y ⟨⟩
      apply (of_isHexDigit (hall x (by simp))).2.2.2
  have hpre : scanPrefix false (ch :: (digits ++ rest)) = some (.ofNat 32 n, rest) := by
    rw [scanPrefix.eq_def]
    split
    · next x text heq =>
      rw [(List.cons.inj heq).2] at hsecond
      obtain ⟨hx, hX⟩ := hsecond x rfl
      rw [if_neg (by simp [hx, hX]), ← heq]
      apply hscan
    · apply hscan
  rw [scanHex, List.cons_append, List.dropWhile_cons_of_neg (by simp [hspace])]
  split
  · next heq => exact absurd (List.cons.inj heq).1 hminus
  · next heq => exact absurd (List.cons.inj heq).1 hplus
  · apply hpre

theorem hexInt_ne_nil
    (val : Int) :
  hexInt val ≠ []
  := by
  rw [hexInt]
  apply Nat.toDigits_ne_nil

/-- `%x` reads a number that `%x` has printed. -/
theorem scanHex_hexInt
    (val : Int) {rest : List Char} (hrest : EndsNumber rest) :
  scanHex (hexInt val ++ rest) = some (.ofInt 32 val, rest)
  := by
  rw [scanHex_append (hexInt_ne_nil val) (hexValue_toDigits _) _ hrest, BitVec.ofNat_toNat,
    BitVec.setWidth_eq]
  have := (BitVec.ofInt 32 val).isLt
  omega

/-- `%x` reads a byte that `%02x` has printed. -/
theorem scanHex_hexByte
    (val : Byte) :
  scanHex (hexByte val) = some (val.setWidth 32, [])
  := by
  have hlt : val.toNat < 2 ^ 64 := by
    have := val.isLt
    omega
  have hend : EndsNumber [] := nofun
  have hscan := scanHex_append (List.cons_ne_nil _ _) (hexValue_hexByte val) hlt hend
  rw [List.append_nil, BitVec.ofNat_toNat] at hscan
  apply hscan

theorem endsNumber_cons
    {ch : Char} (h : isHexDigit ch = false ∧ ch ≠ 'x' ∧ ch ≠ 'X') (text : List Char) :
  EndsNumber (ch :: text)
  := by
  rintro x ⟨⟩
  apply h

/-- Two numbers, with a character between them -/
theorem scanPair_of_scanHex
    {sep : Char} {pkt rest rest' : List Char} {val val' : BitVec 32}
    (h : scanHex pkt = some (val, sep :: rest)) (h' : scanHex rest = some (val', rest')) :
  scanPair sep pkt = some (val, val')
  := by
  rw [scanPair, h, Option.bind_some, if_pos (List.headD_cons ..)]
  change (scanHex rest).map _ = _
  rw [h']
  rfl

/-- The messages of a register and an IO register are read back. -/
theorem scanPair_text
    (i : Int) (val : Byte) :
  scanPair ':' (hexInt i ++ ':' :: hexByte val) = some (.ofInt 32 i, val.setWidth 32)
  := by
  apply scanPair_of_scanHex
  · apply scanHex_hexInt i (endsNumber_cons (by decide) _)
  · apply scanHex_hexByte

/-! ### What a message stands for -/

namespace Display

/-- Set the bytes of `sram->data` from an address on. -/
def setSramFrom (d : Display) : BitVec 32 → List Byte → Display
  | _, [] => d
  | addr, val :: vals => (d.setSram addr val).setSramFrom (addr + 1) vals

/-- The effect of a message on what the display shows. -/
def apply (d : Display) : DisplayMsg → Display
  | .clock _ => d
  | .pc val => { d with pc := .ofInt 32 val }
  | .reg i val => d.setReg (.ofInt 32 i) (val.setWidth 32)
  | .ioReg i val => d.setIoReg (.ofInt 32 i) (val.setWidth 32)
  | .flash _ _ => d
  | .sram addr vals => d.setSramFrom (.ofInt 32 addr) vals

end Display

theorem dispSetSramLoop_text
    (addr : BitVec 32) (vals : List Byte) (d : Display) :
  dispSetSramLoop addr vals.length (vals.flatMap hexByte) d = .ok (d.setSramFrom addr vals)
  := by
  induction vals generalizing addr d with
  | nil => rfl
  | cons val vals ih =>
    obtain ⟨hhigh, hlow, hval⟩ := hex2nib_hexByte val
    have hhigh : dispHex2nib (hexDigit (val >>> 4)) = .ok (val >>> 4) := by
      rw [dispHex2nib, eq_ok_of_toOption hhigh]
      rfl
    have hlow : dispHex2nib (hexDigit (val &&& 0xf)) = .ok (val &&& 0xf) := by
      rw [dispHex2nib, eq_ok_of_toOption hlow]
      rfl
    rw [List.flatMap_cons, hexByte, List.length_cons, dispSetSramLoop]
    dsimp only [List.cons_append, List.nil_append, List.headD_cons, List.tail_cons, List.drop]
    rw [hhigh, ok_bind, hlow, ok_bind, hval, ih, Display.setSramFrom]

theorem dispSetSramValues_text
    (addr : Int) {vals : List Byte} (hlen : vals.length < 2 ^ 32) (d : Display) :
  dispSetSramValues (hexInt addr ++ ',' :: (hexInt vals.length ++ ':' :: vals.flatMap hexByte)) d
    = .ok (d.setSramFrom (.ofInt 32 addr) vals)
  := by
  have hpair : scanPair ',' (hexInt addr ++
      ',' :: (hexInt vals.length ++ ':' :: vals.flatMap hexByte)) =
      some (.ofInt 32 addr, .ofInt 32 vals.length) := by
    apply scanPair_of_scanHex
    · apply scanHex_hexInt addr (endsNumber_cons (by decide) _)
    · apply scanHex_hexInt _ (endsNumber_cons (by decide) _)
  have hdigits (val : Int) : ∀ ch ∈ hexInt val, ch ≠ ':' := by
    rintro ch hch rfl
    have hdigit := isHexDigit_of_hexValue (hexValue_toDigits (BitVec.ofInt 32 val).toNat) _ hch
    exact absurd hdigit (by decide)
  have hdrop : (hexInt addr ++
      ',' :: (hexInt vals.length ++ ':' :: vals.flatMap hexByte)).dropWhile (· ≠ ':') =
      ':' :: vals.flatMap hexByte := by
    rw [List.dropWhile_append_of_pos (by simpa using hdigits addr),
      List.dropWhile_cons_of_pos (by decide),
      List.dropWhile_append_of_pos (by simpa using hdigits vals.length),
      List.dropWhile_cons_of_neg (by decide)]
  rw [dispSetSramValues, hpair, hdrop]
  dsimp only
  rw [BitVec.ofInt_natCast, BitVec.toNat_ofNat, Nat.mod_eq_of_lt hlen]
  apply dispSetSramLoop_text

/-- A message with fewer than 2^32 bytes -/
def DisplayMsg.Short : DisplayMsg → Prop
  | sram _ vals => vals.length < 2 ^ 32
  | _ => True

/-- The coprocess reads a message as what it stands for. -/
theorem dispParsePacket_text
    {msg : DisplayMsg} (h : msg.Short) (d : Display) :
  dispParsePacket msg.text d = .ok (d.apply msg)
  := by
  cases msg with
  | clock val => rfl
  | pc val =>
    have hend : EndsNumber [] := nofun
    have hscan := scanHex_hexInt val hend
    rw [List.append_nil] at hscan
    rw [dispParsePacket, DisplayMsg.text]
    dsimp only [List.headD_cons, List.tail_cons]
    rw [hscan]
    rfl
  | reg i val =>
    rw [dispParsePacket, DisplayMsg.text]
    dsimp only [List.headD_cons, List.tail_cons]
    rw [scanPair_text]
    rfl
  | ioReg i val =>
    rw [dispParsePacket, DisplayMsg.text]
    dsimp only [List.headD_cons, List.tail_cons]
    rw [scanPair_text]
    rfl
  | flash addr vals => rfl
  | sram addr vals => apply dispSetSramValues_text addr h

/-- `disp_parse_packet` on one packet after the other -/
def dispParsePackets (pkts : List (List Char)) (d : Display) : Except DispEnd Display :=
  pkts.foldlM (fun d pkt => dispParsePacket pkt d) d

theorem dispParsePackets_append
    (pkts pkts' : List (List Char)) (d : Display) :
  dispParsePackets (pkts ++ pkts') d = dispParsePackets pkts d >>= dispParsePackets pkts'
  := by
  rw [dispParsePackets, List.foldlM_append]
  rfl

end SimulAvr
