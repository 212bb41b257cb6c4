import SimulAvr.Breakpoints
import SimulAvr.CoreFootprint
import SimulAvr.DisplayMirror

/-!
# Robust packets

A packet of one of the forms that the comments of the handlers describe is answered by a reply
that fits its buffer, without a call of `avr_error` and without an index outside of the hex
buffer or the vector table, exactly when its fields and the core admit it
(`packet_robust_iff`): the handlers trust the numbers of a packet.
-/

namespace SimulAvr

open Program

/-! ### The forms of the packets -/

/-- A number of a packet. -/
structure HexField where
  text : List Char
  value : Nat
  digits : hexValue 0 text = .ok value

/-- The number as the handlers read it. -/
def HexField.num (f : HexField) : Int :=
  (BitVec.ofNat 32 f.value).toInt

/-- The text of bytes, two digits each. -/
inductive Spells : List Char → List Byte → Prop
  | nil : Spells [] []
  | cons {high low : Char} {x y : Byte} {text : List Char} {vals : List Byte}
      (hhigh : hex2nib high = .ok x) (hlow : hex2nib low = .ok y) (h : Spells text vals) :
      Spells (high :: low :: text) ((x <<< 4 + y) :: vals)

/-- The bytes of a packet. -/
structure HexData where
  text : List Char
  vals : List Byte
  spells : Spells text vals

/-- The number of bytes of a register. -/
def registerBytes (reg : Int) : Nat :=
  if reg = 33 then 2 else if reg = 34 then 4 else 1

/-- The packets of the forms that the handlers describe. -/
inductive GdbPacket where
  | lastSignal
  | readRegisters
  | writeRegisters (data : HexData) (hdata : data.vals.length = 39)
  | readRegister (n : HexField)
  | writeRegister (n : HexField) (r : HexData) (hr : r.vals.length = registerBytes n.num)
  | readMemory (addr len : HexField)
  | writeMemory (addr len : HexField) (data : HexData) (hdata : data.vals.length = len.value)
  | kill
  | detach
  | resume (step : Bool) (addr : HexField)
  | resumeWithSignal (step : Bool) (sig : HexData) (hsig : sig.vals.length = 1)
      (addr : Option HexField)
  | breakPoint (insert : Bool) (t : Char) (ht : t ∈ ['0', '1', '2', '3', '4'])
      (addr len : HexField)
  | ioRegCount
  | ioRegs (addr len : HexField)

/-- The characters of a packet. -/
def GdbPacket.text : GdbPacket → List Char
  | lastSignal => ['?']
  | readRegisters => ['g']
  | writeRegisters data _ => 'G' :: data.text
  | readRegister n => 'p' :: n.text
  | writeRegister n r _ => 'P' :: (n.text ++ '=' :: r.text)
  | readMemory addr len => 'm' :: (addr.text ++ ',' :: len.text)
  | writeMemory addr len data _ => 'M' :: (addr.text ++ ',' :: (len.text ++ ':' :: data.text))
  | kill => ['k']
  | detach => ['D']
  | resume step addr => (if step then 's' else 'c') :: addr.text
  | resumeWithSignal step sig _ addr =>
    (if step then 'S' else 'C') :: (sig.text ++ (addr.map fun f => ';' :: f.text).getD [])
  | breakPoint insert t _ addr len =>
    (if insert then 'Z' else 'z') :: t :: ',' :: (addr.text ++ ',' :: len.text)
  | ioRegCount => "qRavr.io_reg".toList
  | ioRegs addr len => "qRavr.io_reg:".toList ++ (addr.text ++ ',' :: len.text)

/-! ### What a robust handler does -/

/-- The number of slots of an `IntVectTable` -/
abbrev irqVectTableSize : Nat := 39

/-- The size of the buffer that `gdb_read_memory` allocates, an `unsigned` -/
def hexBufferSize (len : Int) : Nat :=
  (BitVec.ofInt 32 (len * 2 + 1)).toNat

/-- The number of characters that `gdb_read_memory` writes into the buffer -/
def hexBufferUsed (addr len : Int) : Nat :=
  if addr < sramOffset ∧ addr % 2 = 1 then 2 + 2 * (len - 1).toNat else 2 * len.toNat

section

variable {δ : Type} [IoDevices δ]

/-- What follows the handler of a packet: a reply that fits a buffer with its frame, or the loop
of `gdb_continue`, at the end of which the core has one. -/
def Answered : Handled → AvrCore δ → Prop
  | .reply text, _ => text.length + 4 ≤ maxBuf
  | .kill text, _ => text.length + 4 ≤ maxBuf
  | .resume _, c => ∀ d : AvrCore δ, d.layout = c.layout → ∀ signo,
    Returns (gdbStopReply signo) d fun text _ => text.length + 4 ≤ maxBuf
  | .ignored, _ => False

/-- The handler of a packet answers without an abort, and stays within the buffer that it
allocates and within the vector table. -/
structure Robust (cellName : Int → Option (List Char)) (isRunning : Bool) (c : AvrCore δ)
    (pkt : List Char) : Prop where
  answers : Returns (gdbParsePacket cellName isRunning pkt) c Answered
  hexBuffer : ∀ rest addr len rest', pkt = 'm' :: rest →
    gdbGetAddrLen rest ',' nul = .ok (addr, len, rest') → hexBufferUsed addr len ≤ hexBufferSize len
  irq : ∀ step rest signo rest', pkt = step :: rest → step ∈ ['C', 'S'] →
    gdbGetByte rest = .ok (signo, rest') → signo ≠ 1 → signo ≥ 94 →
    signo.toNat - 94 < irqVectTableSize

/-! ### The packets that are served -/

/-- The data memory accepts reads of `n` cells, one after the other. -/
def AcceptsReads : Nat → Int → AvrCore δ → Prop
  | 0, _, _ => True
  | n + 1, addr, c => Returns (memRead addr) c fun _ c => AcceptsReads n (addr + 1) c

/-- The data memory accepts writes to consecutive cells, one after the other. -/
def AcceptsWrites : List Byte → Int → AvrCore δ → Prop
  | [], _, _ => True
  | val :: vals, addr, c => Returns (memWrite addr val) c fun _ c => AcceptsWrites vals (addr + 1) c

/-- The I/O registers accept reads of `n` of them, and their text fits a reply after `pos`
characters. -/
def FitsReply (cellName : Int → Option (List Char)) : Nat → Int → Nat → AvrCore δ → Prop
  | 0, _, pos, _ => pos < maxBuf - 4
  | n + 1, addr, pos, c => Returns (memIoFetch cellName (addr + ioRegAddrBegin)) c fun r c =>
    FitsReply cellName n (addr + 1) (pos + r.1.length + 1 + (hexNum r.2).length + 1) c

omit [IoDevices δ] in
/-- The flash has `n` bytes from the even address `addr` on, by words. -/
def AvrCore.FlashReadable (c : AvrCore δ) (addr : Int) (n : Nat) : Prop :=
  (∀ i < n / 2, c.flash.Valid (addr / 2 + i)) ∧
    (n % 2 = 1 → c.flash.Valid (addr / 2 + (n / 2 : Nat)))

omit [IoDevices δ] in
/-- The flash has `n` bytes from the even address `addr` on, by words, and the last one by
itself. -/
def AvrCore.FlashWritable (c : AvrCore δ) (addr : Int) (n : Nat) : Prop :=
  (∀ i < n / 2, c.flash.Valid (addr / 2 + i)) ∧
    (n % 2 = 1 → 0 ≤ (addr / 2 + (n / 2 : Nat)) * 2 + 1 - c.flash.base ∧
      (addr / 2 + (n / 2 : Nat)) * 2 + 1 - c.flash.base < c.flash.size)

/-- A read of `len` bytes at `addr` is served. -/
def ReadServed (c : AvrCore δ) (addr len : Int) : Prop :=
  if sramOffset ≤ addr ∧ addr < eepromOffset then
    AcceptsReads len.toNat (addr - sramOffset) c ∧ 2 * len.toNat < maxBuf - 4
  else if addr < sramOffset then
    if addr % 2 = 1 then
      (len ≠ 0 ∧ len ≠ -2 ^ 31) ∧ c.flash.Valid (addr.tdiv 2) ∧
        c.FlashReadable (addr + 1) (len - 1).toNat ∧ 2 + 2 * (len - 1).toNat < maxBuf - 4
    else
      c.FlashReadable addr len.toNat ∧ 2 * len.toNat < maxBuf - 4
  else
    2 * len.toNat < maxBuf - 4

/-- A write of the bytes `vals` at `addr` is served. -/
def WriteServed (c : AvrCore δ) (addr : Int) (vals : List Byte) : Prop :=
  if sramOffset ≤ addr ∧ addr < eepromOffset then
    AcceptsWrites vals (addr - sramOffset) c
  else if addr < sramOffset then
    if addr % 2 = 1 then
      vals ≠ [] ∧ c.flash.Valid (addr.tdiv 2) ∧ c.FlashWritable (addr + 1) (vals.length - 1)
    else
      c.FlashWritable addr vals.length
  else
    True

omit [IoDevices δ] in
/-- A breakpoint at `pc` is served: it is out of range, or the flash has the word that is
marked or restored. -/
def BreakServed (c : AvrCore δ) (insert : Bool) (pc : Int) : Prop :=
  c.pcMax ≤ pc ∨ c.flash.Valid pc ∨ insert = false ∧ c.brkPtLookup pc = none

/-- The signal of a packet. -/
def HexData.signo (sig : HexData) : Byte :=
  sig.vals.headD 0

/-- The packet is served. -/
def GdbPacket.Served (cellName : Int → Option (List Char)) (isRunning : Bool) (c : AvrCore δ) :
    GdbPacket → Prop
  | readRegister n => n.text.length ≤ 8
  | writeRegister n _ _ => n.text.length ≤ 8
  | readMemory addr len => ReadServed c addr.num len.num
  | writeMemory addr _ data _ => WriteServed c addr.num data.vals
  | resume _ addr => isRunning = false ∧ addr.text = []
  | resumeWithSignal _ sig _ addr =>
    sig.signo = 1 ∨ sig.signo.toNat < 94 + irqVectTableSize ∧ isRunning = false ∧ addr = none
  | breakPoint insert t _ addr _ => t ≠ '0' ∨ BreakServed c insert (addr.num.tdiv 2)
  | ioRegs addr len => FitsReply cellName len.num.toNat addr.num 0 c
  | _ => True

end

/-! ### The fields -/

theorem HexField.num_bounds
    (f : HexField) :
  -2 ^ 31 ≤ f.num ∧ f.num < 2 ^ 31
  := ⟨BitVec.le_toInt _, BitVec.toInt_lt⟩

theorem HexField.num_of_lt
    {f : HexField} (h : f.value < 2 ^ 31) :
  f.num = f.value
  := toInt_ofNat h

/-- A number has a first digit, which is not the end of a packet. -/
theorem HexField.headD_eq_nul
    (f : HexField) :
  f.text.headD nul = nul ↔ f.text = []
  := by
  obtain ⟨text, value, digits⟩ := f
  cases text with
  | nil => exact iff_of_true rfl rfl
  | cons ch text =>
    apply iff_of_false _ (List.cons_ne_nil ch text)
    rintro rfl
    contradiction

/-- An address and a length at the end of a packet. -/
theorem gdbGetAddrLen_fields
    (addr len : HexField) :
  gdbGetAddrLen (addr.text ++ ',' :: len.text) ',' nul = .ok (addr.num, len.num, [])
  := by
  have hcomma : hex2nib ',' = .error (.message "Invalid hexidecimal digit: 0x%02x" [0x2c]) := rfl
  have hscan := gdbScanNum_hexValue hcomma addr.digits len.text
  have hscan' := gdbScanNum_hexValue_nul len.digits
  change gdbScanNum ',' 0 (addr.text ++ ',' :: len.text) = _ at hscan
  change gdbScanNum nul 0 len.text = _ at hscan'
  rw [gdbGetAddrLen, hscan, ok_bind]
  simp only [hscan', ok_bind]
  rfl

/-- An address and a length before data. -/
theorem gdbGetAddrLen_data
    (addr len : HexField) (data : List Char) :
  gdbGetAddrLen (addr.text ++ ',' :: (len.text ++ ':' :: data)) ',' ':'
    = .ok (addr.num, len.num, data)
  := by
  have hcomma : hex2nib ',' = .error (.message "Invalid hexidecimal digit: 0x%02x" [0x2c]) := rfl
  have hcolon : hex2nib ':' = .error (.message "Invalid hexidecimal digit: 0x%02x" [0x3a]) := rfl
  have hscan := gdbScanNum_hexValue hcomma addr.digits (len.text ++ ':' :: data)
  have hscan' := gdbScanNum_hexValue hcolon len.digits data
  change gdbScanNum ',' 0 _ = _ at hscan
  change gdbScanNum ':' 0 _ = _ at hscan'
  rw [gdbGetAddrLen, hscan, ok_bind]
  simp only [hscan', ok_bind]
  rfl

/-- A number of more than eight digits is too large. -/
theorem gdbExtractHexNum_long
    {stop : Char} {e : AvrError} (hstop : hex2nib stop = .error e) {text : List Char}
    {i n m : Nat} (h : hexValue n text = .ok m) (num : BitVec 32) (hi : i ≤ 8)
    (hlength : 8 < i + text.length) (rest : List Char) :
  gdbExtractHexNum stop i num (text ++ rest) = .error (.message "number too large" [])
  := by
  induction text generalizing i n num with
  | nil =>
    rw [List.length_nil] at hlength
    omega
  | cons ch text ih =>
    rw [List.length_cons] at hlength
    rw [hexValue] at h
    cases hnib : hex2nib ch with
    | error e' =>
      rw [hnib] at h
      contradiction
    | ok nib =>
      have hne : ch ≠ stop := by
        rintro rfl
        rw [hnib] at hstop
        contradiction
      rw [hnib, ok_bind] at h
      rw [List.cons_append, gdbExtractHexNum, if_neg hne]
      by_cases hlast : i > 7
      · rw [if_pos hlast]
      · rw [if_neg hlast, hnib, ok_bind]
        apply ih h
        · omega
        · omega

/-- The next byte of a text. -/
theorem Spells.getByte
    {text : List Char} {val : Byte} {vals : List Byte} (h : Spells text (val :: vals))
    (rest : List Char) :
  ∃ text', Spells text' vals ∧ gdbGetByte (text ++ rest) = .ok (val, text' ++ rest)
  := by
  cases h with
  | @cons high low x y text _ hhigh hlow h =>
    refine ⟨text, h, ?_⟩
    simp only [gdbGetByte, List.cons_append, List.headD_cons, List.tail_cons,
      List.drop_succ_cons, List.drop_zero, hhigh, hlow, ok_bind]
    rfl

/-- The next byte of the end of a packet. -/
theorem Spells.nextByte
    {text : List Char} {val : Byte} {vals : List Byte} (h : Spells text (val :: vals)) :
  ∃ text', Spells text' vals ∧ gdbGetByte text = .ok (val, text')
  := by
  obtain ⟨text', htext', hbyte⟩ := h.getByte []
  rw [List.append_nil, List.append_nil] at hbyte
  exact ⟨text', htext', hbyte⟩

/-- The three high bytes of a 32-bit value -/
theorem getLong_of_spells
    (b0 : Byte) {b1 b2 b3 : Byte} {text : List Char} (h : Spells text [b1, b2, b3]) :
  ∃ val, gdbGetLong b0 text = .ok (val, [])
  := by
  obtain ⟨text₁, h₁, hbyte₁⟩ := h.nextByte
  obtain ⟨text₂, h₂, hbyte₂⟩ := h₁.nextByte
  obtain ⟨text₃, h₃, hbyte₃⟩ := h₂.nextByte
  cases h₃
  rw [gdbGetLong, hbyte₁, ok_bind]
  simp only [hbyte₂, hbyte₃, ok_bind]
  exact ⟨_, rfl⟩

/-- After the last byte. -/
theorem gdbGetByte_nil :
  gdbGetByte [] = .error (.message "Invalid hexidecimal digit: 0x%02x" [0])
  := rfl

/-! ### Replies -/

section

variable {δ : Type} {c : AvrCore δ}

theorem returns_gdbSendReply
    {text : List Char} {Q : List Char → AvrCore δ → Prop} :
  Returns (gdbSendReply text) c Q ↔ text.length < maxBuf - 4 ∧ Q text c
  := by
  by_cases h : text.length < maxBuf - 4
  · rw [Returns.iff_of_ok (run_gdbSendReply h)]
    exact ⟨fun hQ => ⟨h, hQ⟩, fun hQ => hQ.2⟩
  · have herror : (gdbSendReply text).run c = .error (.message "buffer overflow" []) := by
      rw [gdbSendReply, run_bind_of_error (run_avrErrorIf_pos (by omega) _ _ c)]
    constructor
    · intro hreturns
      exact (Returns.not_of_error herror hreturns).elim
    · intro hQ
      exact absurd hQ.1 h

/-- A reply fits a buffer with its frame. -/
abbrev FitsBuf (text : List Char) (_ : AvrCore δ) : Prop :=
  text.length + 4 ≤ maxBuf

theorem returns_gdbSendReply_fits
    {text : List Char} :
  Returns (gdbSendReply text) c FitsBuf ↔ text.length < maxBuf - 4
  := by
  rw [returns_gdbSendReply, FitsBuf]
  omega

/-- A handler that replies `OK` at its end. -/
theorem returns_ok_iff
    {x : CoreM δ Unit} :
  Returns (do
    x
    gdbSendReply "OK".toList) c FitsBuf ↔ Returns x c fun _ _ => True
  := by
  rw [Returns.bind_iff]
  simp only [returns_gdbSendReply_fits]
  constructor
  · intro h
    exact h.mono fun _ _ _ => trivial
  · intro h
    exact h.mono fun _ _ _ => by decide

/-- A handler that replies. -/
theorem answered_reply_iff
    [IoDevices δ] {x : CoreM δ (List Char)} :
  Returns (do return .reply (← x) : CoreM δ Handled) c Answered ↔ Returns x c FitsBuf
  := by
  rw [Returns.bind_iff]
  simp only [Returns.pure_iff]
  rfl

end

/-! ### Registers -/

/-- The layout is one that the debugger knows: SP is in the cells 0x5d and 0x5e. -/
structure Layout.HasCells (l : Layout) : Prop where
  placed : l.Placed
  xramEnd : sphAddrGdb ≤ l.mem.xramEnd

section

variable {δ : Type} [IoDevices δ] {l : Layout} {c : AvrCore δ}

/-- A program that never aborts, and leaves the layout. -/
abbrev Safe (l : Layout) {α : Type} (x : CoreM δ α) : Prop :=
  Keeps (fun c => c.layout = l) (fun _ => False) x

omit [IoDevices δ] in
/-- The cells of SP have SP or nothing. -/
theorem sp_cell
    (hl : l.HasCells) (hc : c.layout = l) {addr : Int}
    (haddr : addr = splAddrGdb ∨ addr = sphAddrGdb) :
  (0 ≤ addr ∧ addr ≤ c.mem.xramEnd) ∧ ∀ vdev, (c.mem.cell addr).vdev = some vdev →
    vdev = .stackPointer ∧ c.sp.splAddr = splAddrGdb
  := by
  subst hc
  have hend := hl.xramEnd
  change sphAddrGdb ≤ c.mem.xramEnd at hend
  constructor
  · simp only [splAddrGdb, sphAddrGdb] at haddr hend
    constructor
    · omega
    · omega
  · intro vdev hvdev
    obtain rfl := (hl.placed.stackPointer addr vdev hvdev).mpr haddr
    exact ⟨rfl, hl.placed.splAddr addr hvdev⟩

omit [IoDevices δ] in
/-- A program that leaves the layout and returns. -/
theorem safe_of_returns
    {α : Type} {x : CoreM δ α} (hlayout : KeepsLayout l x)
    (hx : ∀ c, c.layout = l → ∃ a c', x.run c = .ok (a, c')) :
  Safe l x
  := by
  intro c hc
  obtain ⟨a, c', hrun⟩ := hx c hc
  have hkept := hlayout c hc
  rw [hrun] at hkept ⊢
  apply hkept

/-- A read of SP -/
theorem safe_memRead_sp
    (hl : l.HasCells) {addr : Int} (haddr : addr = splAddrGdb ∨ addr = sphAddrGdb) :
  Safe l (memRead addr : CoreM δ Byte)
  := by
  apply safe_of_returns
  · apply (CoreAccess.inst (.memRead trivial : Access .all True _ _)).keepsLayout
  · intro c hc
    obtain ⟨hin, hvdev⟩ := sp_cell hl hc haddr
    rw [memRead, run_bind_of_ok (run_memGetCell c addr hin)]
    cases hcell : (c.mem.cell addr).vdev with
    | none => exact ⟨_, _, rfl⟩
    | some vdev =>
      obtain ⟨rfl, hspl⟩ := hvdev vdev hcell
      have hread : ∃ val, (spRead addr).run c = .ok (val, c) := by
        simp only [spRead, StateT.run_bind, run_gets, ok_bind, hspl]
        obtain rfl | rfl := haddr
        · exact ⟨c.sp.spl, rfl⟩
        · exact ⟨c.sp.sph, rfl⟩
      obtain ⟨val, hread⟩ := hread
      exact ⟨_, _, run_bind_of_ok hread⟩

/-- A write of SP -/
theorem safe_memWrite_sp
    (hl : l.HasCells) {addr : Int} (haddr : addr = splAddrGdb ∨ addr = sphAddrGdb) (val : Byte) :
  Safe l (memWrite addr val : CoreM δ Unit)
  := by
  apply safe_of_returns
  · apply (CoreAccess.inst (.memWrite trivial : Access .all True _ _)).keepsLayout
  · intro c hc
    obtain ⟨hin, hvdev⟩ := sp_cell hl hc haddr
    rw [memWrite, run_bind_of_ok (run_memGetCell c addr hin)]
    cases hcell : (c.mem.cell addr).vdev with
    | none => exact ⟨_, _, rfl⟩
    | some vdev =>
      obtain ⟨rfl, hspl⟩ := hvdev vdev hcell
      have hwrite (d : AvrCore δ) (val : Byte) (hd : d.sp.splAddr = splAddrGdb) :
          ∃ d', (spWrite addr val).run d = .ok ((), d') := by
        simp only [spWrite, StateT.run_bind, run_gets, ok_bind, hd]
        obtain rfl | rfl := haddr
        · exact ⟨_, rfl⟩
        · exact ⟨_, rfl⟩
      simp only [StateT.run_bind, run_update, ok_bind, vdevWrite]
      split
      · obtain ⟨d', hrun⟩ := hwrite (c.displaySend _) (val &&& (c.mem.cell addr).wrMask) hspl
        exact ⟨_, d', hrun⟩
      · obtain ⟨d', hrun⟩ := hwrite c (val &&& (c.mem.cell addr).wrMask) hspl
        exact ⟨_, d', hrun⟩

/-- The reply with all registers -/
theorem returns_gdbReadRegisters
    (hl : l.HasCells) (hc : c.layout = l) :
  Returns gdbReadRegisters c FitsBuf
  := by
  rw [gdbReadRegisters, Returns.bind_iff_of_ok (run_loop_gpwrGet []),
    Returns.bind_iff_of_ok (run_avrCoreSregGet c), Returns.bind_iff]
  apply (Returns.of_triple (safe_memRead_sp hl (.inl rfl)) hc).mono
  intro spl c₁ hc₁
  rw [Returns.bind_iff]
  apply (Returns.of_triple (safe_memRead_sp hl (.inr rfl)) hc₁).mono
  intro sph c₂ hc₂
  rw [Returns.bind_iff_of_ok (run_avrCorePCGet c₂), returns_gdbSendReply_fits]
  have hregs : ((List.finRange 32).flatMap fun i => hexByte (c.gpwr i)).length = 2 * 32 := by
    rw [← List.flatMap_map, length_flatMap_hexByte, List.length_map, List.length_finRange]
  have hbyte (bval : Byte) : (hexByte bval).length = 2 := rfl
  have hlong (val : BitVec 32) : (hexLong val).length = 8 := rfl
  simp only [List.nil_append, List.length_append, hregs, hbyte, hlong]
  decide

/-- The reply at the end of `gdb_continue` -/
theorem returns_gdbStopReply
    (hl : l.HasCells) (hc : c.layout = l) (signo : Byte) :
  Returns (gdbStopReply signo) c FitsBuf
  := by
  rw [gdbStopReply, Returns.bind_iff_of_ok (run_avrCorePCGet c),
    Returns.bind_iff_of_ok (run_avrCoreSregGet c), Returns.bind_iff]
  apply (Returns.of_triple (safe_memRead_sp hl (.inl rfl)) hc).mono
  intro spl c₁ hc₁
  rw [Returns.bind_iff]
  apply (Returns.of_triple (safe_memRead_sp hl (.inr rfl)) hc₁).mono
  intro sph c₂ hc₂
  rw [returns_gdbSendReply_fits]
  simp only [hexLong, hexByte, List.length_append, List.length_cons, List.length_nil]
  decide

/-- The reply with one register -/
theorem returns_gdbReadRegister
    (hl : l.HasCells) (hc : c.layout = l) (n : HexField) :
  Returns (gdbReadRegister n.text) c FitsBuf ↔ n.text.length ≤ 8
  := by
  by_cases hlength : n.text.length ≤ 8
  · rw [iff_true_right hlength]
    have hnum : gdbExtractHexNum nul 0 0 n.text = .ok (.ofNat 32 n.value, []) :=
      gdbExtractHexNum_hexValue_nul n.digits (by omega)
    rw [gdbReadRegister, Returns.bind_iff_of_ok (run_liftExcept_ok hnum c)]
    simp only
    by_cases hgpwr : (BitVec.ofNat 32 n.value).toInt ≥ 0 ∧ (BitVec.ofNat 32 n.value).toInt < 32
    · obtain ⟨r, hr⟩ := exists_fin_of_mem hgpwr
      rw [if_pos hgpwr, ← hr, Returns.bind_iff_of_ok (run_avrCoreGpwrGet c r),
        returns_gdbSendReply_fits]
      change 2 < maxBuf - 4
      decide
    · rw [if_neg hgpwr]
      split_ifs
      · rw [Returns.bind_iff_of_ok (run_avrCoreSregGet c), returns_gdbSendReply_fits]
        change 2 < maxBuf - 4
        decide
      · rw [Returns.bind_iff]
        apply (Returns.of_triple (safe_memRead_sp hl (.inl rfl)) hc).mono
        intro spl c₁ hc₁
        rw [Returns.bind_iff]
        apply (Returns.of_triple (safe_memRead_sp hl (.inr rfl)) hc₁).mono
        intro sph c₂ hc₂
        rw [returns_gdbSendReply_fits]
        change 4 < maxBuf - 4
        decide
      · rw [Returns.bind_iff_of_ok (run_avrCorePCGet c), returns_gdbSendReply_fits]
        change 8 < maxBuf - 4
        decide
      · rw [returns_gdbSendReply_fits]
        decide
  · rw [iff_false_right hlength]
    have hnul : hex2nib nul = .error (.message "Invalid hexidecimal digit: 0x%02x" [0]) := rfl
    have herror := gdbExtractHexNum_long hnul (i := 0) n.digits 0 (by omega) (by omega) []
    rw [List.append_nil] at herror
    apply Returns.not_of_error
    rw [gdbReadRegister]
    apply run_bind_of_error (run_liftExcept_error herror c)

/-- The reply to a write of one register -/
theorem returns_gdbWriteRegister
    (hl : l.HasCells) (hc : c.layout = l) (n : HexField) (r : HexData)
    (hr : r.vals.length = registerBytes n.num) :
  Returns (gdbWriteRegister (n.text ++ '=' :: r.text)) c FitsBuf ↔ n.text.length ≤ 8
  := by
  have hok (c : AvrCore δ) : Returns (gdbSendReply "OK".toList) c FitsBuf := by
    rw [returns_gdbSendReply_fits]
    decide
  have hequals : hex2nib '=' = .error (.message "Invalid hexidecimal digit: 0x%02x" [0x3d]) := rfl
  by_cases hlength : n.text.length ≤ 8
  · rw [iff_true_right hlength]
    have hnum : gdbExtractHexNum '=' 0 0 (n.text ++ '=' :: r.text)
        = .ok (.ofNat 32 n.value, '=' :: r.text) :=
      gdbExtractHexNum_hexValue hequals n.digits (by omega) r.text
    have hpos : r.vals ≠ [] := by
      intro hnil
      rw [hnil, registerBytes] at hr
      split_ifs at hr
    obtain ⟨val, vals, hvals⟩ := List.exists_cons_of_ne_nil hpos
    have hspells := r.spells
    rw [hvals] at hspells hr
    obtain ⟨text, htext, hbyte⟩ := hspells.nextByte
    rw [gdbWriteRegister, Returns.bind_iff_of_ok (run_liftExcept_ok hnum c)]
    simp only [List.tail_cons]
    rw [Returns.bind_iff_of_ok (run_liftExcept_ok hbyte c)]
    change Returns (if n.num ≥ 0 ∧ n.num < 33 then _ else if n.num = 33 then _
      else if n.num = 34 then _ else _) _ _
    by_cases hgpwr : n.num ≥ 0 ∧ n.num < 33
    · rw [if_pos hgpwr]
      by_cases hsreg : n.num = 32
      · have hsreg' : (BitVec.ofNat 32 n.value).toInt = 32 := hsreg
        rw [if_pos hsreg', Returns.bind_iff_of_ok (run_avrCoreSregSet c val)]
        apply hok
      · have hsreg' : (BitVec.ofNat 32 n.value).toInt ≠ 32 := hsreg
        obtain ⟨d, hd⟩ := exists_fin_of_mem (show 0 ≤ n.num ∧ n.num < 32 by omega)
        have hd' : (BitVec.ofNat 32 n.value).toInt = d.val := hd.symm
        rw [if_neg hsreg', hd', Returns.bind_iff_of_ok (run_avrCoreGpwrSet c d val)]
        apply hok
    · rw [if_neg hgpwr]
      by_cases hsp : n.num = 33
      · rw [if_pos hsp]
        rw [registerBytes, if_pos hsp] at hr
        obtain ⟨hval, rfl⟩ := List.length_eq_one_iff.mp (Nat.succ.inj hr)
        obtain ⟨text', -, hbyte'⟩ := htext.nextByte
        rw [Returns.bind_iff_of_ok (run_liftExcept_ok hbyte' c), Returns.bind_iff]
        apply (Returns.of_triple (safe_memWrite_sp hl (.inl rfl) val) hc).mono
        intro _ c₁ hc₁
        rw [Returns.bind_iff]
        apply (Returns.of_triple (safe_memWrite_sp hl (.inr rfl) hval) hc₁).mono
        intro _ c₂ _
        apply hok
      · rw [if_neg hsp]
        by_cases hpc : n.num = 34
        · rw [if_pos hpc]
          rw [registerBytes, if_neg hsp, if_pos hpc] at hr
          obtain ⟨b1, b2, b3, rfl⟩ := List.length_eq_three.mp (Nat.succ.inj hr)
          obtain ⟨val', hlong⟩ := getLong_of_spells val htext
          rw [Returns.bind_iff_of_ok (run_liftExcept_ok hlong c),
            Returns.bind_iff_of_ok (run_avrCorePCSet c _)]
          apply hok
        · rw [if_neg hpc, returns_gdbSendReply_fits]
          decide
  · rw [iff_false_right hlength]
    have herror := gdbExtractHexNum_long hequals (i := 0) n.digits 0
      (by omega) (by omega) ('=' :: r.text)
    apply Returns.not_of_error
    rw [gdbWriteRegister]
    apply run_bind_of_error (run_liftExcept_error herror c)

omit [IoDevices δ] in
/-- The loop that sets the working registers. -/
theorem returns_loop_gpwrSet
    {text : List Char} {vals : List Byte} (h : Spells text vals) {i n : Nat} (hn : i + n = 32)
    (hvals : n ≤ vals.length) :
  Returns (loop (fun i pkt => do
    let (bval, pkt) ← liftExcept (gdbGetByte pkt)
    avrCoreGpwrSet i bval
    return pkt) i n text) c fun rest d => Spells rest (vals.drop n) ∧ d.layout = c.layout
  := by
  induction n generalizing i text vals c with
  | zero => exact ⟨text, c, rfl, h, rfl⟩
  | succ n ih =>
    cases vals with
    | nil => cases hvals
    | cons val vals =>
      obtain ⟨text', htext', hbyte⟩ := h.nextByte
      have hi : i < 32 := by omega
      rw [loop, Returns.bind_iff, Returns.bind_iff_of_ok (run_liftExcept_ok hbyte c)]
      simp only
      rw [Returns.bind_iff_of_ok (run_avrCoreGpwrSet c ⟨i, hi⟩ val), Returns.pure_iff]
      have hrest := ih (c := c.gpwrSet ⟨i, hi⟩ val) (i := i + 1) htext' (by omega)
        (Nat.le_of_succ_le_succ hvals)
      apply hrest.mono
      intro rest d hrest
      apply hrest

/-- The reply to a write of all registers -/
theorem returns_gdbWriteRegisters
    (hl : l.HasCells) (hc : c.layout = l) (data : HexData) (hdata : data.vals.length = 39) :
  Returns (gdbWriteRegisters data.text) c FitsBuf
  := by
  rw [gdbWriteRegisters, Returns.bind_iff]
  apply (returns_loop_gpwrSet data.spells (i := 0) (n := 32) rfl (by omega)).mono
  rintro text₁ c₁ ⟨htext₁, hlayout⟩
  have hc₁ : c₁.layout = l := hlayout.trans hc
  have hlength : (data.vals.drop 32).length = 7 := by rw [List.length_drop, hdata]
  obtain ⟨sreg, spl, sph, b0, b1, b2, b3, hvals⟩ : ∃ sreg spl sph b0 b1 b2 b3,
      data.vals.drop 32 = [sreg, spl, sph, b0, b1, b2, b3] := by
    generalize data.vals.drop 32 = vals at hlength
    obtain ⟨sreg, vals, rfl⟩ := List.exists_cons_of_length_eq_add_one hlength
    obtain ⟨spl, vals, rfl⟩ := List.exists_cons_of_length_eq_add_one (Nat.succ.inj hlength)
    replace hlength : vals.length = 5 := Nat.succ.inj (Nat.succ.inj hlength)
    obtain ⟨sph, vals, rfl⟩ := List.exists_cons_of_length_eq_add_one hlength
    obtain ⟨b0, vals, rfl⟩ := List.exists_cons_of_length_eq_add_one (Nat.succ.inj hlength)
    obtain ⟨b1, b2, b3, rfl⟩ := List.length_eq_three.mp (Nat.succ.inj (Nat.succ.inj hlength))
    exact ⟨sreg, spl, sph, b0, b1, b2, b3, rfl⟩
  rw [hvals] at htext₁
  obtain ⟨text₂, htext₂, hbyte₁⟩ := htext₁.nextByte
  obtain ⟨text₃, htext₃, hbyte₂⟩ := htext₂.nextByte
  obtain ⟨text₄, htext₄, hbyte₃⟩ := htext₃.nextByte
  obtain ⟨text₅, htext₅, hbyte₄⟩ := htext₄.nextByte
  obtain ⟨val, hlong⟩ := getLong_of_spells b0 htext₅
  rw [Returns.bind_iff_of_ok (run_liftExcept_ok hbyte₁ c₁)]
  simp only
  rw [Returns.bind_iff_of_ok (run_avrCoreSregSet c₁ sreg),
    Returns.bind_iff_of_ok (run_liftExcept_ok hbyte₂ _)]
  simp only
  rw [Returns.bind_iff]
  apply (Returns.of_triple (safe_memWrite_sp hl (.inl rfl) spl) _).mono
  · intro _ c₂ hc₂
    rw [Returns.bind_iff_of_ok (run_liftExcept_ok hbyte₃ c₂)]
    simp only
    rw [Returns.bind_iff]
    apply (Returns.of_triple (safe_memWrite_sp hl (.inr rfl) sph) hc₂).mono
    intro _ c₃ hc₃
    rw [Returns.bind_iff_of_ok (run_liftExcept_ok hbyte₄ c₃)]
    simp only
    rw [Returns.bind_iff_of_ok (run_liftExcept_ok hlong c₃)]
    simp only
    rw [Returns.bind_iff_of_ok (run_avrCorePCSet c₃ _), returns_gdbSendReply_fits]
    decide
  · apply hc₁

end

/-! ### Reads of memory -/

section

variable {δ : Type} {c : AvrCore δ}

/-- A read of the flash. -/
theorem returns_avrCoreFlashRead
    {pc : Int} {Q : Word → AvrCore δ → Prop} :
  Returns (avrCoreFlashRead pc) c Q ↔ c.flash.Valid pc ∧ Q (c.flash.word pc) c
  := by
  by_cases h : c.flash.Valid pc
  · rw [Returns.iff_of_ok (run_avrCoreFlashRead_of_valid h)]
    exact (and_iff_right h).symm
  · have herror : (avrCoreFlashRead pc).run c
        = .error (.message "address out of bounds: 0x%x" [pc * 2]) := by
      rw [run_avrCoreFlashRead, Flash.flashRead_of_not_valid h]
      rfl
    rw [iff_false_left (Returns.not_of_error herror)]
    exact fun hQ => h hQ.1

/-- A write of a word of the flash. -/
theorem returns_avrCoreFlashWrite
    {pc : Int} {val : Word} {Q : Unit → AvrCore δ → Prop} :
  Returns (avrCoreFlashWrite pc val) c Q ↔ c.flash.Valid pc ∧ Q () (c.writeWord pc val)
  := by
  by_cases h : c.flash.Valid pc
  · rw [Returns.iff_of_ok (run_avrCoreFlashWrite_of_valid h val)]
    exact (and_iff_right h).symm
  · have herror : (avrCoreFlashWrite pc val).run c
        = .error (.message "address out of bounds: 0x%x" [pc * 2]) := by
      rw [run_avrCoreFlashWrite, Flash.storageWritew_of_not_valid h]
      rfl
    rw [iff_false_left (Returns.not_of_error herror)]
    exact fun hQ => h hQ.1

/-- One more word. -/
theorem forall_words_succ
    {p : Int → Prop} {w : Int} {n : Nat} :
  (∀ i < n + 1, p (w + (i : Nat))) ↔ p w ∧ ∀ i < n, p (w + 1 + (i : Nat))
  := by
  rw [Nat.forall_lt_succ_left]
  simp only [Nat.cast_zero, Int.add_zero, Nat.cast_add, Nat.cast_one, Int.add_assoc,
    Int.add_comm 1]

/-- The loop that reads the words of the flash. -/
theorem returns_loop_flashRead
    {w : Int} {n : Nat} {buf : List Char} {Q : Nat → AvrCore δ → Prop} :
  Returns (loop (fun addr buf => do
    let wval ← avrCoreFlashRead addr
    return buf ++ hexByte (wval.extractLsb' 0 8) ++ hexByte (wval.extractLsb' 8 8)) w n buf) c
      (fun text d => Q text.length d) ↔
    (∀ i < n, c.flash.Valid (w + (i : Nat))) ∧ Q (buf.length + 4 * n) c
  := by
  induction n generalizing w buf with
  | zero =>
    rw [loop, Returns.pure_iff]
    exact (and_iff_right fun i hi => absurd hi i.not_lt_zero).symm
  | succ n ih =>
    have hlength (low high : Byte) : (buf ++ hexByte low ++ hexByte high).length + 4 * n
        = buf.length + 4 * (n + 1) := by
      simp only [List.length_append, hexByte, List.length_cons, List.length_nil]
      omega
    rw [loop, Returns.bind_iff, Returns.bind_iff, returns_avrCoreFlashRead, Returns.pure_iff, ih,
      hlength, forall_words_succ (p := c.flash.Valid), and_assoc]

/-- The words of the flash, and the low byte of one more -/
theorem returns_gdbReadFlashEven
    {addr : Int} {n : Nat} {buf : List Char} {Q : Nat → AvrCore δ → Prop} :
  Returns (gdbReadFlashEven addr n buf) c (fun text d => Q text.length d) ↔
    c.FlashReadable addr n ∧ Q (buf.length + 2 * n) c
  := by
  rw [gdbReadFlashEven, Returns.bind_iff, AvrCore.FlashReadable]
  by_cases hodd : n % 2 = 1
  · have hlength : buf.length + 4 * (n / 2) + 2 = buf.length + 2 * n := by omega
    have htail (text : List Char) (d : AvrCore δ) : Returns (if n % 2 = 1 then do
          let wval ← avrCoreFlashRead (addr / 2 + (n / 2 : Nat))
          return text ++ hexByte (wval.extractLsb' 0 8)
        else return text) d (fun text d => Q text.length d) ↔
          d.flash.Valid (addr / 2 + (n / 2 : Nat)) ∧ Q (text.length + 2) d := by
      rw [if_pos hodd, Returns.bind_iff, returns_avrCoreFlashRead, Returns.pure_iff,
        List.length_append]
      rfl
    simp only [htail]
    rw [returns_loop_flashRead (Q := fun n d =>
      d.flash.Valid (addr / 2 + _) ∧ Q (n + 2) d), hlength, and_assoc]
    simp only [hodd, forall_const]
  · have hlength : buf.length + 4 * (n / 2) = buf.length + 2 * n := by omega
    simp only [if_neg hodd, Returns.pure_iff]
    rw [returns_loop_flashRead, hlength, and_iff_left (a := ∀ i < n / 2, _) (absurd · hodd)]

/-- A read of the flash is served. -/
theorem returns_gdbReadFlash
    {addr len : Int} {Q : Nat → AvrCore δ → Prop} :
  Returns (gdbReadFlash addr len) c (fun text d => Q text.length d) ↔
    if addr % 2 = 1 then
      c.flash.Valid (addr.tdiv 2) ∧ c.FlashReadable (addr + 1) (len - 1).toNat ∧
        Q (2 + 2 * (len - 1).toNat) c
    else
      c.FlashReadable addr len.toNat ∧ Q (2 * len.toNat) c
  := by
  rw [gdbReadFlash]
  split
  · rw [Returns.bind_iff, returns_avrCoreFlashRead, returns_gdbReadFlashEven]
    rfl
  · rw [returns_gdbReadFlashEven, List.length_nil, Nat.zero_add]

variable [IoDevices δ]

/-- The loop that reads the data memory. -/
theorem returns_gdbReadSram
    {addr : Int} {n : Nat} {buf : List Char} {P : Nat → Prop} :
  Returns (loop (fun addr buf => do
    let bval ← memRead addr
    return buf ++ hexByte bval) addr n buf) c (fun text _ => P text.length) ↔
    AcceptsReads n addr c ∧ P (buf.length + 2 * n)
  := by
  induction n generalizing addr buf c with
  | zero =>
    rw [loop, Returns.pure_iff]
    exact (and_iff_right trivial).symm
  | succ n ih =>
    have hlength (bval : Byte) : (buf ++ hexByte bval).length + 2 * n
        = buf.length + 2 * (n + 1) := by
      simp only [List.length_append, hexByte, List.length_cons, List.length_nil]
      omega
    rw [loop, Returns.bind_iff, Returns.bind_iff]
    simp only [Returns.pure_iff, ih, hlength]
    rw [Returns.and_const_iff]
    rfl

/-- The loop that reads the EEPROM. -/
theorem returns_gdbReadEeprom
    {addr : Int} {n : Nat} {buf : List Char} {P : Nat → Prop} :
  Returns (loop (fun addr buf => do
    let dev ← gets AvrCore.dev
    return buf ++ hexByte (IoDevices.gdbEeRead addr dev)) addr n buf) c
      (fun text _ => P text.length) ↔ P (buf.length + 2 * n)
  := by
  induction n generalizing addr buf with
  | zero => rw [loop, Returns.pure_iff, Nat.mul_zero, Nat.add_zero]
  | succ n ih =>
    have hlength (bval : Byte) : (buf ++ hexByte bval).length + 2 * n
        = buf.length + 2 * (n + 1) := by
      simp only [List.length_append, hexByte, List.length_cons, List.length_nil]
      omega
    rw [loop, Returns.bind_iff, Returns.bind_iff_of_ok (run_gets _ c), Returns.pure_iff, ih,
      hlength]

/-- The bytes of a read fit a reply. -/
theorem returns_gdbReadSegment
    {addr len : Int} :
  Returns (gdbReadSegment addr len) c (fun text _ => text.length < maxBuf - 4) ↔
    if sramOffset ≤ addr ∧ addr < eepromOffset then
      AcceptsReads len.toNat (addr - sramOffset) c ∧ 2 * len.toNat < maxBuf - 4
    else if addr < sramOffset then
      if addr % 2 = 1 then
        c.flash.Valid (addr.tdiv 2) ∧ c.FlashReadable (addr + 1) (len - 1).toNat ∧
          2 + 2 * (len - 1).toNat < maxBuf - 4
      else
        c.FlashReadable addr len.toNat ∧ 2 * len.toNat < maxBuf - 4
    else
      2 * len.toNat < maxBuf - 4
  := by
  rw [gdbReadSegment]
  split_ifs
  · rw [gdbReadSram, returns_gdbReadSram (P := (· < maxBuf - 4)), List.length_nil, Nat.zero_add]
  · next hodd =>
    rw [returns_gdbReadFlash (Q := fun n _ => n < maxBuf - 4), if_pos hodd]
  · next hodd =>
    rw [returns_gdbReadFlash (Q := fun n _ => n < maxBuf - 4), if_neg hodd]
  · rw [gdbReadEeprom, returns_gdbReadEeprom (P := (· < maxBuf - 4)), List.length_nil,
      Nat.zero_add]

/-- The hex buffer has room for what a read of the flash puts into it. -/
theorem hexBufferUsed_le_size
    {addr len : Int} (hlow : -2 ^ 31 ≤ len) (hhigh : len < 2 ^ 31) :
  hexBufferUsed addr len ≤ hexBufferSize len ↔
    ¬ (addr < sramOffset ∧ addr % 2 = 1) ∨ len ≠ 0 ∧ len ≠ -2 ^ 31
  := by
  rw [hexBufferUsed, hexBufferSize, BitVec.toNat_ofInt]
  split_ifs with hodd
  · omega
  · omega

/-- A read of memory is answered, within the hex buffer, exactly when it is served. -/
theorem returns_gdbReadMemory
    (addr len : HexField) :
  Returns (gdbReadMemory (addr.text ++ ',' :: len.text)) c FitsBuf ∧
      hexBufferUsed addr.num len.num ≤ hexBufferSize len.num ↔
    ReadServed c addr.num len.num
  := by
  have hrun := run_liftExcept_ok (gdbGetAddrLen_fields addr len) c
  obtain ⟨hlow, hhigh⟩ := len.num_bounds
  rw [gdbReadMemory, Returns.bind_iff_of_ok hrun]
  simp only
  rw [Returns.bind_iff]
  simp only [returns_gdbSendReply_fits]
  rw [returns_gdbReadSegment, hexBufferUsed_le_size hlow hhigh, ReadServed]
  simp only [sramOffset, eepromOffset]
  split_ifs with hsram hflash hodd
  · apply and_iff_left
    left
    omega
  · rw [and_comm, or_iff_right (not_not_intro ⟨hflash, hodd⟩)]
  · apply and_iff_left
    left
    exact fun h => hodd h.2
  · apply and_iff_left
    left
    exact fun h => hflash h.1

end

/-! ### Writes of memory -/

section

variable {δ : Type} {c : AvrCore δ}

/-- A byte written to the flash. -/
theorem returns_storageWriteb
    {addr : Int} {val : Byte} {Q : AvrCore δ → Prop}
    (hQ : ∀ flash : Flash, Q { c with flash := flash }) :
  Returns (do
    let flash ← gets AvrCore.flash
    let flash ← liftExcept (storageWriteb flash addr val)
    update (fun c => { c with flash := flash }) : CoreM δ Unit) c (fun _ d => Q d) ↔
    0 ≤ addr - c.flash.base ∧ addr - c.flash.base < c.flash.size
  := by
  rw [Returns.bind_iff_of_ok (run_gets _ c)]
  by_cases h : 0 ≤ addr - c.flash.base ∧ addr - c.flash.base < c.flash.size
  · have hwrite : storageWriteb c.flash addr val = .ok { c.flash with
        data := Function.update c.flash.data (addr - c.flash.base) val } := by
      rw [storageWriteb, if_neg (by omega)]
    rw [Returns.bind_iff_of_ok (run_liftExcept_ok hwrite c), Returns.iff_of_ok (run_update _ c)]
    exact iff_of_true (hQ _) h
  · have herror : ∃ e, storageWriteb c.flash addr val = .error e := by
      rw [storageWriteb, if_pos (by omega)]
      exact ⟨_, rfl⟩
    obtain ⟨e, herror⟩ := herror
    apply iff_of_false _ h
    apply Returns.not_of_error
    rw [run_bind_of_error (run_liftExcept_error herror c)]

/-- The loop that writes the words of the flash, before what comes to `p` after the loop. -/
theorem returns_loop_flashWrite
    {text : List Char} {vals : List Byte} (h : Spells text vals) {w : Int} {n : Nat}
    (hn : 2 * n ≤ vals.length) {p : Prop} {Q : List Char → AvrCore δ → Prop}
    (hQ : ∀ rest d, Spells rest (vals.drop (2 * n)) → d.layout = c.layout → (Q rest d ↔ p)) :
  Returns (loop (fun addr pkt => do
    let (low, pkt) ← liftExcept (gdbGetByte pkt)
    let (high, pkt) ← liftExcept (gdbGetByte pkt)
    avrCoreFlashWrite addr (high ++ low)
    return pkt) w n text) c Q ↔
    (∀ i < n, c.flash.Valid (w + (i : Nat))) ∧ p
  := by
  induction n generalizing c w text vals with
  | zero =>
    rw [loop, Returns.pure_iff, hQ text c h rfl]
    exact (and_iff_right fun i hi => absurd hi i.not_lt_zero).symm
  | succ n ih =>
    obtain ⟨low, high, vals, rfl⟩ : ∃ low high vals', vals = low :: high :: vals' := by
      obtain ⟨low, vals, rfl⟩ := List.exists_cons_of_length_pos (by omega : 0 < vals.length)
      rw [List.length_cons] at hn
      obtain ⟨high, vals, rfl⟩ := List.exists_cons_of_length_pos (by omega : 0 < vals.length)
      exact ⟨low, high, vals, rfl⟩
    obtain ⟨text₁, htext₁, hlow⟩ := h.nextByte
    obtain ⟨text₂, htext₂, hhigh⟩ := htext₁.nextByte
    have hn' : 2 * n ≤ vals.length := by
      rw [List.length_cons, List.length_cons] at hn
      omega
    rw [loop, Returns.bind_iff, Returns.bind_iff_of_ok (run_liftExcept_ok hlow c)]
    simp only
    rw [Returns.bind_iff_of_ok (run_liftExcept_ok hhigh c)]
    simp only
    rw [Returns.bind_iff, returns_avrCoreFlashWrite, Returns.pure_iff,
      forall_words_succ (p := c.flash.Valid), and_assoc]
    apply and_congr_right
    intro _
    apply ih (c := c.writeWord w (high ++ low)) htext₂ hn'
    intro rest d hrest hlayout
    apply hQ rest d hrest hlayout

/-- The words of the flash, and the low byte of one more -/
theorem returns_gdbWriteFlashEven
    {text : List Char} {vals : List Byte} (h : Spells text vals) {addr : Int} :
  Returns (gdbWriteFlashEven addr vals.length text) c (fun _ _ => True) ↔
    c.FlashWritable addr vals.length
  := by
  have hn : 2 * (vals.length / 2) ≤ vals.length := by omega
  rw [gdbWriteFlashEven, Returns.bind_iff, AvrCore.FlashWritable]
  apply returns_loop_flashWrite h hn
  intro rest d hrest hlayout
  split
  · next hodd =>
    have hbase : d.flash.base = c.flash.base := congrArg Layout.flashBase hlayout
    have hsize : d.flash.size = c.flash.size := congrArg Layout.flashSize hlayout
    have hlast : vals.drop (2 * (vals.length / 2)) ≠ [] := by
      intro hnil
      have hlength := congrArg List.length hnil
      rw [List.length_drop, List.length_nil] at hlength
      omega
    obtain ⟨bval, vals', hvals'⟩ := List.exists_cons_of_ne_nil hlast
    rw [hvals'] at hrest
    obtain ⟨rest', -, hbyte⟩ := hrest.nextByte
    rw [Returns.bind_iff_of_ok (run_liftExcept_ok hbyte d), ← hbase, ← hsize,
      forall_prop_of_true hodd]
    apply returns_storageWriteb (Q := fun _ => True)
    exact fun _ => trivial
  · next heven =>
    rw [Returns.pure_iff]
    exact iff_of_true trivial (absurd · heven)

variable [IoDevices δ]

/-- The loop that writes the data memory. -/
theorem returns_gdbWriteSram
    {text : List Char} {vals : List Byte} (h : Spells text vals) {addr : Int} :
  Returns (gdbWriteSram addr vals.length text) c (fun _ _ => True) ↔ AcceptsWrites vals addr c
  := by
  induction vals generalizing c addr text with
  | nil => exact iff_of_true ⟨text, c, rfl, trivial⟩ trivial
  | cons val vals ih =>
    obtain ⟨text', htext', hbyte⟩ := h.nextByte
    rw [gdbWriteSram, List.length_cons, loop, Returns.bind_iff,
      Returns.bind_iff_of_ok (run_liftExcept_ok hbyte c)]
    simp only
    rw [Returns.bind_iff]
    simp only [Returns.pure_iff]
    rw [AcceptsWrites]
    simp only [← ih htext']
    rfl

/-- The loop that writes the EEPROM. -/
theorem returns_gdbWriteEeprom
    {text : List Char} {vals : List Byte} (h : Spells text vals) (addr : Int) :
  Returns (gdbWriteEeprom addr vals.length text) c (fun _ _ => True)
  := by
  induction vals generalizing c addr text with
  | nil => exact ⟨text, c, rfl, trivial⟩
  | cons val vals ih =>
    obtain ⟨text', htext', hbyte⟩ := h.nextByte
    rw [gdbWriteEeprom, List.length_cons, loop, Returns.bind_iff,
      Returns.bind_iff_of_ok (run_liftExcept_ok hbyte c)]
    simp only
    rw [Returns.bind_iff_of_ok (run_update _ c), Returns.pure_iff]
    apply ih htext'

omit [IoDevices δ] in
/-- A write of the flash is served. -/
theorem returns_gdbWriteFlash
    {text : List Char} {vals : List Byte} (h : Spells text vals) {addr : Int} :
  Returns (gdbWriteFlash addr vals.length text) c (fun _ _ => True) ↔
    if addr % 2 = 1 then
      vals ≠ [] ∧ c.flash.Valid (addr.tdiv 2) ∧ c.FlashWritable (addr + 1) (vals.length - 1)
    else
      c.FlashWritable addr vals.length
  := by
  rw [gdbWriteFlash]
  split
  · cases vals with
    | nil =>
      cases h
      rw [iff_false_right (fun h => h.1 rfl)]
      apply Returns.not_of_error
      apply run_bind_of_error (run_liftExcept_error gdbGetByte_nil c)
    | cons val vals =>
      obtain ⟨text', htext', hbyte⟩ := h.nextByte
      have hlength : ((((val :: vals).length : Nat) : Int) - 1).toNat = vals.length := by
        rw [List.length_cons]
        omega
      have heven : vals.length = (val :: vals).length - 1 := rfl
      rw [Returns.bind_iff_of_ok (run_liftExcept_ok hbyte c), hlength, ← heven,
        and_iff_right (List.cons_ne_nil val vals)]
      simp only
      rw [Returns.bind_iff, avrCoreFlashWriteHi8]
      by_cases hvalid : c.flash.Valid (addr.tdiv 2)
      · have hwrite := Flash.storageWriteb_high hvalid val
        rw [Returns.bind_iff_of_ok (run_gets _ c),
          Returns.bind_iff_of_ok (run_liftExcept_ok hwrite c), Returns.iff_of_ok (run_update _ c),
          returns_gdbWriteFlashEven htext', and_iff_right hvalid]
        rfl
      · rw [iff_false_right (fun h => hvalid h.1)]
        intro hreturns
        apply hvalid
        apply (returns_storageWriteb (Q := fun _ => True) fun _ => trivial).mp
        apply hreturns.mono
        exact fun _ _ _ => trivial
  · rw [Int.toNat_natCast]
    apply returns_gdbWriteFlashEven h

/-- A write of memory is answered exactly when it is served. -/
theorem returns_gdbWriteMemory
    (addr len : HexField) (data : HexData) (hdata : data.vals.length = len.value)
    (hlen : len.value < 2 ^ 31) :
  Returns (gdbWriteMemory (addr.text ++ ',' :: (len.text ++ ':' :: data.text))) c FitsBuf ↔
    WriteServed c addr.num data.vals
  := by
  have hnum : len.num = (data.vals.length : Nat) := by rw [HexField.num_of_lt hlen, hdata]
  rw [gdbWriteMemory,
    Returns.bind_iff_of_ok (run_liftExcept_ok (gdbGetAddrLen_data addr len data.text) c)]
  simp only
  rw [returns_ok_iff, hnum, gdbWriteSegment, WriteServed]
  have hdrop {x : CoreM δ (List Char)} : Returns (do let _ ← x) c (fun _ _ => True) ↔
      Returns x c fun _ _ => True := by
    rw [Returns.bind_iff]
    simp only [Returns.pure_iff]
  split_ifs
  · rw [hdrop, Int.toNat_natCast, returns_gdbWriteSram data.spells]
  · next hodd =>
    rw [returns_gdbWriteFlash data.spells, if_pos hodd]
  · next hodd =>
    rw [returns_gdbWriteFlash data.spells, if_neg hodd]
  · rw [hdrop, Int.toNat_natCast]
    exact iff_of_true (returns_gdbWriteEeprom data.spells _) trivial

end

/-! ### Breakpoints, resuming and I/O registers -/

section

variable {δ : Type} {c : AvrCore δ}

/-- A breakpoint is answered exactly when it is served. -/
theorem returns_gdbBreakPoint
    {t : Char} (ht : t ∈ ['0', '1', '2', '3', '4']) (insert : Bool) (addr len : HexField) :
  Returns (gdbBreakPoint (if insert then 'Z' else 'z') (t :: ',' :: (addr.text ++ ',' :: len.text)))
      c FitsBuf ↔
    t ≠ '0' ∨ BreakServed c insert (addr.num.tdiv 2)
  := by
  have hrun := run_liftExcept_ok (gdbGetAddrLen_fields addr len) c
  change Returns (liftExcept (gdbGetAddrLen (addr.text ++ ',' :: len.text) ',' nul) >>= _) c _ ↔ _
  rw [Returns.bind_iff_of_ok hrun]
  change Returns (if t = '0' then _ else if t ∈ ['1', '2', '3', '4'] then _ else _) c _ ↔ _
  by_cases hsoftware : t = '0'
  · rw [if_pos hsoftware, or_iff_right (not_not_intro hsoftware), BreakServed,
      Returns.bind_iff_of_ok (run_gets _ c)]
    by_cases hmax : addr.num.tdiv 2 ≥ c.pcMax
    · rw [if_pos hmax, returns_gdbSendReply_fits]
      exact iff_of_true (by decide) (.inl hmax)
    · rw [if_neg hmax, or_iff_right hmax]
      cases insert with
      | true =>
        have hZ : (if true = true then 'Z' else 'z') ≠ 'z' := by decide
        rw [if_neg hZ, returns_ok_iff, avrCoreInsertBreakpoint, Returns.bind_iff,
          returns_avrCoreFlashRead, Returns.bind_iff_of_ok (run_update _ c),
          returns_avrCoreFlashWrite]
        simp only [and_true, Bool.true_eq_false, false_and, or_false]
        exact and_self_iff
      | false =>
        have hz : (if false = true then 'Z' else 'z') = 'z' := rfl
        rw [if_pos hz, returns_ok_iff]
        cases hlookup : c.brkPtLookup (addr.num.tdiv 2) with
        | none =>
          rw [Returns.iff_of_ok (run_avrCoreRemoveBreakpoint_of_none hlookup)]
          exact iff_of_true trivial (.inr ⟨rfl, rfl⟩)
        | some bp =>
          rw [AvrCore.brkPtLookup] at hlookup
          rw [avrCoreRemoveBreakpoint, Returns.bind_iff_of_ok (run_gets _ c), hlookup]
          simp only
          rw [Returns.bind_iff_of_ok (run_update _ c), returns_avrCoreFlashWrite]
          simp only [and_true, reduceCtorEq, and_false, or_false]
  · have ht' : t ∈ ['1', '2', '3', '4'] := (List.mem_cons.mp ht).resolve_left hsoftware
    rw [if_neg hsoftware, if_pos ht', returns_gdbSendReply_fits]
    exact iff_of_true (by decide) (.inl hsoftware)

variable [IoDevices δ] {l : Layout}

/-- A packet to resume is answered exactly when the loop is not running and the packet has no
address. -/
theorem returns_gdbContinue
    (hl : l.HasCells) (hc : c.layout = l) (isRunning : Bool) (step : Char) (pkt : List Char) :
  Returns (gdbContinue isRunning step pkt) c Answered ↔
    isRunning = false ∧ pkt.headD nul = nul
  := by
  rw [gdbContinue]
  cases isRunning with
  | true =>
    rw [if_pos rfl, Returns.pure_iff]
    exact iff_of_false id fun h => Bool.noConfusion h.1
  | false =>
    rw [if_neg Bool.false_ne_true]
    by_cases hnul : pkt.headD nul = nul
    · rw [Returns.bind_iff_of_ok (run_avrErrorIf_neg (not_not_intro hnul) _ _ c), Returns.pure_iff]
      apply iff_of_true _ ⟨rfl, hnul⟩
      intro d hd signo
      apply returns_gdbStopReply hl (hd.trans hc)
    · apply iff_of_false _ fun h => hnul h.2
      apply Returns.not_of_error
      apply run_bind_of_error (run_avrErrorIf_pos hnul _ _ c)

/-- The text of the I/O registers fits a reply. -/
theorem returns_loop_memIoFetch
    (cellName : Int → Option (List Char)) {addr : Int} {n : Nat} {reply : List Char} :
  Returns (loop (fun i reply => do
    let (name, val) ← memIoFetch cellName (i + ioRegAddrBegin)
    return reply ++ name ++ [','] ++ hexNum val ++ [';']) addr n reply) c
      (fun text _ => text.length < maxBuf - 4) ↔
    FitsReply cellName n addr reply.length c
  := by
  induction n generalizing addr reply c with
  | zero =>
    rw [loop, Returns.pure_iff]
    rfl
  | succ n ih =>
    rw [loop, Returns.bind_iff, Returns.bind_iff]
    simp only [Returns.pure_iff, ih, List.length_append, List.length_singleton]
    rfl

/-- A query for I/O registers -/
theorem returns_gdbQueryRequest_ioRegs
    (cellName : Int → Option (List Char)) (addr len : HexField) :
  Returns (gdbQueryRequest cellName
      ("Ravr.io_reg:".toList ++ (addr.text ++ ',' :: len.text))) c FitsBuf ↔
    FitsReply cellName len.num.toNat addr.num 0 c
  := by
  have hrun := run_liftExcept_ok (gdbGetAddrLen_fields addr len) c
  change Returns (liftExcept (gdbGetAddrLen (addr.text ++ ',' :: len.text) ',' nul) >>= _) c _ ↔ _
  rw [Returns.bind_iff_of_ok hrun]
  simp only
  rw [Returns.bind_iff]
  simp only [returns_gdbSendReply_fits]
  apply returns_loop_memIoFetch

end

/-! ### Signals -/

section

variable {δ : Type} [IoDevices δ] {l : Layout} {c : AvrCore δ}

/-- The byte of a signal -/
theorem HexData.getByte_signo
    (sig : HexData) (hsig : sig.vals.length = 1) (rest : List Char) :
  gdbGetByte (sig.text ++ rest) = .ok (sig.signo, rest)
  := by
  obtain ⟨val, hval⟩ := List.length_eq_one_iff.mp hsig
  have hspells := sig.spells
  rw [hval] at hspells
  obtain ⟨text', htext', hbyte⟩ := hspells.getByte rest
  cases htext'
  rw [hbyte, HexData.signo, hval]
  rfl

/-- A packet to resume with a signal is answered exactly when it resets, or resumes without an
address. -/
theorem returns_gdbContinueWithSignal
    (hl : l.HasCells) (hc : c.layout = l) (isRunning : Bool) {step : Char} (hstep : step ≠ nul)
    (sig : HexData) (hsig : sig.vals.length = 1) (addr : Option HexField) :
  Returns (gdbContinueWithSignal isRunning step
      (sig.text ++ (addr.map fun f => ';' :: f.text).getD [])) c Answered ↔
    sig.signo = 1 ∨ isRunning = false ∧ addr = none
  := by
  have hbyte := sig.getByte_signo hsig ((addr.map fun f => ';' :: f.text).getD [])
  rw [gdbContinueWithSignal, Returns.bind_iff_of_ok (run_liftExcept_ok hbyte c)]
  simp only
  by_cases hsighup : sig.signo = 1
  · rw [if_pos hsighup, Returns.bind_iff_of_ok (run_update _ c), answered_reply_iff,
      returns_gdbSendReply_fits]
    exact iff_of_true (by decide) (.inl hsighup)
  · rw [if_neg hsighup, or_iff_right hsighup, Returns.bind_iff_of_ok (run_update _ c)]
    have hc' : (if sig.signo ≥ 94 then c.irqRaise (sig.signo.toNat - 94) else c).layout = l := by
      split
      · exact hc
      · exact hc
    cases addr with
    | none =>
      change Returns (gdbContinue isRunning step []) _ Answered ↔ _
      rw [returns_gdbContinue hl hc']
      exact and_congr_right fun _ => iff_of_true rfl rfl
    | some f =>
      change Returns (gdbContinue isRunning _ (step :: f.text)) _ Answered ↔ _
      rw [returns_gdbContinue hl hc']
      exact and_congr_right fun _ => iff_of_false hstep (Option.some_ne_none f)

end

/-! ### Packets -/

section

variable {δ : Type} [IoDevices δ] {l : Layout} {c : AvrCore δ}
  {cellName : Int → Option (List Char)} {isRunning : Bool}

/-- A packet that is neither a read of memory nor a signal. -/
theorem robust_iff_answers
    {ch : Char} {rest : List Char} (hread : ch ≠ 'm') (hsignal : ch ∉ ['C', 'S']) :
  Robust cellName isRunning c (ch :: rest) ↔
    Returns (gdbParsePacket cellName isRunning (ch :: rest)) c Answered
  := by
  constructor
  · apply Robust.answers
  · intro h
    constructor
    · apply h
    · intro rest' addr len rest'' hpkt
      exact absurd (List.cons.inj hpkt).1 hread
    · intro step rest' signo rest'' hpkt hstep
      obtain ⟨rfl, -⟩ := List.cons.inj hpkt
      contradiction

/-- A packet whose handler replies. -/
theorem robust_reply_iff
    {ch : Char} {rest : List Char} (hread : ch ≠ 'm') (hsignal : ch ∉ ['C', 'S'])
    {x : CoreM δ (List Char)}
    (hx : gdbParsePacket cellName isRunning (ch :: rest) = do return .reply (← x)) :
  Robust cellName isRunning c (ch :: rest) ↔ Returns x c FitsBuf
  := by
  rw [robust_iff_answers hread hsignal, hx, answered_reply_iff]

/-- The packets that reset. -/
theorem returns_reset_reply :
  Returns (do
    update AvrCore.reset
    return .kill (← gdbSendReply "OK".toList) : CoreM δ Handled) c Answered
  := by
  have hlength : "OK".toList.length < maxBuf - 4 := by decide
  rw [Returns.bind_iff_of_ok (run_update _ c),
    Returns.bind_iff_of_ok (run_gdbSendReply hlength), Returns.pure_iff]
  change "OK".toList.length + 4 ≤ maxBuf
  decide

/-- A read of memory is robust exactly when it is served. -/
theorem robust_readMemory
    (addr len : HexField) :
  Robust cellName isRunning c ('m' :: (addr.text ++ ',' :: len.text)) ↔
    ReadServed c addr.num len.num
  := by
  rw [← returns_gdbReadMemory]
  constructor
  · intro h
    constructor
    · apply answered_reply_iff.mp h.answers
    · apply h.hexBuffer _ _ _ _ rfl (gdbGetAddrLen_fields addr len)
  · rintro ⟨hanswers, hbuffer⟩
    constructor
    · apply answered_reply_iff.mpr hanswers
    · intro rest addr' len' rest' hpkt hfields
      obtain rfl := (List.cons.inj hpkt).2
      rw [gdbGetAddrLen_fields] at hfields
      obtain ⟨rfl, rfl, -⟩ := Prod.mk.inj (Except.ok.inj hfields)
      apply hbuffer
    · intro step rest signo rest' hpkt hstep
      obtain ⟨rfl, -⟩ := List.cons.inj hpkt
      exact absurd hstep (by decide)

/-- A signal is robust exactly when it is answered and its interrupt is in the vector table. -/
theorem robust_resumeWithSignal
    (hl : l.HasCells) (hc : c.layout = l) {ch : Char} (hch : ch ∈ ['C', 'S'])
    (sig : HexData) (hsig : sig.vals.length = 1) (addr : Option HexField)
    (hparse : ∀ pkt, gdbParsePacket cellName isRunning (ch :: pkt)
      = gdbContinueWithSignal (δ := δ) isRunning ch pkt) :
  Robust cellName isRunning c (ch :: (sig.text ++ (addr.map fun f => ';' :: f.text).getD [])) ↔
    sig.signo = 1 ∨ sig.signo.toNat < 94 + irqVectTableSize ∧ isRunning = false ∧ addr = none
  := by
  have hnul : ch ≠ nul := by
    rintro rfl
    exact absurd hch (by decide)
  have hreturns := returns_gdbContinueWithSignal hl hc isRunning hnul sig hsig addr
  rw [← hparse] at hreturns
  have hbyte := sig.getByte_signo hsig ((addr.map fun f => ';' :: f.text).getD [])
  constructor
  · intro h
    obtain hsighup | hanswered := hreturns.mp h.answers
    · exact .inl hsighup
    · by_cases hsighup : sig.signo = 1
      · exact .inl hsighup
      · refine .inr ⟨?_, hanswered⟩
        have hirq := h.irq _ _ _ _ rfl hch hbyte hsighup
        by_cases hraise : sig.signo ≥ 94
        · have hslot := hirq hraise
          omega
        · have hlow : sig.signo.toNat < (94 : Byte).toNat := BitVec.not_le.mp hraise
          exact hlow.trans (by decide)
  · intro h
    constructor
    · apply hreturns.mpr
      obtain hsighup | ⟨-, hanswered⟩ := h
      · exact .inl hsighup
      · exact .inr hanswered
    · intro rest addr' len rest' hpkt
      obtain ⟨rfl, -⟩ := List.cons.inj hpkt
      exact absurd hch (by decide)
    · intro step rest signo rest' hpkt _ hbyte' hsighup hraise
      obtain ⟨rfl, rfl⟩ := List.cons.inj hpkt
      rw [hbyte] at hbyte'
      obtain ⟨rfl, -⟩ := Prod.mk.inj (Except.ok.inj hbyte')
      obtain ⟨hslot, -⟩ := h.resolve_left hsighup
      have hlow : (94 : Byte).toNat ≤ sig.signo.toNat := hraise
      have h94 : (94 : Byte).toNat = 94 := rfl
      omega

/-- Text of bytes has two digits for each. -/
theorem Spells.length_eq
    {text : List Char} {vals : List Byte} (h : Spells text vals) :
  text.length = 2 * vals.length
  := by
  induction h with
  | nil => rfl
  | cons _ _ _ ih =>
    simp only [List.length_cons, ih]
    omega

/-- A packet of 400 characters has not many bytes. -/
theorem length_le_of_writeMemory
    {addr len : HexField} {data : HexData} (hdata : data.vals.length = len.value)
    (hlength : (GdbPacket.writeMemory addr len data hdata).text.length ≤ maxBuf) :
  len.value ≤ maxBuf
  := by
  have hspells := data.spells.length_eq
  change ('M' :: (addr.text ++ ',' :: (len.text ++ ':' :: data.text))).length ≤ maxBuf at hlength
  simp only [List.length_cons, List.length_append] at hlength
  omega

/-- A packet is robust exactly when it is served. -/
theorem robust_iff_served
    (hl : l.HasCells) (hc : c.layout = l) (p : GdbPacket) (hlength : p.text.length ≤ maxBuf) :
  Robust cellName isRunning c p.text ↔ p.Served cellName isRunning c
  := by
  cases p with
  | lastSignal =>
    apply (robust_reply_iff (by decide) (by decide) rfl).trans
    rw [returns_gdbSendReply_fits]
    exact iff_of_true (by decide) trivial
  | readRegisters =>
    apply (robust_reply_iff (by decide) (by decide) rfl).trans
    exact iff_of_true (returns_gdbReadRegisters hl hc) trivial
  | writeRegisters data hdata =>
    apply (robust_reply_iff (by decide) (by decide) rfl).trans
    exact iff_of_true (returns_gdbWriteRegisters hl hc data hdata) trivial
  | readRegister n =>
    apply (robust_reply_iff (by decide) (by decide) rfl).trans
    apply returns_gdbReadRegister hl hc
  | writeRegister n r hr =>
    apply (robust_reply_iff (by decide) (by decide) rfl).trans
    apply returns_gdbWriteRegister hl hc n r hr
  | readMemory addr len => apply robust_readMemory
  | writeMemory addr len data hdata =>
    apply (robust_reply_iff (by decide) (by decide) rfl).trans
    apply returns_gdbWriteMemory addr len data hdata
    apply (length_le_of_writeMemory hdata hlength).trans_lt
    decide
  | kill =>
    apply (robust_iff_answers (by decide) (by decide)).trans
    exact iff_of_true returns_reset_reply trivial
  | detach =>
    apply (robust_iff_answers (by decide) (by decide)).trans
    exact iff_of_true returns_reset_reply trivial
  | resume step addr =>
    have hread : (if step then 's' else 'c') ≠ 'm' := by cases step <;> decide
    have hsignal : (if step then 's' else 'c') ∉ ['C', 'S'] := by cases step <;> decide
    have hparse : gdbParsePacket cellName isRunning ((if step then 's' else 'c') :: addr.text)
        = gdbContinue (δ := δ) isRunning (if step then 's' else 'c') addr.text := by
      cases step
      · rfl
      · rfl
    have hnul : addr.text.headD nul = nul ↔ addr.text = [] := addr.headD_eq_nul
    apply (robust_iff_answers hread hsignal).trans
    rw [hparse, returns_gdbContinue hl hc, hnul]
    rfl
  | resumeWithSignal step sig hsig addr =>
    cases step with
    | true => apply robust_resumeWithSignal hl hc (by decide) sig hsig addr fun _ => rfl
    | false => apply robust_resumeWithSignal hl hc (by decide) sig hsig addr fun _ => rfl
  | breakPoint insert t ht addr len =>
    cases insert with
    | true =>
      apply (robust_reply_iff (by decide) (by decide) rfl).trans
      apply returns_gdbBreakPoint ht true addr len
    | false =>
      apply (robust_reply_iff (by decide) (by decide) rfl).trans
      apply returns_gdbBreakPoint ht false addr len
  | ioRegCount =>
    apply (robust_reply_iff (by decide) (by decide) rfl).trans
    apply iff_of_true _ trivial
    change Returns (gdbSendReply "40".toList) c FitsBuf
    rw [returns_gdbSendReply_fits]
    decide
  | ioRegs addr len =>
    apply (robust_reply_iff (by decide) (by decide) rfl).trans
    apply returns_gdbQueryRequest_ioRegs

end

/-- The devices with SP in place have the cells of the debugger. -/
theorem construct_hasCells
    {δ : Type} {dev : DevSuppDefn} (h : dev.Placed) (io : δ) :
  (AvrCore.construct dev io).layout.HasCells
  := by
  constructor
  · apply construct_placed h io
  · change (0x5e : Int) ≤ 0xffff
    decide

/-- A packet of at most 400 characters is handled without an abort and within the buffers and
the vector table exactly when its fields and the core admit it. -/
theorem packet_robust_iff
    {δ : Type} [IoDevices δ] {dev : DevSuppDefn} (hdev : dev.Placed) (io : δ) {c : AvrCore δ}
    (hc : c.layout = (AvrCore.construct dev io).layout) (cellName : Int → Option (List Char))
    (isRunning : Bool) (p : GdbPacket) (hlength : p.text.length ≤ maxBuf) :
  Robust cellName isRunning c p.text ↔ p.Served cellName isRunning c
  := robust_iff_served (construct_hasCells hdev io) hc p hlength

/-- Reading a register of the OsEID128 -/
theorem packet_robust_register :
  Robust (fun _ => none) false (AvrCore.construct defnOsEID128 ()) "p21".toList
  := by
  let n : HexField := ⟨"21".toList, 0x21, rfl⟩
  apply (packet_robust_iff placed_OsEID128 () rfl (fun _ => none) false (.readRegister n)
    (by decide)).mpr
  change "21".toList.length ≤ 8
  decide

/-- The signal 0xff asks for an interrupt that is not in the vector table. -/
theorem packet_signal_out_of_table :
  ∃ p : GdbPacket, p.text = "Cff".toList ∧ p.text.length ≤ maxBuf ∧
    ¬ Robust (fun _ => none) false (AvrCore.construct defnOsEID128 ()) p.text
  := by
  have hspells : Spells "ff".toList [0xff] := .cons (x := 0xf) (y := 0xf) rfl rfl .nil
  use .resumeWithSignal false ⟨"ff".toList, [0xff], hspells⟩ rfl none
  refine ⟨rfl, (show 3 ≤ 400 by decide), ?_⟩
  intro h
  have hirq := h.irq 'C' "ff".toList 0xff [] rfl (by decide) rfl (by decide) (by decide)
  exact absurd hirq (by decide)

end SimulAvr
