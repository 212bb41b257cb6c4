import SimulAvr.Display

/-!
# The VCD writer

The display coprocess that writes a VCD file: it parses the packets of the simulator, and writes
the values of the traced signals below lines with the time.  The time is the clock of the
simulator in nanoseconds, computed in 32 bits from a rounded number of nanoseconds for a clock,
and it is right as long as neither matters (`vcd_times_iff`).
-/

namespace SimulAvr

open Program

/-! ### The coprocess -/

/-- What is written to the VCD file -/
inductive VcdLine where
  /-- the header, which goes to the beginning of the file -/
  | header
  /-- `#%i` -/
  | time (t : Int)
  /-- `vcd_write_bit8` and the shortcut of the signal -/
  | bit8 (val : Byte) (shortcut : List Char)
  /-- `vcd_write_bit16` and the shortcut of the signal -/
  | bit16 (val : Word) (shortcut : List Char)
deriving DecidableEq

/-- `t_signal`, of which only the IO registers are looked up -/
structure VcdSignal where
  name : Option (List Char)
  addr : Int
deriving DecidableEq

/-- The VCD writer: its variables, and what it has written -/
structure Vcd where
  /-- `vcd_file` is open. -/
  opened : Bool
  frequency : BitVec 32
  /-- `sizes.sram_size` -/
  sramSize : Int
  ioRegSignals : List VcdSignal
  ioRegDumpTable : Nat → Bool
  regDumpTable : Nat → Bool
  sramDumpTable : Nat → Bool
  spDumpTable : Bool
  pcDumpTable : Bool
  spreg : BitVec 32
  firstClockOccured : Bool
  clk : BitVec 32
  /-- `written_clk` of `vcd_write_clock` -/
  writtenClk : BitVec 32
  /-- `written_sp` of `vcd_write_sp` -/
  writtenSp : BitVec 32
  file : List VcdLine

/-- The ends of the VCD writer -/
inductive VcdEnd where
  /-- It ends as the display does. -/
  | disp (e : DispEnd)
  /-- It divides by a frequency of 0. -/
  | divide
deriving DecidableEq

/-- The variables of the coprocess start out so, whatever `vcd.cfg` says. -/
structure Vcd.Fresh (d : Vcd) : Prop where
  clk : d.clk = 0
  writtenClk : d.writtenClk = -1
  file : d.file = []

/-- `MAX_IO_REG` -/
abbrev vcdMaxIoReg : Nat := 64

/-- `MAX_REG` -/
abbrev vcdMaxReg : Nat := 32

/-- `vcd_set_clock` -/
def vcdSetClock (c : BitVec 32) (d : Vcd) : Vcd :=
  { d with clk := c }

/-- `factor` -/
abbrev vcdFactor : BitVec 32 := 1000000000

/-- `vcd_write_clock` -/
def vcdWriteClock (d : Vcd) : Except VcdEnd Vcd :=
  if d.opened = false ∨ d.clk = d.writtenClk then .ok d
  else if d.frequency = 0 then .error .divide
  else
    .ok { d with
      writtenClk := d.clk
      file := d.file ++ [.time (d.clk * (vcdFactor / d.frequency)).toInt] }

/-- The part that the functions which write a signal share -/
def vcdWriteLine (line : VcdLine) (d : Vcd) : Except VcdEnd Vcd := do
  let d ← vcdWriteClock d
  .ok { d with file := d.file ++ [line] }

/-- `vcd_write_io_reg` -/
def vcdWriteIoReg (ioRegAddr : BitVec 32) (val : Byte) (d : Vcd) : Except VcdEnd Vcd :=
  if d.opened = false then .ok d
  else if vcdMaxIoReg ≤ ioRegAddr.toNat then .error (.disp .overrun)
  else if d.ioRegDumpTable ioRegAddr.toNat = false then .ok d
  else vcdWriteLine (.bit8 val ("ioreg".toList ++ hexInt ioRegAddr.toInt)) d

/-- `vcd_write_reg` -/
def vcdWriteReg (regNum : BitVec 32) (val : Byte) (d : Vcd) : Except VcdEnd Vcd :=
  if d.opened = false then .ok d
  else if vcdMaxReg ≤ regNum.toNat then .error (.disp .overrun)
  else if d.regDumpTable regNum.toNat = false then .ok d
  else vcdWriteLine (.bit8 val ("reg".toList ++ hexInt regNum.toInt)) d

/-- `vcd_write_sram` -/
def vcdWriteSram (sramAddr : BitVec 32) (val : Byte) (d : Vcd) : Except VcdEnd Vcd :=
  if d.opened = false then .ok d
  else if sramAddr.toInt < 0 ∨ sramAddr.toInt > d.sramSize - 1 then .ok d
  else if d.sramDumpTable sramAddr.toNat = false then .ok d
  else vcdWriteLine (.bit8 val ("sram".toList ++ hexInt sramAddr.toInt)) d

/-- `vcd_write_sp` -/
def vcdWriteSp (sp : BitVec 32) (d : Vcd) : Except VcdEnd Vcd :=
  if d.opened = false then .ok d
  else if d.spDumpTable = false ∨ sp = d.writtenSp then .ok d
  else vcdWriteLine (.bit16 (sp.setWidth 16) "sp".toList) { d with writtenSp := sp }

/-- `vcd_write_pc` -/
def vcdWritePc (pc : BitVec 32) (d : Vcd) : Except VcdEnd Vcd :=
  if d.opened = false then .ok d
  else if d.pcDumpTable = false then .ok d
  else vcdWriteLine (.bit16 (pc.setWidth 16) "pc".toList) d

/-- `vcd_write_header`, of which the text is left out -/
def vcdWriteHeader (d : Vcd) : Vcd :=
  if d.opened = false then d else { d with file := d.file ++ [.header] }

/-- The name or the address of a signal matches. -/
def VcdSignal.matches (p : VcdSignal) (name : List Char) (addr : Int) : Bool :=
  p.addr = addr || p.name = some name

/-- `vcd_bind_io_reg_shortcut` -/
def vcdBindIoRegShortcut (name : List Char) (addr : BitVec 32) (d : Vcd) : Except VcdEnd Vcd :=
  if d.ioRegSignals.any (·.matches name addr.toInt) = false then .ok d
  else if vcdMaxIoReg ≤ addr.toNat then .error (.disp .overrun)
  else
    .ok { d with
      ioRegDumpTable := Function.update d.ioRegDumpTable addr.toNat true
      ioRegSignals := d.ioRegSignals.map fun p =>
        if p.matches name addr.toInt then
          ⟨some (hexInt addr.toInt ++ '_' :: name), addr.toInt⟩
        else p }

/-- `hex2nib` -/
def vcdHex2nib (hex : Char) : Except VcdEnd Byte :=
  (dispHex2nib hex).mapError .disp

/-- The loop of `disp_set_sram_values`, of which `n` bytes from `addr` on are left. -/
def vcdSetSramLoop (addr : BitVec 32) : Nat → List Char → Vcd → Except VcdEnd Vcd
  | 0, _, d => .ok d
  | n + 1, pkt, d => do
    let high ← vcdHex2nib (pkt.headD nul)
    let low ← vcdHex2nib (pkt.tail.headD nul)
    let d ← vcdWriteSram addr (high <<< 4 + low) d
    vcdSetSramLoop (addr + 1) n (pkt.drop 2) d

/-- `disp_set_sram_values` -/
def vcdSetSramValues (pkt : List Char) (d : Vcd) : Except VcdEnd Vcd :=
  match scanPair ',' pkt with
  | none => .ok d
  | some (addr, len) =>
    match pkt.dropWhile (· ≠ ':') with
    | [] => .error (.disp .overrun)
    | _ :: pkt => vcdSetSramLoop addr len.toNat pkt d

/-- The branch of `disp_parse_packet` for the time. -/
def vcdSetTime (pkt : List Char) (d : Vcd) : Vcd :=
  let d :=
    match scanHex pkt with
    | some (bval, _) => vcdSetClock bval d
    | none => d
  if d.firstClockOccured then d else vcdWriteHeader { d with firstClockOccured := true }

/-- The stack pointer in the branch of `disp_parse_packet` for an IO register -/
def vcdSetSp (val bval : BitVec 32) (d : Vcd) : Except VcdEnd Vcd :=
  if val = 0x3d then
    vcdWriteSp (setLow d.spreg bval) { d with spreg := setLow d.spreg bval }
  else if val = 0x3e then
    vcdWriteSp (setHigh d.spreg bval) { d with spreg := setHigh d.spreg bval }
  else .ok d

/-- The branch of `disp_parse_packet` for an IO register -/
def vcdSetIoReg (val bval : BitVec 32) (d : Vcd) : Except VcdEnd Vcd := do
  let d ← vcdSetSp val bval d
  vcdWriteIoReg val (bval.setWidth 8) d

/-- The branch of `disp_parse_packet` for the name of an IO register, which has room for 50
characters. -/
def vcdSetName (pkt : List Char) (d : Vcd) : Except VcdEnd Vcd :=
  match scanHex pkt with
  | some (val, ':' :: text) =>
    if scanName text = [] then .ok d
    else if (scanName text).length ≥ 50 then .error (.disp .overrun)
    else vcdBindIoRegShortcut (scanName text) val d
  | _ => .ok d

/-- `disp_parse_packet` of the VCD writer, where the pairs of registers, which nothing shows, are
left out -/
def vcdParsePacket (pkt : List Char) (d : Vcd) : Except VcdEnd Vcd :=
  let rest := pkt.tail
  match pkt.headD nul with
  | 'q' => .error (.disp .quit)
  | 'p' =>
    match scanHex rest with
    | some (val, _) => vcdWritePc val d
    | none => .ok d
  | 'n' => .ok (vcdSetTime rest d)
  | 'r' =>
    match scanPair ':' rest with
    | some (val, bval) => vcdWriteReg val (bval.setWidth 8) d
    | none => .ok d
  | 's' => vcdSetSramValues rest d
  | 'i' =>
    match scanPair ':' rest with
    | some (val, bval) => vcdSetIoReg val bval d
    | none => .ok d
  | 'I' => vcdSetName rest d
  | _ => .ok d

/-! ### Runs -/

/-- What the simulator sends to the coprocess -/
inductive VcdEvent where
  /-- `display_clock` for the clock `ck` -/
  | clock (ck : Nat)
  /-- another packet -/
  | packet (pkt : List Char)
deriving DecidableEq

namespace VcdEvent

/-- The text of the packet -/
def text : VcdEvent → List Char
  | clock ck => DisplayMsg.text (.clock ck)
  | packet pkt => pkt

/-- The clock of the simulator after the event, where it was `ck` before. -/
def ck (ck : Nat) : VcdEvent → Nat
  | clock ck' => ck'
  | packet _ => ck

/-- The clock is sent by `display_clock` only. -/
def Proper : VcdEvent → Prop
  | clock _ => True
  | packet pkt => pkt.headD nul ≠ 'n'

end VcdEvent

/-- A packet that the coprocess has parsed: the clock of the simulator, and the coprocess before
and after -/
structure VcdStep where
  ck : Nat
  before : Vcd
  after : Vcd

/-- The packets of a run up to the one that ends the coprocess. -/
def vcdTrace : List VcdEvent → Nat → Vcd → List VcdStep
  | [], _, _ => []
  | ev :: evs, ck, d =>
    match vcdParsePacket ev.text d with
    | .error _ => []
    | .ok d' => ⟨ev.ck ck, d, d'⟩ :: vcdTrace evs (ev.ck ck) d'

/-- `disp_parse_packet` on one packet after the other -/
def vcdRun (evs : List VcdEvent) (d : Vcd) : Except VcdEnd Vcd :=
  evs.foldlM (fun d ev => vcdParsePacket ev.text d) d

/-- The clocks that the simulator sends -/
def vcdClocks (evs : List VcdEvent) : List Nat :=
  evs.filterMap fun
    | .clock ck => some ck
    | .packet _ => none

/-- The time of a line -/
def VcdLine.time? : VcdLine → Option Int
  | time t => some t
  | _ => none

/-- The times in the file -/
def Vcd.times (d : Vcd) : List Int :=
  d.file.filterMap VcdLine.time?

/-- A line with the value of a signal -/
def VcdLine.isSignal : VcdLine → Bool
  | bit8 _ _ => true
  | bit16 _ _ => true
  | _ => false

/-- The number of values in the file -/
def Vcd.values (d : Vcd) : Nat :=
  d.file.countP VcdLine.isSignal

namespace VcdStep

/-- The times that the step writes -/
def stamps (s : VcdStep) : List Int :=
  s.after.times.drop s.before.times.length

/-- The step writes a signal, and the clock is not the one of the last time. -/
def Stamping (s : VcdStep) : Prop :=
  s.before.values < s.after.values ∧ s.before.clk ≠ s.before.writtenClk

end VcdStep

/-! ### What a packet writes -/

@[simp]
theorem Vcd.times_append
    (d : Vcd) (line : VcdLine) :
  { d with file := d.file ++ [line] }.times = d.times ++ line.time?.toList
  := by
  rw [Vcd.times, List.filterMap_append]
  cases line with
  | time t => rfl
  | _ => rfl

@[simp]
theorem Vcd.values_append
    (d : Vcd) (line : VcdLine) :
  { d with file := d.file ++ [line] }.values = d.values + line.isSignal.toNat
  := by
  rw [Vcd.values, List.countP_append]
  cases line with
  | _ => rfl

/-- The time that `vcd_write_clock` writes -/
def Vcd.stamp (d : Vcd) : Int :=
  (d.clk * (vcdFactor / d.frequency)).toInt

/-- The coprocess writes signals, the first of them below a line with the time unless the last
time is that one. -/
structure Writes (d d' : Vcd) : Prop where
  clk : d'.clk = d.clk
  frequency : d'.frequency = d.frequency
  values : d.values ≤ d'.values
  same (h : d.clk = d.writtenClk) : d'.times = d.times ∧ d'.writtenClk = d.writtenClk
  silent (h : d'.values = d.values) : d'.times = d.times ∧ d'.writtenClk = d.writtenClk
  stamps (h : d.clk ≠ d.writtenClk) (hvalues : d.values < d'.values) :
    d'.times = d.times ++ [d.stamp] ∧ d'.writtenClk = d.clk

namespace Writes

theorem refl
    (d : Vcd) :
  Writes d d
  := by
  constructor
  · rfl
  · rfl
  · apply le_refl
  · intro _
    constructor
    · rfl
    · rfl
  · intro _
    constructor
    · rfl
    · rfl
  · intro _ h
    exact absurd h (lt_irrefl _)

/-- Nothing is written, and the clock stays. -/
theorem of_eq
    {d d' : Vcd} (hclk : d'.clk = d.clk) (hwritten : d'.writtenClk = d.writtenClk)
    (hfrequency : d'.frequency = d.frequency) (hfile : d'.file = d.file) :
  Writes d d'
  := by
  have htimes : d'.times = d.times := by rw [Vcd.times, hfile, Vcd.times]
  have hvalues : d'.values = d.values := by rw [Vcd.values, hfile, Vcd.values]
  constructor
  · apply hclk
  · apply hfrequency
  · rw [hvalues]
  · intro _
    use htimes
  · intro _
    use htimes
  · intro _ h
    rw [hvalues] at h
    exact absurd h (lt_irrefl _)

/-- A value is written below the time. -/
theorem of_stamp
    {d d' : Vcd} (hne : d.clk ≠ d.writtenClk) (hclk : d'.clk = d.clk)
    (hfrequency : d'.frequency = d.frequency) (hvalues : d.values + 1 = d'.values)
    (htimes : d'.times = d.times ++ [d.stamp]) (hwritten : d'.writtenClk = d.clk) :
  Writes d d'
  := by
  constructor
  · apply hclk
  · apply hfrequency
  · omega
  · intro heq
    contradiction
  · intro heq
    omega
  · intro _ _
    use htimes

theorem trans
    {d d' d'' : Vcd} (h : Writes d d') (h' : Writes d' d'') :
  Writes d d''
  := by
  have hle := h.values
  have hle' := h'.values
  constructor
  · rw [h'.clk, h.clk]
  · rw [h'.frequency, h.frequency]
  · apply hle.trans hle'
  · intro heq
    obtain ⟨htimes, hwritten⟩ := h.same heq
    have hstill : d'.clk = d'.writtenClk := by rw [h.clk, heq, hwritten]
    rw [(h'.same hstill).1, (h'.same hstill).2]
    use htimes
  · intro heq
    have hfirst := h.silent (by omega)
    have hsecond := h'.silent (by omega)
    rw [hsecond.1, hsecond.2]
    apply hfirst
  · intro hne hlt
    rcases Nat.lt_or_ge d.values d'.values with hfirst | hfirst
    · -- the second step finds the time of the first one
      obtain ⟨htimes, hwritten⟩ := h.stamps hne hfirst
      have hstill : d'.clk = d'.writtenClk := by rw [h.clk, hwritten]
      rw [(h'.same hstill).1, (h'.same hstill).2]
      use htimes
    · obtain ⟨htimes, hwritten⟩ := h.silent (by omega)
      have hne' : d'.clk ≠ d'.writtenClk := by rwa [h.clk, hwritten]
      obtain ⟨htimes', hwritten'⟩ := h'.stamps hne' (by omega)
      rw [htimes', htimes, Vcd.stamp, h.clk, h.frequency, ← Vcd.stamp, hwritten', h.clk]
      use rfl

end Writes

theorem vcdWriteClock_cases
    {d d' : Vcd} (hopened : d.opened = true) (h : vcdWriteClock d = .ok d') :
  (d.clk = d.writtenClk ∧ d' = d) ∨
    (d.clk ≠ d.writtenClk ∧
      d' = { d with writtenClk := d.clk, file := d.file ++ [.time d.stamp] })
  := by
  rw [vcdWriteClock] at h
  split at h
  · next heq =>
    left
    use by simpa [hopened] using heq
    apply (Except.ok.inj h).symm
  · next hne =>
    right
    split at h
    · contradiction
    · use by simpa [hopened] using hne
      apply (Except.ok.inj h).symm

/-- The value of a signal is written below the time. -/
theorem writes_vcdWriteLine
    {d d' : Vcd} (hopened : d.opened = true) {line : VcdLine} (hline : line.isSignal = true)
    (h : vcdWriteLine line d = .ok d') :
  Writes d d'
  := by
  have htime : line.time? = none := by
    cases line with
    | time t => contradiction
    | _ => rfl
  obtain ⟨d₁, hclock, hd'⟩ := bind_eq_ok.mp h
  obtain rfl := Except.ok.inj hd'
  rcases vcdWriteClock_cases hopened hclock with ⟨heq, rfl⟩ | ⟨hne, rfl⟩
  · constructor
    · rfl
    · rfl
    · simp
    · intro _
      simp [htime]
    · simp [hline]
    · intro hne
      contradiction
  · have hvalues : d.values + 1 = Vcd.values { d with
        writtenClk := d.clk
        file := d.file ++ [.time d.stamp] ++ [line] } := by
      rw [Vcd.values, Vcd.values, List.countP_append, List.countP_append,
        List.countP_singleton, List.countP_singleton, if_pos hline]
      rfl
    have htimes : Vcd.times { d with
        writtenClk := d.clk
        file := d.file ++ [.time d.stamp] ++ [line] } = d.times ++ [d.stamp] := by
      rw [Vcd.times, Vcd.times, List.filterMap_append, List.filterMap_append,
        List.filterMap_cons_none htime, List.filterMap_nil, List.append_nil]
      rfl
    apply Writes.of_stamp hne
    · rfl
    · rfl
    · apply hvalues
    · apply htimes
    · rfl

theorem writes_vcdWriteIoReg
    {ioRegAddr : BitVec 32} {val : Byte} {d d' : Vcd} (h : vcdWriteIoReg ioRegAddr val d = .ok d') :
  Writes d d'
  := by
  rw [vcdWriteIoReg] at h
  split at h
  · obtain rfl := Except.ok.inj h
    apply Writes.refl
  · next hopened =>
    split at h
    · contradiction
    · split at h
      · obtain rfl := Except.ok.inj h
        apply Writes.refl
      · apply writes_vcdWriteLine (by simpa using hopened) rfl h

theorem writes_vcdWriteReg
    {regNum : BitVec 32} {val : Byte} {d d' : Vcd} (h : vcdWriteReg regNum val d = .ok d') :
  Writes d d'
  := by
  rw [vcdWriteReg] at h
  split at h
  · obtain rfl := Except.ok.inj h
    apply Writes.refl
  · next hopened =>
    split at h
    · contradiction
    · split at h
      · obtain rfl := Except.ok.inj h
        apply Writes.refl
      · apply writes_vcdWriteLine (by simpa using hopened) rfl h

theorem writes_vcdWriteSram
    {sramAddr : BitVec 32} {val : Byte} {d d' : Vcd} (h : vcdWriteSram sramAddr val d = .ok d') :
  Writes d d'
  := by
  rw [vcdWriteSram] at h
  split at h
  · obtain rfl := Except.ok.inj h
    apply Writes.refl
  · next hopened =>
    split at h
    · obtain rfl := Except.ok.inj h
      apply Writes.refl
    · split at h
      · obtain rfl := Except.ok.inj h
        apply Writes.refl
      · apply writes_vcdWriteLine (by simpa using hopened) rfl h

theorem writes_vcdWriteSp
    {sp : BitVec 32} {d d' : Vcd} (h : vcdWriteSp sp d = .ok d') :
  Writes d d'
  := by
  rw [vcdWriteSp] at h
  split at h
  · obtain rfl := Except.ok.inj h
    apply Writes.refl
  · next hopened =>
    split at h
    · obtain rfl := Except.ok.inj h
      apply Writes.refl
    · have hset : Writes d { d with writtenSp := sp } := Writes.of_eq rfl rfl rfl rfl
      apply hset.trans
      apply writes_vcdWriteLine _ rfl h
      simpa using hopened

theorem writes_vcdWritePc
    {pc : BitVec 32} {d d' : Vcd} (h : vcdWritePc pc d = .ok d') :
  Writes d d'
  := by
  rw [vcdWritePc] at h
  split at h
  · obtain rfl := Except.ok.inj h
    apply Writes.refl
  · next hopened =>
    split at h
    · obtain rfl := Except.ok.inj h
      apply Writes.refl
    · apply writes_vcdWriteLine (by simpa using hopened) rfl h

theorem writes_vcdBindIoRegShortcut
    {name : List Char} {addr : BitVec 32} {d d' : Vcd}
    (h : vcdBindIoRegShortcut name addr d = .ok d') :
  Writes d d'
  := by
  rw [vcdBindIoRegShortcut] at h
  split at h
  · obtain rfl := Except.ok.inj h
    apply Writes.refl
  · split at h
    · contradiction
    · obtain rfl := Except.ok.inj h
      exact Writes.of_eq rfl rfl rfl rfl

theorem writes_vcdSetSramLoop
    {addr : BitVec 32} {n : Nat} {pkt : List Char} {d d' : Vcd}
    (h : vcdSetSramLoop addr n pkt d = .ok d') :
  Writes d d'
  := by
  induction n generalizing addr pkt d with
  | zero =>
    obtain rfl := Except.ok.inj h
    apply Writes.refl
  | succ n ih =>
    obtain ⟨high, -, h⟩ := bind_eq_ok.mp h
    obtain ⟨low, -, h⟩ := bind_eq_ok.mp h
    obtain ⟨d₁, hwrite, h⟩ := bind_eq_ok.mp h
    apply (writes_vcdWriteSram hwrite).trans
    apply ih h

theorem writes_vcdSetSramValues
    {pkt : List Char} {d d' : Vcd} (h : vcdSetSramValues pkt d = .ok d') :
  Writes d d'
  := by
  rw [vcdSetSramValues] at h
  split at h
  · obtain rfl := Except.ok.inj h
    apply Writes.refl
  · split at h
    · contradiction
    · apply writes_vcdSetSramLoop h

theorem writes_vcdSetSp
    {val bval : BitVec 32} {d d' : Vcd} (h : vcdSetSp val bval d = .ok d') :
  Writes d d'
  := by
  have hset (sp : BitVec 32) : Writes d { d with spreg := sp } := Writes.of_eq rfl rfl rfl rfl
  rw [vcdSetSp] at h
  split at h
  · apply (hset _).trans (writes_vcdWriteSp h)
  · split at h
    · apply (hset _).trans (writes_vcdWriteSp h)
    · obtain rfl := Except.ok.inj h
      apply Writes.refl

theorem writes_vcdSetIoReg
    {val bval : BitVec 32} {d d' : Vcd} (h : vcdSetIoReg val bval d = .ok d') :
  Writes d d'
  := by
  obtain ⟨d₁, hsp, h⟩ := bind_eq_ok.mp h
  apply (writes_vcdSetSp hsp).trans (writes_vcdWriteIoReg h)

theorem writes_vcdSetName
    {pkt : List Char} {d d' : Vcd} (h : vcdSetName pkt d = .ok d') :
  Writes d d'
  := by
  rw [vcdSetName] at h
  split at h
  · split at h
    · obtain rfl := Except.ok.inj h
      apply Writes.refl
    · split at h
      · contradiction
      · apply writes_vcdBindIoRegShortcut h
  · obtain rfl := Except.ok.inj h
    apply Writes.refl

/-- A packet that does not set the time -/
theorem writes_vcdParsePacket
    {pkt : List Char} {d d' : Vcd} (hpkt : pkt.headD nul ≠ 'n')
    (h : vcdParsePacket pkt d = .ok d') :
  Writes d d'
  := by
  rw [vcdParsePacket] at h
  split at h
  · contradiction
  · split at h
    · apply writes_vcdWritePc h
    · obtain rfl := Except.ok.inj h
      apply Writes.refl
  · next heq => exact absurd heq hpkt
  · split at h
    · apply writes_vcdWriteReg h
    · obtain rfl := Except.ok.inj h
      apply Writes.refl
  · apply writes_vcdSetSramValues h
  · split at h
    · apply writes_vcdSetIoReg h
    · obtain rfl := Except.ok.inj h
      apply Writes.refl
  · apply writes_vcdSetName h
  · obtain rfl := Except.ok.inj h
    apply Writes.refl

/-- `display_clock` sets the clock, and nothing is written but the header. -/
theorem vcdParsePacket_clock
    {ck : Nat} {d d' : Vcd} (h : vcdParsePacket (VcdEvent.clock ck).text d = .ok d') :
  d'.clk = .ofNat 32 ck ∧ d'.frequency = d.frequency ∧ d'.times = d.times ∧
    d'.values = d.values ∧ d'.writtenClk = d.writtenClk
  := by
  have hend : EndsNumber [] := nofun
  have hscan : scanHex (hexInt ck) = some (.ofNat 32 ck, []) := by
    have hscan := scanHex_hexInt ck hend
    rw [List.append_nil, BitVec.ofInt_natCast] at hscan
    apply hscan
  have hpacket : vcdParsePacket (VcdEvent.clock ck).text d = .ok (vcdSetTime (hexInt ck) d) := rfl
  rw [hpacket] at h
  obtain rfl := Except.ok.inj h
  rw [vcdSetTime, hscan]
  dsimp only
  split
  · use rfl, rfl, rfl, rfl
    rfl
  · rw [vcdWriteHeader]
    split
    · use rfl, rfl, rfl, rfl
      rfl
    · rw [Vcd.times_append, Vcd.values_append]
      use rfl, rfl, List.append_nil _, rfl
      rfl

/-- A packet writes the time exactly when it is stamping. -/
theorem vcdParsePacket_stamps
    {ev : VcdEvent} (hev : ev.Proper) {ck : Nat} {d d' : Vcd} (hclk : d.clk = .ofNat 32 ck)
    (h : vcdParsePacket ev.text d = .ok d') :
  d'.clk = .ofNat 32 (ev.ck ck) ∧ d'.frequency = d.frequency ∧
    ((¬ (⟨ev.ck ck, d, d'⟩ : VcdStep).Stamping ∧ d'.times = d.times ∧
        d'.writtenClk = d.writtenClk) ∨
      ((⟨ev.ck ck, d, d'⟩ : VcdStep).Stamping ∧ ev.ck ck = ck ∧
        d'.times = d.times ++ [d.stamp] ∧ d'.writtenClk = d.clk))
  := by
  cases ev with
  | clock ck' =>
    obtain ⟨hck, hfrequency, htimes, hvalues, hwritten⟩ := vcdParsePacket_clock h
    use hck, hfrequency
    left
    use fun hstamping => absurd hvalues hstamping.1.ne'
  | packet pkt =>
    have hwrites := writes_vcdParsePacket hev h
    use hwrites.clk.trans hclk, hwrites.frequency
    rcases Nat.lt_or_ge d.values d'.values with hlt | hle
    · rcases eq_or_ne d.clk d.writtenClk with heq | hne
      · left
        use fun hstamping => hstamping.2 heq
        apply hwrites.same heq
      · right
        use ⟨hlt, hne⟩, rfl
        apply hwrites.stamps hne hlt
    · left
      use fun hstamping => absurd hstamping.1 hle.not_gt
      apply hwrites.silent (hle.antisymm hwrites.values)

/-! ### The times of a run -/

theorem vcdRun_cons
    {ev : VcdEvent} {evs : List VcdEvent} {d d'' : Vcd} (h : vcdRun (ev :: evs) d = .ok d'') :
  ∃ d', vcdParsePacket ev.text d = .ok d' ∧ vcdRun evs d' = .ok d''
  := by
  rw [vcdRun, List.foldlM_cons] at h
  apply bind_eq_ok.mp h

theorem vcdTrace_cons
    {ev : VcdEvent} (evs : List VcdEvent) (ck : Nat) {d d' : Vcd}
    (h : vcdParsePacket ev.text d = .ok d') :
  vcdTrace (ev :: evs) ck d = ⟨ev.ck ck, d, d'⟩ :: vcdTrace evs (ev.ck ck) d'
  := by
  rw [vcdTrace, h]

/-- The steps of a run that stamp write the time of their clock into the file, and the others
write no time. -/
theorem mem_vcdTrace
    {evs : List VcdEvent} (hevs : ∀ ev ∈ evs, ev.Proper) {ck : Nat} {d d'' : Vcd}
    (hclk : d.clk = .ofNat 32 ck) (hrun : vcdRun evs d = .ok d'') {s : VcdStep}
    (hs : s ∈ vcdTrace evs ck d) :
  (¬ s.Stamping ∧ s.stamps = []) ∨
    (s.Stamping ∧ s.stamps = [(.ofNat 32 s.ck * (vcdFactor / d.frequency) : BitVec 32).toInt])
  := by
  induction evs generalizing ck d with
  | nil => contradiction
  | cons ev evs ih =>
    obtain ⟨d', hstep, hrest⟩ := vcdRun_cons hrun
    obtain ⟨hclk', hfrequency, hstamps⟩ :=
      vcdParsePacket_stamps (hevs _ List.mem_cons_self) hclk hstep
    rw [vcdTrace_cons evs ck hstep] at hs
    rcases List.mem_cons.mp hs with rfl | hs
    · rcases hstamps with ⟨hnot, htimes, -⟩ | ⟨hstamping, hck, htimes, -⟩
      · left
        use hnot
        rw [VcdStep.stamps, htimes, List.drop_length]
      · right
        use hstamping
        rw [VcdStep.stamps, htimes, List.drop_left, Vcd.stamp, hclk, hck]
    · rw [← hfrequency]
      apply ih (fun ev hev => hevs ev (List.mem_cons_of_mem _ hev)) hclk' hrest hs

/-- The times in the file are those that the steps of the run write. -/
theorem times_vcdRun
    {evs : List VcdEvent} (hevs : ∀ ev ∈ evs, ev.Proper) {ck : Nat} {d d'' : Vcd}
    (hclk : d.clk = .ofNat 32 ck) (hrun : vcdRun evs d = .ok d'') :
  d''.times = d.times ++ (vcdTrace evs ck d).flatMap VcdStep.stamps
  := by
  induction evs generalizing ck d with
  | nil =>
    obtain rfl := Except.ok.inj hrun
    rw [vcdTrace, List.flatMap_nil, List.append_nil]
  | cons ev evs ih =>
    obtain ⟨d', hstep, hrest⟩ := vcdRun_cons hrun
    obtain ⟨hclk', -, hstamps⟩ := vcdParsePacket_stamps (hevs _ List.mem_cons_self) hclk hstep
    have hfirst : d'.times = d.times ++ (⟨ev.ck ck, d, d'⟩ : VcdStep).stamps := by
      rcases hstamps with ⟨-, htimes, -⟩ | ⟨-, -, htimes, -⟩
      · rw [VcdStep.stamps, htimes, List.drop_length, List.append_nil]
      · rw [VcdStep.stamps, htimes, List.drop_left]
    rw [vcdTrace_cons evs ck hstep, List.flatMap_cons, ← List.append_assoc, ← hfirst]
    apply ih (fun ev hev => hevs ev (List.mem_cons_of_mem _ hev)) hclk' hrest

/-! ### The time of a clock -/

/-- The condition on the clock for which its time is right: neither the part of a nanosecond
that is cut off for every clock nor the 31 bits matter. -/
def TimeFits (f ck : Nat) : Prop :=
  ck * (10 ^ 9 % f) < f ∧ ck * (10 ^ 9 / f) < 2 ^ 31

instance (f ck : Nat) : Decidable (TimeFits f ck) :=
  inferInstanceAs (Decidable (_ ∧ _))

/-- The time of a clock in nanoseconds -/
def timeOf (f ck : Nat) : Nat :=
  ck * 10 ^ 9 / f

theorem timeOf_eq
    {f : Nat} (hf : 0 < f) (ck : Nat) :
  timeOf f ck = ck * (10 ^ 9 / f) + ck * (10 ^ 9 % f) / f
  := by
  calc timeOf f ck
    _ = (f * (ck * (10 ^ 9 / f)) + ck * (10 ^ 9 % f)) / f := by
      rw [timeOf, Nat.mul_left_comm, ← Nat.mul_add, Nat.div_add_mod]
    _ = _ := Nat.mul_add_div hf _ _

/-- The product in 32 bits -/
theorem toNat_stamp
    {f : Nat} (hf : f ≤ 10 ^ 9) (ck : Nat) :
  (.ofNat 32 ck * (vcdFactor / .ofNat 32 f) : BitVec 32).toNat = ck * (10 ^ 9 / f) % 2 ^ 32
  := by
  have hmod : f % 2 ^ 32 = f := Nat.mod_eq_of_lt (by omega)
  rw [BitVec.toNat_mul, BitVec.toNat_udiv, BitVec.toNat_ofNat, BitVec.toNat_ofNat, hmod,
    Nat.mod_mul_mod]
  rfl

/-- The printed time is right and not negative exactly when the time fits. -/
theorem stamp_eq_iff
    {f : Nat} (hpos : 0 < f) (hf : f ≤ 10 ^ 9) (ck : Nat) :
  (.ofNat 32 ck * (vcdFactor / .ofNat 32 f) : BitVec 32).toInt = timeOf f ck ↔ TimeFits f ck
  := by
  have hnat := toNat_stamp hf ck
  rw [BitVec.toInt_eq_toNat_cond, hnat, timeOf_eq hpos, TimeFits, ← Nat.div_eq_zero_iff_lt hpos]
  generalize ck * (10 ^ 9 / f) = n
  generalize ck * (10 ^ 9 % f) / f = rest
  constructor
  · intro h
    split at h
    · omega
    · omega
  · rintro ⟨hrest, hfits⟩
    rw [Nat.mod_eq_of_lt (by omega), hrest, if_pos (by omega), Nat.add_zero]

/-! ### The time stamps -/

/-- The times in the file increase and none is negative, and each is the time of the clock at
that moment. -/
structure TimesRight (f : Nat) (trace : List VcdStep) (times : List Int) : Prop where
  increasing : times.Pairwise (· < ·)
  nonneg : ∀ t ∈ times, 0 ≤ t
  exact : ∀ s ∈ trace, ∀ t ∈ s.stamps, t = timeOf f s.ck

/-- The times increase up to that of a clock, which is not after `ck`. -/
def IncreasesTo (f ck : Nat) (d : Vcd) : Prop :=
  d.times.Pairwise (· < ·) ∧
    (d.times = [] ∨
      ∃ c ≤ ck, d.writtenClk = .ofNat 32 c ∧ ∀ t ∈ d.times, t ≤ (c * (10 ^ 9 / f) : Nat))

/-- If the clock does not go back and all times fit, the times increase. -/
theorem increasesTo_vcdRun
    {f : Nat} (hpos : 0 < f) (hf : f ≤ 10 ^ 9) {evs : List VcdEvent}
    (hevs : ∀ ev ∈ evs, ev.Proper) {ck : Nat} (hclocks : (ck :: vcdClocks evs).Pairwise (· ≤ ·))
    {d d'' : Vcd} (hclk : d.clk = .ofNat 32 ck) (hfrequency : d.frequency = .ofNat 32 f)
    (hrun : vcdRun evs d = .ok d'')
    (hfits : ∀ s ∈ vcdTrace evs ck d, s.Stamping → TimeFits f s.ck) (h : IncreasesTo f ck d) :
  d''.times.Pairwise (· < ·)
  := by
  induction evs generalizing ck d with
  | nil =>
    obtain rfl := Except.ok.inj hrun
    apply h.1
  | cons ev evs ih =>
    obtain ⟨d', hstep, hrest⟩ := vcdRun_cons hrun
    obtain ⟨hclk', hfrequency', hstamps⟩ :=
      vcdParsePacket_stamps (hevs _ List.mem_cons_self) hclk hstep
    rw [vcdTrace_cons evs ck hstep] at hfits
    have hle : ck ≤ ev.ck ck ∧ (ev.ck ck :: vcdClocks evs).Pairwise (· ≤ ·) := by
      cases ev with
      | clock ck' =>
        obtain ⟨hfirst, hclocks⟩ := List.pairwise_cons.mp hclocks
        use hfirst ck' List.mem_cons_self
        apply hclocks
      | packet pkt =>
        use le_refl ck
        apply hclocks
    apply ih (fun ev hev => hevs ev (List.mem_cons_of_mem _ hev)) hle.2 hclk'
      (hfrequency'.trans hfrequency) hrest (fun s hs => hfits s (List.mem_cons_of_mem _ hs))
    obtain ⟨hincreasing, hlast⟩ := h
    rcases hstamps with ⟨-, htimes, hwritten⟩ | ⟨hstamping, hck, htimes, hwritten⟩
    · rw [IncreasesTo, htimes, hwritten]
      use hincreasing
      rcases hlast with hnil | ⟨c, hc, hlast⟩
      · left
        apply hnil
      · right
        use c, hc.trans hle.1
    · have hfit := hfits _ List.mem_cons_self hstamping
      rw [hck] at hfit ⊢
      have hstamp : d.stamp = (ck * (10 ^ 9 / f) : Nat) := by
        have hright := (stamp_eq_iff hpos hf ck).mpr hfit
        rw [Vcd.stamp, hclk, hfrequency, hright, timeOf_eq hpos, Nat.div_eq_of_lt hfit.1,
          Nat.add_zero]
      have hbefore : ∀ t ∈ d.times, t < d.stamp := by
        rcases hlast with hnil | ⟨c, hc, hlast, hbound⟩
        · rw [hnil]
          nofun
        · intro t ht
          have hquotient : 0 < 10 ^ 9 / f := Nat.div_pos hf hpos
          have hne : c ≠ ck := by
            rintro rfl
            apply hstamping.2
            rw [hlast, hclk]
          have hlt : c * (10 ^ 9 / f) < ck * (10 ^ 9 / f) :=
            Nat.mul_lt_mul_of_pos_right (hc.lt_of_ne hne) hquotient
          rw [hstamp]
          apply (hbound t ht).trans_lt
          exact_mod_cast hlt
      rw [IncreasesTo, htimes, hwritten, hclk]
      constructor
      · rw [List.pairwise_append]
        use hincreasing, List.pairwise_singleton _ _
        intro t ht t' ht'
        rw [List.mem_singleton.mp ht']
        apply hbefore t ht
      · right
        use ck, le_refl ck, rfl
        intro t ht
        rw [← hstamp]
        rcases List.mem_append.mp ht with ht | ht
        · apply (hbefore t ht).le
        · rw [List.mem_singleton.mp ht]

/-- In a run in which the clock does not go back, the times in the VCD file are right exactly
when the clock fits at each step that stamps. -/
theorem vcd_times_iff
    {f : Nat} (hf : 1 ≤ f ∧ f ≤ 10 ^ 9) {start : Vcd} (hstart : start.Fresh)
    (hfrequency : start.frequency = .ofNat 32 f) {evs : List VcdEvent}
    (hevs : ∀ ev ∈ evs, ev.Proper) (hclocks : (vcdClocks evs).Pairwise (· ≤ ·)) {d : Vcd}
    (hrun : vcdRun evs start = .ok d) :
  TimesRight f (vcdTrace evs 0 start) d.times ↔
    ∀ s ∈ vcdTrace evs 0 start, s.Stamping →
      s.ck * (10 ^ 9 % f) < f ∧ s.ck * (10 ^ 9 / f) < 2 ^ 31
  := by
  have hnil : start.times = [] := by
    rw [Vcd.times, hstart.file]
    rfl
  have htimes := times_vcdRun hevs hstart.clk hrun
  rw [hnil, List.nil_append] at htimes
  have hsteps (s : VcdStep) (hs : s ∈ vcdTrace evs 0 start) :=
    mem_vcdTrace hevs hstart.clk hrun hs
  rw [hfrequency] at hsteps
  constructor
  · rintro ⟨-, hnonneg, hexact⟩ s hs hstamping
    rcases hsteps s hs with ⟨hnot, -⟩ | ⟨-, hstamps⟩
    · contradiction
    · apply (stamp_eq_iff hf.1 hf.2 s.ck).mp
      apply hexact s hs
      rw [hstamps]
      apply List.mem_singleton_self
  · intro hfits
    have hexact : ∀ s ∈ vcdTrace evs 0 start, ∀ t ∈ s.stamps, t = timeOf f s.ck := by
      intro s hs t ht
      rcases hsteps s hs with ⟨-, hstamps⟩ | ⟨hstamping, hstamps⟩
      · rw [hstamps] at ht
        contradiction
      · rw [hstamps, List.mem_singleton] at ht
        rw [ht]
        apply (stamp_eq_iff hf.1 hf.2 s.ck).mpr (hfits s hs hstamping)
    constructor
    · apply increasesTo_vcdRun hf.1 hf.2 hevs _ hstart.clk hfrequency hrun hfits
      · rw [IncreasesTo, hnil]
        use List.Pairwise.nil
        left
        rfl
      · rw [List.pairwise_cons]
        use fun _ _ => Nat.zero_le _
    · intro t ht
      rw [htimes, List.mem_flatMap] at ht
      obtain ⟨s, hs, ht⟩ := ht
      rw [hexact s hs t ht]
      apply Int.natCast_nonneg
    · apply hexact

/-- The program counter is traced. -/
def tracingPc (f : Nat) : Vcd where
  opened := true
  frequency := .ofNat 32 f
  sramSize := 0
  ioRegSignals := []
  ioRegDumpTable _ := false
  regDumpTable _ := false
  sramDumpTable _ := false
  spDumpTable := false
  pcDumpTable := true
  spreg := 0
  firstClockOccured := false
  clk := 0
  writtenClk := -1
  writtenSp := -1
  file := []

theorem tracingPc_fresh
    (f : Nat) :
  (tracingPc f).Fresh
  := ⟨rfl, rfl, rfl⟩

/-- The program counter is sent at each of the clocks. -/
def pcAt (cks : List Nat) : List VcdEvent :=
  cks.flatMap fun ck => [.clock ck, .packet ['p', '1']]

/-- At 8 MHz the time is negative after two seconds, and at 32768 Hz it is too small after three
clocks. -/
theorem vcd_times_wrong :
  (∃ d, vcdRun (pcAt [17179869, 17179870]) (tracingPc 8000000) = .ok d ∧
    ¬ TimesRight 8000000 (vcdTrace (pcAt [17179869, 17179870]) 0 (tracingPc 8000000)) d.times) ∧
  ∃ d, vcdRun (pcAt [3]) (tracingPc 32768) = .ok d ∧
    ¬ TimesRight 32768 (vcdTrace (pcAt [3]) 0 (tracingPc 32768)) d.times
  := by
  have hwraps : (vcdRun (pcAt [17179869, 17179870]) (tracingPc 8000000)).toOption.map Vcd.times
      = some [2147483625, -2147483546] := by decide +kernel
  have hrounds : (vcdTrace (pcAt [3]) 0 (tracingPc 32768)).map
      (fun s => (s.ck, s.stamps)) = [(3, []), (3, [91551])] := by decide +kernel
  have hruns : (vcdRun (pcAt [3]) (tracingPc 32768)).toOption.isSome = true := by decide +kernel
  constructor
  · obtain ⟨d, hrun, htimes⟩ := Option.map_eq_some_iff.mp hwraps
    use d, eq_ok_of_toOption hrun
    intro h
    have hnonneg := h.nonneg (-2147483546) (by rw [htimes]; decide)
    exact absurd hnonneg (by decide)
  · obtain ⟨d, hrun⟩ := Option.isSome_iff_exists.mp hruns
    use d, eq_ok_of_toOption hrun
    intro h
    have hmem : ((3, [91551]) : Nat × List Int) ∈ (vcdTrace (pcAt [3]) 0 (tracingPc 32768)).map
        (fun s => (s.ck, s.stamps)) := by
      rw [hrounds]
      decide
    obtain ⟨s, hs, heq⟩ := List.mem_map.mp hmem
    obtain ⟨hck, hstamps⟩ := Prod.mk.inj heq
    have hexact := h.exact s hs 91551 (by rw [hstamps]; decide)
    rw [hck] at hexact
    exact absurd hexact (by decide)

/-- At 8 MHz the times of the first clocks are right. -/
theorem vcd_times_iff_first :
  ∃ d, vcdRun (pcAt [0, 1, 1, 17179869]) (tracingPc 8000000) = .ok d ∧
    TimesRight 8000000 (vcdTrace (pcAt [0, 1, 1, 17179869]) 0 (tracingPc 8000000)) d.times
  := by
  have hruns : (vcdRun (pcAt [0, 1, 1, 17179869]) (tracingPc 8000000)).toOption.isSome = true := by
    decide +kernel
  obtain ⟨d, hrun⟩ := Option.isSome_iff_exists.mp hruns
  have hevs : ∀ ev ∈ pcAt [0, 1, 1, 17179869], ev.Proper := by
    intro ev hev
    obtain ⟨ck, -, hev⟩ := List.mem_flatMap.mp hev
    rcases List.mem_cons.mp hev with rfl | hev
    · trivial
    · rw [List.mem_singleton.mp hev]
      exact (by decide : 'p' ≠ 'n')
  have hcks : ((vcdTrace (pcAt [0, 1, 1, 17179869]) 0 (tracingPc 8000000)).all fun s =>
      s.ck * (10 ^ 9 % 8000000) < 8000000 && s.ck * (10 ^ 9 / 8000000) < 2 ^ 31) = true := by
    decide +kernel
  use d, eq_ok_of_toOption hrun
  apply (vcd_times_iff ⟨by decide, by decide⟩ (tracingPc_fresh 8000000) rfl hevs (by decide)
    (eq_ok_of_toOption hrun)).mpr
  intro s hs _
  simpa using List.all_eq_true.mp hcks s hs

end SimulAvr
