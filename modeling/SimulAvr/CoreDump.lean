import SimulAvr.Display
import SimulAvr.Lib.LineDump

/-!
# The core dump

The loops that print the contents of the flash, of the EEPROM and of the SRAM.  The three loops
are copies of one: a line is printed when the next one starts, and the last line only if lines
before it have been left out.  The dumps of the SRAM take the last address for the size.
-/

namespace SimulAvr

open Program

/-! ### The loop -/

/-- The digits of `%04x`, of an `int` -/
def hexAddr (val : Int) : List Char :=
  List.replicate (4 - (hexInt val).length) '0' ++ hexInt val

/-- `fprintf (f_core, "  -- last line repeats --\n")` -/
def lastLineRepeats : List Char :=
  "  -- last line repeats --\n".toList

/-- `fprintf (f_core, "%04x : %s\n", addr, line)` -/
def addrLine (addr : Int) (line : List Char) : List Char :=
  hexAddr addr ++ " : ".toList ++ line ++ ['\n']

/-- `strncat` -/
def strncat (dest src : List Char) (n : Nat) : List Char :=
  dest ++ src.take n

/-- The variables of a dump, with the text that it has written to `f_core` -/
structure DumpState where
  text : List Char
  dup : Int
  line : List Char
  lastLine : List Char

namespace DumpState

/-- The dump that starts with a title -/
def start (title : List Char) : DumpState :=
  { text := title, dup := 0, line := [], lastLine := [] }

/-- The body of the test for a new line, before the cell `i` -/
def newLine (ndat i : Int) (s : DumpState) : DumpState :=
  if s.line = s.lastLine then
    { s with dup := s.dup + 1, lastLine := s.line, line := [] }
  else
    { text := s.text ++ (if s.dup > 0 then lastLineRepeats else []) ++ addrLine (i - ndat) s.line
      dup := 0
      lastLine := s.line
      line := [] }

/-- The body of the loop, for the cell `i` with the text `buf` -/
def cell (ndat i : Int) (buf : List Char) (s : DumpState) : DumpState :=
  let s := if i % ndat = 0 ∧ s.line ≠ [] then s.newLine ndat i else s
  { s with line := strncat s.line buf (80 - min s.line.length 79 - 1) }

/-- The loop over the cells `i, i + 1, …`, of which `n` are left -/
def loop {m : Type → Type} [Monad m] (ndat : Int) (read : Int → m (List Char)) :
    Int → Nat → DumpState → m DumpState
  | _, 0, s => pure s
  | i, n + 1, s => do
    let buf ← read i
    loop ndat read (i + 1) n (s.cell ndat i buf)

/-- The text after the loop, which ends before `i` -/
def tail (ndat i : Int) (s : DumpState) : List Char :=
  s.text ++ if s.dup > 0 then lastLineRepeats ++ addrLine (i - ndat) s.line else []

end DumpState

/-! ### The dumps -/

/-- `flash_dump_core` -/
def flashDumpCore (flash : Flash) : Except AvrError (List Char) := do
  let size := flash.size / 2
  let ndat := 8
  let s ← DumpState.loop ndat (fun i => do return hexWord (← flashRead flash i) ++ [' ']) 0
    size.toNat (.start "Program Flash Memory Dump:\n".toList)
  return s.tail ndat size

/-- `eeprom_dump_core` -/
def eepromDumpCore (stor : Storage) : Except AvrError (List Char) := do
  let size := stor.size
  let ndat := 16
  let s ← DumpState.loop ndat (fun i => do return hexByte (← storageReadb stor i) ++ [' ']) 0
    size.toNat (.start "EEPROM Memory Dump:\n".toList)
  return s.tail ndat size ++ ['\n']

/-- `mem_sram_display`, with the method that reads data memory -/
def memSramDisplay {m : Type → Type} [Monad m] (read : Int → m Byte) (base size : Int) :
    m (List Char) := do
  let ndat := 16
  let s ← DumpState.loop ndat (fun i => do return hexByte (← read i) ++ [' ']) base size.toNat
    (.start [])
  return s.tail ndat (base + size) ++ ['\n']

/-- `mem_sram_dump_core`, with the method that reads data memory, and `mem->sram_end` -/
def memSramDumpCore {m : Type → Type} [Monad m] (read : Int → m Byte) (mem : Memory)
    (sramEnd : Int) : m (List Char) := do
  if mem.ioRegEnd = sramEnd then
    -- device has no sram
    return []
  else
    let internal ← memSramDisplay read (mem.ioRegEnd + 1) sramEnd
    let text := "Internal SRAM Memory Dump:\n".toList ++ internal
    if sramEnd = mem.xramEnd then
      -- device has no xram
      return text
    else
      let external ← memSramDisplay read (sramEnd + 1) mem.xramEnd
      return text ++ "External SRAM Memory Dump:\n".toList ++ external

/-! ### The text read back -/

/-- The number that hexadecimal digits give -/
def hexNumber (text : List Char) : Nat :=
  (hexValue 0 text).toOption.getD 0

/-- The cells of a line, each followed by a blank -/
def readCells {w : Nat} (text : List Char) : List (BitVec w) :=
  (text.splitOn ' ').filterMap fun digits =>
    if digits = [] then none else some (.ofNat w (hexNumber digits))

/-- A line of a dump: an address line or the mark; no part of it are titles and empty lines. -/
def readLine {w : Nat} (text : List Char) : Option (LineDump.Entry (BitVec w)) :=
  match text.dropWhile (· ≠ ' ') with
  | ' ' :: ':' :: ' ' :: cells =>
    some (.line (hexNumber (text.takeWhile (· ≠ ' '))) (readCells cells))
  | ' ' :: ' ' :: '-' :: _ => some .repeats
  | _ => none

/-- The cells that the text of a dump stands for -/
def dumpCells (w : Nat) (text : List Char) : List (Int × BitVec w) :=
  LineDump.expand ((text.splitOn '\n').filterMap readLine)

/-- A title is no part of a dump. -/
theorem dumpCells_title
    {w : Nat} (title : List Char) (htitle : '\n' ∉ title) (hnone : readLine (w := w) title = none)
    (text : List Char) :
  dumpCells w (title ++ ['\n'] ++ text) = dumpCells w text
  := by
  rw [dumpCells, List.append_assoc, List.singleton_append,
    List.splitOn_append_cons_self_of_not_mem htitle, List.filterMap_cons, hnone]
  rfl

/-! ### The text of a cell -/

theorem hexValue_hexByte_from
    (n : Nat) (bval : Byte) :
  hexValue n (hexByte bval) = .ok (n * 256 + bval.toNat)
  := by
  obtain ⟨hhigh, hlow, -⟩ := hex2nib_hexByte bval
  have hsum := (by decide +kernel : ∀ b : Byte,
    (b >>> 4).toNat * 16 + (b &&& 0xf).toNat = b.toNat) bval
  rw [hexByte, hexValue, eq_ok_of_toOption hhigh, ok_bind, hexValue, eq_ok_of_toOption hlow,
    ok_bind, hexValue]
  congr 1
  omega

theorem hexValue_hexWord
    (val : Word) :
  hexValue 0 (hexWord val) = .ok val.toNat
  := by
  have hlt := val.isLt
  rw [hexWord, hexValue_append (hexValue_hexByte _), hexValue_hexByte_from,
    BitVec.extractLsb'_toNat, BitVec.extractLsb'_toNat, Nat.shiftRight_eq_div_pow, Nat.shiftRight_zero]
  congr 1
  omega

/-- How a dump prints a cell: in digits, of a fixed number, that give its value -/
structure CellFormat (w : Nat) where
  text : BitVec w → List Char
  width : Nat
  pos : 0 < width
  length_text : ∀ val, (text val).length = width
  value : ∀ val, hexValue 0 (text val) = .ok val.toNat

/-- `%02x` -/
def byteFormat : CellFormat 8 where
  text := hexByte
  width := 2
  pos := Nat.zero_lt_two
  length_text _ := rfl
  value := hexValue_hexByte

/-- `%04x` -/
def wordFormat : CellFormat 16 where
  text := hexWord
  width := 4
  pos := Nat.zero_lt_succ 3
  length_text _ := rfl
  value := hexValue_hexWord

namespace CellFormat

variable {w : Nat} (f : CellFormat w)

/-- The text of a line -/
def lineText (vals : List (BitVec w)) : List Char :=
  vals.flatMap fun val => f.text val ++ [' ']

/-- The text of a part of a dump -/
def entryText : LineDump.Entry (BitVec w) → List Char
  | .line addr vals => addrLine addr (f.lineText vals)
  | .repeats => lastLineRepeats

/-- Digits are neither blanks nor ends of lines. -/
theorem not_mem_text
    (val : BitVec w) :
  ' ' ∉ f.text val ∧ '\n' ∉ f.text val
  := by
  have hdigit := isHexDigit_of_hexValue (f.value val)
  constructor
  · exact fun hmem => absurd (hdigit _ hmem) (by decide)
  · exact fun hmem => absurd (hdigit _ hmem) (by decide)

theorem not_mem_lineText
    (vals : List (BitVec w)) :
  '\n' ∉ f.lineText vals
  := by
  intro hmem
  obtain ⟨val, -, hmem⟩ := List.mem_flatMap.mp hmem
  rcases List.mem_append.mp hmem with hmem | hmem
  · exact (f.not_mem_text val).2 hmem
  · exact absurd hmem (by decide)

theorem readCells_lineText
    (vals : List (BitVec w)) :
  readCells (f.lineText vals) = vals
  := by
  induction vals with
  | nil => rfl
  | cons val vals ih =>
    have hne : f.text val ≠ [] := by
      intro hnil
      have := f.length_text val
      rw [hnil] at this
      exact Nat.ne_of_lt f.pos this
    rw [lineText, List.flatMap_cons, List.append_assoc, List.singleton_append, readCells,
      List.splitOn_append_cons_self_of_not_mem (f.not_mem_text val).1, List.filterMap_cons,
      if_neg hne, hexNumber, f.value]
    change BitVec.ofNat w val.toNat :: readCells (f.lineText vals) = _
    rw [ih, BitVec.ofNat_toNat, BitVec.setWidth_eq]

theorem lineText_inj
    {vals vals' : List (BitVec w)} :
  f.lineText vals = f.lineText vals' ↔ vals = vals'
  := by
  constructor
  · intro h
    rw [← f.readCells_lineText vals, h, readCells_lineText]
  · exact congrArg f.lineText

/-- The digits of an address -/
theorem hexValue_hexAddr
    {addr : Int} (hlow : 0 ≤ addr) (hhigh : addr < 2 ^ 32) :
  hexValue 0 (hexAddr addr) = .ok addr.toNat
  := by
  have hzeros (k : Nat) : hexValue 0 (List.replicate k '0') = .ok 0 := by
    induction k with
    | zero => rfl
    | succ k ih => exact ih
  rw [hexAddr, hexValue_append (hzeros _), hexInt, hexValue_toDigits, BitVec.toNat_ofInt]
  have hpow : ((2 ^ 32 : Nat) : Int) = 2 ^ 32 := rfl
  rw [hpow, Int.emod_eq_of_lt hlow hhigh]

/-- An address line is read back. -/
theorem readLine_addrLine
    {addr : Int} (hlow : 0 ≤ addr) (hhigh : addr < 2 ^ 32) (vals : List (BitVec w)) :
  readLine (hexAddr addr ++ " : ".toList ++ f.lineText vals) = some (.line addr vals)
  := by
  have hdigits : ∀ ch ∈ hexAddr addr, decide (ch ≠ ' ') = true := by
    intro ch hmem
    have hdigit := isHexDigit_of_hexValue (hexValue_hexAddr hlow hhigh) ch hmem
    apply decide_eq_true
    rintro rfl
    exact absurd hdigit (by decide)
  have hdrop : (hexAddr addr ++ " : ".toList ++ f.lineText vals).dropWhile (· ≠ ' ')
      = ' ' :: ':' :: ' ' :: f.lineText vals := by
    rw [List.append_assoc, List.dropWhile_append_of_pos hdigits]
    rfl
  have htake : (hexAddr addr ++ " : ".toList ++ f.lineText vals).takeWhile (· ≠ ' ')
      = hexAddr addr := by
    rw [List.append_assoc, List.takeWhile_append_of_pos hdigits]
    exact List.append_nil _
  rw [readLine, hdrop, htake, hexNumber, hexValue_hexAddr hlow hhigh]
  change some (LineDump.Entry.line (addr.toNat : Int) (readCells (f.lineText vals))) = _
  rw [f.readCells_lineText, Int.toNat_of_nonneg hlow]

/-- The parts of a dump are read back from their text. -/
theorem readText
    {es : List (LineDump.Entry (BitVec w))}
    (haddr : ∀ addr vals, .line addr vals ∈ es → 0 ≤ addr ∧ addr < 2 ^ 32) (rest : List Char) :
  ((es.flatMap f.entryText ++ rest).splitOn '\n').filterMap readLine
    = es ++ (rest.splitOn '\n').filterMap (readLine (w := w))
  := by
  induction es with
  | nil => rfl
  | cons e es ih =>
    have hrest := ih fun addr vals hmem => haddr addr vals (List.mem_cons_of_mem e hmem)
    rw [List.flatMap_cons, List.append_assoc]
    cases e with
    | repeats =>
      have hmark : readLine "  -- last line repeats --".toList
          = some (LineDump.Entry.repeats (α := BitVec w)) := rfl
      change ((("  -- last line repeats --".toList ++ ['\n'])
        ++ (es.flatMap f.entryText ++ rest)).splitOn '\n').filterMap readLine = _
      rw [List.append_assoc, List.singleton_append,
        List.splitOn_append_cons_self_of_not_mem (by decide), List.filterMap_cons, hmark, hrest]
      rfl
    | line addr vals =>
      obtain ⟨hlow, hhigh⟩ := haddr addr vals List.mem_cons_self
      have hnot : '\n' ∉ hexAddr addr ++ " : ".toList ++ f.lineText vals := by
        rw [List.mem_append, List.mem_append]
        rintro ((hmem | hmem) | hmem)
        · have hdigit := isHexDigit_of_hexValue (hexValue_hexAddr hlow hhigh) _ hmem
          exact absurd hdigit (by decide)
        · exact absurd hmem (by decide)
        · exact f.not_mem_lineText vals hmem
      rw [entryText, addrLine, List.append_assoc, List.singleton_append,
        List.splitOn_append_cons_self_of_not_mem hnot, List.filterMap_cons,
        f.readLine_addrLine hlow hhigh, hrest]
      rfl

/-- The text of a dump, with what follows its lines, gives back its parts. -/
theorem dumpCells_dump
    {es : List (LineDump.Entry (BitVec w))} {rest : List Char}
    (haddr : ∀ addr vals, .line addr vals ∈ es → 0 ≤ addr ∧ addr < 2 ^ 32)
    (hrest : (rest.splitOn '\n').filterMap (readLine (w := w)) = []) :
  dumpCells w (es.flatMap f.entryText ++ rest) = LineDump.expand es
  := by
  rw [dumpCells, f.readText haddr, hrest, List.append_nil]

/-! ### The loop prints a dump in lines -/

/-- The variables of the loop stand for a dump in lines. -/
structure Shows (title : List Char) (s : DumpState) (t : LineDump.State (BitVec w)) : Prop where
  text : s.text = title ++ t.out.flatMap f.entryText
  dup : s.dup = t.dup
  line : s.line = f.lineText t.cur
  lastLine : s.lastLine = f.lineText t.last

theorem length_lineText
    (vals : List (BitVec w)) :
  (f.lineText vals).length = vals.length * (f.width + 1)
  := by
  induction vals with
  | nil => simp [lineText]
  | cons val vals ih =>
    rw [lineText, List.flatMap_cons, List.length_append, List.length_append, f.length_text]
    change f.width + 1 + (f.lineText vals).length = _
    rw [ih, List.length_cons, Nat.succ_mul, Nat.add_comm]

variable {f} {d n : Nat} {cell : Int → BitVec w} {base i : Int} {title : List Char} {s : DumpState}
  {t : LineDump.State (BitVec w)}

theorem Shows.initial
    (title : List Char) :
  Shows f title (.start title) .start where
  text := (List.append_nil title).symm
  dup := rfl
  line := rfl
  lastLine := rfl

theorem Shows.mark
    (h : Shows f title s t) :
  (if s.dup > 0 then lastLineRepeats else []) = (LineDump.mark t.dup).flatMap f.entryText
  := by
  rw [h.dup, LineDump.mark]
  split
  · next hdup =>
    rw [if_pos (Int.natCast_pos.mp hdup)]
    rfl
  · next hdup =>
    rw [if_neg fun hpos => hdup (Int.natCast_pos.mpr hpos)]
    rfl

theorem Shows.newLine
    (h : Shows f title s t) :
  Shows f title (s.newLine d i) (t.flush d i)
  := by
  rw [DumpState.newLine, LineDump.State.flush, h.line, h.lastLine, h.mark, h.text]
  split
  · next heq =>
    rw [if_pos (f.lineText_inj.mp heq)]
    constructor
    · rfl
    · change s.dup + 1 = ((t.dup + 1 : Nat) : Int)
      rw [h.dup]
      rfl
    · rfl
    · exact heq
  · next hne =>
    rw [if_neg fun heq => hne (f.lineText_inj.mpr heq)]
    constructor
    · change _ = title ++ (t.out ++ LineDump.mark t.dup ++ [_]).flatMap f.entryText
      rw [List.flatMap_append, List.flatMap_append, List.flatMap_singleton, List.append_assoc,
        List.append_assoc, List.append_assoc]
      rfl
    · rfl
    · rfl
    · rfl

/-- No text of a cell is cut, in lines that fit into the buffers. -/
theorem Shows.step
    (h : Shows f title s t) (hp : LineDump.Progress d cell base i t) (hd : 0 < d)
    (hfits : d * (f.width + 1) ≤ 79) :
  Shows f title (s.cell d i (f.text (cell i) ++ [' '])) (t.step d i (cell i))
  := by
  have hlength := (hp.step hd).length_le hd
  rw [LineDump.State.step, List.length_append] at hlength
  have hempty : s.line ≠ [] ↔ t.cur ≠ [] := by
    rw [h.line]
    have hnil : f.lineText t.cur = f.lineText [] ↔ t.cur = [] := f.lineText_inj
    exact not_congr hnil
  have happend {s' : DumpState} {t' : LineDump.State (BitVec w)} (h' : Shows f title s' t')
      (hle : t'.cur.length + 1 ≤ d) :
      Shows f title
        { s' with
          line := strncat s'.line (f.text (cell i) ++ [' ']) (80 - min s'.line.length 79 - 1) }
        { t' with cur := t'.cur ++ [cell i] } := by
    have hroom : (f.text (cell i) ++ [' ']).length ≤ 80 - min s'.line.length 79 - 1 := by
      have hmul := Nat.mul_le_mul_right (f.width + 1) hle
      rw [Nat.succ_mul] at hmul
      rw [List.length_append, f.length_text, h'.line, f.length_lineText]
      change f.width + 1 ≤ _
      omega
    constructor
    · exact h'.text
    · exact h'.dup
    · change strncat s'.line _ _ = f.lineText (t'.cur ++ [cell i])
      rw [strncat, List.take_of_length_le hroom, h'.line, lineText, lineText,
        List.flatMap_append, List.flatMap_singleton]
    · exact h'.lastLine
  rw [DumpState.cell, LineDump.State.step]
  by_cases hflush : i % d = 0 ∧ t.cur ≠ []
  · rw [if_pos hflush] at hlength ⊢
    rw [if_pos ⟨hflush.1, hempty.mpr hflush.2⟩]
    exact happend h.newLine hlength
  · rw [if_neg hflush] at hlength ⊢
    rw [if_neg fun hline => hflush ⟨hline.1, hempty.mp hline.2⟩]
    exact happend h hlength

/-- The loop, where each cell can be read -/
theorem Shows.loop
    (h : Shows f title s t) (hp : LineDump.Progress d cell base i t) (hd : 0 < d)
    (hfits : d * (f.width + 1) ≤ 79) {read : Int → Except AvrError (List Char)}
    (hread : ∀ j, i ≤ j → j < i + n → read j = .ok (f.text (cell j) ++ [' '])) :
  ∃ s', DumpState.loop d read i n s = .ok s' ∧ Shows f title s' (t.steps d cell i n)
  := by
  induction n generalizing i s t with
  | zero => exact ⟨s, rfl, h⟩
  | succ n ih =>
    have hrest := ih (h.step hp hd hfits) (hp.step hd)
      fun j hlow hhigh => hread j (by omega) (by push_cast; omega)
    rw [DumpState.loop, hread i (Int.le_refl i) (by push_cast; omega)]
    exact hrest

/-- The text after the loop -/
theorem Shows.tail
    (h : Shows f title s t) :
  s.tail d i = title ++ (t.finish d i).flatMap f.entryText
  := by
  rw [DumpState.tail, LineDump.State.finish, h.dup, h.text, h.line]
  split
  · next hdup =>
    rw [if_pos (Int.natCast_pos.mp hdup), List.flatMap_append, List.append_assoc]
    congr 2
    exact (List.append_nil _).symm
  · next hdup => rw [if_neg fun hpos => hdup (Int.natCast_pos.mpr hpos), List.append_nil]

/-- The text of a dump gives every cell of the range once exactly if its last line is printed. -/
theorem Shows.dumpCells_iff
    (h : Shows f title s (LineDump.State.start.steps d cell base n)) (hd : 0 < d)
    (hbase : 0 ≤ base) (hend : base + n ≤ 2 ^ 32)
    (htitle : ∀ text, dumpCells w (title ++ text) = dumpCells w text) (rest : List Char)
    (hrest : (rest.splitOn '\n').filterMap (readLine (w := w)) = []) :
  dumpCells w (s.tail d (base + n) ++ rest) = LineDump.cells cell base n
    ↔ n = 0 ∨ (d : Int) ∣ base ∧ d ∣ n ∧ 3 * d ≤ n
      ∧ readRange cell (base + (n - 2 * d)) d = readRange cell (base + (n - 3 * d)) d
  := by
  have haddr (addr : Int) (vals : List (BitVec w))
      (hmem : .line addr vals ∈ LineDump.dump d cell base n) : 0 ≤ addr ∧ addr < 2 ^ 32 := by
    obtain ⟨hlow, hhigh⟩ := LineDump.of_mem_dump hd hbase hmem
    exact ⟨hlow, Int.lt_of_lt_of_le hhigh hend⟩
  rw [h.tail, List.append_assoc, htitle]
  change dumpCells w ((LineDump.dump d cell base n).flatMap f.entryText ++ rest) = _ ↔ _
  rw [f.dumpCells_dump haddr hrest]
  exact LineDump.expand_dump_iff hd cell base n

end CellFormat

/-! ### The last line -/

/-- The last line of a range in lines of 16 bytes is printed: there is nothing to print, or the
range has whole lines the last but one of which repeats the one before it. -/
def LastLinePrinted (cell : Int → Byte) (base size : Int) : Prop :=
  size = 0 ∨ 16 ∣ base ∧ 16 ∣ size ∧ 48 ≤ size
    ∧ readRange cell (base + (size - 32)) 16 = readRange cell (base + (size - 48)) 16

theorem lastLinePrinted_iff
    (cell : Int → Byte) (base : Int) (n : Nat) :
  LastLinePrinted cell base n
    ↔ n = 0 ∨ ((16 : Nat) : Int) ∣ base ∧ 16 ∣ n ∧ 3 * 16 ≤ n
      ∧ readRange cell (base + (n - 2 * (16 : Nat))) 16
        = readRange cell (base + (n - 3 * (16 : Nat))) 16
  := by
  have hzero : (n : Int) = 0 ↔ n = 0 := Int.natCast_eq_zero
  have hdvd : (16 : Int) ∣ n ↔ 16 ∣ n := Int.natCast_dvd_natCast
  have hle : (48 : Int) ≤ n ↔ 3 * 16 ≤ n := Int.ofNat_le
  rw [LastLinePrinted, hzero, hdvd, hle]
  rfl

/-! ### The EEPROM -/

/-- The dump of the EEPROM determines its contents: every byte once, in order. -/
def EepromDumped (stor : Storage) : Prop :=
  ∃ text, eepromDumpCore stor = .ok text
    ∧ dumpCells 8 text = LineDump.cells stor.data 0 stor.size.toNat

theorem eepromDumped_iff
    {stor : Storage} (hbase : stor.base = 0) (hlow : 0 ≤ stor.size) (hhigh : stor.size < 2 ^ 31) :
  EepromDumped stor ↔ LastLinePrinted stor.data 0 stor.size
  := by
  obtain ⟨n, hn⟩ := Int.eq_ofNat_of_zero_le hlow
  have hread (i : Int) (hi : 0 ≤ i) (hin : i < 0 + n) :
      (do return hexByte (← storageReadb stor i) ++ [' '])
        = (.ok (byteFormat.text (stor.data i) ++ [' ']) : Except AvrError _) := by
    have hok : storageReadb stor i = .ok (stor.data i) := by
      rw [storageReadb, hbase, Int.sub_zero, if_neg (by omega)]
    rw [hok]
    rfl
  obtain ⟨s, hloop, hshows⟩ := (CellFormat.Shows.initial
    ("EEPROM Memory Dump:".toList ++ ['\n'])).loop (LineDump.Progress.initial 16 stor.data 0)
    (by decide) (by decide) hread
  have hdump : eepromDumpCore stor = .ok (s.tail (16 : Nat) (0 + n) ++ ['\n']) := by
    rw [eepromDumpCore, hn, Int.toNat_natCast, Int.zero_add]
    exact congrArg (· >>= fun s => .ok (s.tail (16 : Nat) n ++ ['\n'])) hloop
  have htext := hshows.dumpCells_iff (by decide) (Int.le_refl 0) (by omega)
    (dumpCells_title "EEPROM Memory Dump:".toList (by decide) rfl) ['\n'] rfl
  rw [hn, lastLinePrinted_iff, ← htext, EepromDumped, hdump, hn]
  constructor
  · rintro ⟨text, hok, htext⟩
    rw [Except.ok.inj hok]
    exact htext
  · exact fun htext => ⟨_, rfl, htext⟩

/-! ### The flash -/

/-- The bytes of a word, the first one high -/
def splitWord (val : Word) : List Byte :=
  [val.extractLsb' 8 8, val.extractLsb' 0 8]

/-- A word and its address, as bytes and theirs -/
def wordBytes (cell : Int × Word) : List (Int × Byte) :=
  LineDump.numbered (cell.1 * 2) (splitWord cell.2)

/-- The words of the flash -/
def flashWord (data : Int → Byte) (addr : Int) : Word :=
  data (addr * 2) ++ data (addr * 2 + 1)

/-- Lists that are put together from parts of one length have the same parts. -/
theorem flatMap_inj
    {α β : Type} {g : α → List β} {k : Nat} (hlength : ∀ a, (g a).length = k + 1)
    (hinj : Function.Injective g) {l l' : List α} :
  l.flatMap g = l'.flatMap g ↔ l = l'
  := by
  have hne (a : α) (l : List α) : (a :: l).flatMap g ≠ [] := by
    intro hnil
    have := hlength a
    rw [(List.append_eq_nil_iff.mp hnil).1] at this
    contradiction
  refine ⟨fun h => ?_, congrArg (List.flatMap g)⟩
  induction l generalizing l' with
  | nil =>
    cases l' with
    | nil => rfl
    | cons b l' => exact absurd h.symm (hne b l')
  | cons a l ih =>
    cases l' with
    | nil => exact absurd h (hne a l)
    | cons b l' =>
      rw [List.flatMap_cons, List.flatMap_cons] at h
      obtain ⟨hhead, htail⟩ := List.append_inj h ((hlength a).trans (hlength b).symm)
      rw [hinj hhead, ih htail]

theorem splitWord_injective : Function.Injective splitWord
  := by
  intro val val' h
  obtain ⟨hhigh, hrest⟩ := List.cons.inj h
  have hlow := (List.cons.inj hrest).1
  rw [← extractLsb'_append_self val, hhigh, hlow, extractLsb'_append_self]

theorem wordBytes_injective : Function.Injective wordBytes
  := by
  rintro ⟨addr, val⟩ ⟨addr', val'⟩ h
  obtain ⟨hfirst, hrest⟩ := List.cons.inj h
  have hhigh : val.extractLsb' 8 8 = val'.extractLsb' 8 8 := (Prod.mk.inj hfirst).2
  have hlow : val.extractLsb' 0 8 = val'.extractLsb' 0 8 :=
    (Prod.mk.inj (List.cons.inj hrest).1).2
  have hval : splitWord val = splitWord val' := by rw [splitWord, hhigh, hlow, splitWord]
  have haddr : addr * 2 = addr' * 2 := (Prod.mk.inj hfirst).1
  rw [splitWord_injective hval, Int.eq_of_mul_eq_mul_right (by decide) haddr]

theorem length_wordBytes
    (cells : List (Int × Word)) :
  (cells.flatMap wordBytes).length = cells.length * 2
  := by
  induction cells with
  | nil => rfl
  | cons cell cells ih =>
    rw [List.flatMap_cons, List.length_append, ih, List.length_cons, Nat.succ_mul, Nat.add_comm]
    rfl

theorem readRange_flashWord
    (data : Int → Byte) (addr : Int) (n : Nat) :
  (readRange (flashWord data) addr n).flatMap splitWord = readRange data (addr * 2) (n * 2)
  := by
  induction n generalizing addr with
  | zero => rfl
  | succ n ih =>
    have hhigh : (flashWord data addr).extractLsb' 8 8 = data (addr * 2) :=
      BitVec.extractLsb'_append_eq_left
    have hlow : (flashWord data addr).extractLsb' 0 8 = data (addr * 2 + 1) :=
      BitVec.extractLsb'_append_eq_right
    have hnext : (addr + 1) * 2 = addr * 2 + 1 + 1 := by omega
    rw [readRange, List.flatMap_cons, ih, splitWord, hhigh, hlow, hnext, Nat.succ_mul]
    rfl

theorem numbered_splitWord
    (addr : Int) (vals : List Word) :
  LineDump.numbered (addr * 2) (vals.flatMap splitWord)
    = (LineDump.numbered addr vals).flatMap wordBytes
  := by
  induction vals generalizing addr with
  | nil => rfl
  | cons val vals ih =>
    have hnext : addr * 2 + (splitWord val).length = (addr + 1) * 2 := by
      change addr * 2 + 2 = _
      omega
    rw [List.flatMap_cons, LineDump.numbered_append, hnext, ih]
    rfl

/-- The dump of the flash determines its contents: every byte once, in order. -/
def FlashDumped (flash : Flash) : Prop :=
  ∃ text, flashDumpCore flash = .ok text
    ∧ (dumpCells 16 text).flatMap wordBytes = LineDump.cells flash.data 0 flash.size.toNat

/-- The words of the last lines, as bytes -/
theorem lastLinePrinted_words
    (data : Int → Byte) (n : Nat) :
  LastLinePrinted data 0 (n * 2 : Nat)
    ↔ n = 0 ∨ ((8 : Nat) : Int) ∣ 0 ∧ 8 ∣ n ∧ 3 * 8 ≤ n
      ∧ readRange (flashWord data) (0 + (n - 2 * (8 : Nat))) 8
        = readRange (flashWord data) (0 + (n - 3 * (8 : Nat))) 8
  := by
  have hlines : readRange (flashWord data) (0 + (n - 2 * (8 : Nat))) 8
        = readRange (flashWord data) (0 + (n - 3 * (8 : Nat))) 8
      ↔ readRange data (0 + ((n * 2 : Nat) - 2 * (16 : Nat))) 16
        = readRange data (0 + ((n * 2 : Nat) - 3 * (16 : Nat))) 16 := by
    rw [← flatMap_inj (k := 1) (fun _ => rfl) splitWord_injective, readRange_flashWord,
      readRange_flashWord,
      show (0 + ((n : Int) - 2 * (8 : Nat))) * 2 = 0 + ((n * 2 : Nat) - 2 * (16 : Nat)) by omega,
      show (0 + ((n : Int) - 3 * (8 : Nat))) * 2 = 0 + ((n * 2 : Nat) - 3 * (16 : Nat)) by omega]
  have hdvd : 16 ∣ n * 2 ↔ 8 ∣ n := by omega
  rw [lastLinePrinted_iff, hlines, hdvd]
  constructor
  · rintro (h | ⟨-, h8, hle, h⟩)
    · exact .inl (by omega)
    · exact .inr ⟨Int.dvd_zero _, h8, by omega, h⟩
  · rintro (h | ⟨-, h8, hle, h⟩)
    · exact .inl (by omega)
    · exact .inr ⟨Int.dvd_zero _, h8, by omega, h⟩

theorem flashDumped_iff
    {flash : Flash} (hbase : flash.base = 0) (hlow : 0 ≤ flash.size)
    (hhigh : flash.size < 2 ^ 31) :
  FlashDumped flash ↔ LastLinePrinted flash.data 0 flash.size
  := by
  obtain ⟨n, hn⟩ := Int.eq_ofNat_of_zero_le (Int.ediv_nonneg hlow (by decide : (0 : Int) ≤ 2))
  have hread (i : Int) (hi : 0 ≤ i) (hin : i < 0 + n) :
      (do return hexWord (← flashRead flash i) ++ [' '])
        = (.ok (wordFormat.text (flashWord flash.data i) ++ [' ']) : Except AvrError _) := by
    have hok : flashRead flash i = .ok (flashWord flash.data i) := by
      rw [flashRead, storageReadw, hbase, Int.sub_zero, if_neg (by omega)]
      rfl
    rw [hok]
    rfl
  obtain ⟨s, hloop, hshows⟩ := (CellFormat.Shows.initial
    ("Program Flash Memory Dump:".toList ++ ['\n'])).loop
    (LineDump.Progress.initial 8 (flashWord flash.data) 0) (by decide) (by decide) hread
  have hdump : flashDumpCore flash = .ok (s.tail (8 : Nat) (0 + n) ++ []) := by
    rw [flashDumpCore, hn, Int.toNat_natCast, Int.zero_add, List.append_nil]
    exact congrArg (· >>= fun s => .ok (s.tail (8 : Nat) n)) hloop
  have htext := hshows.dumpCells_iff (by decide) (Int.le_refl 0) (by omega)
    (dumpCells_title "Program Flash Memory Dump:".toList (by decide) rfl) [] rfl
  rw [← lastLinePrinted_words, ← flatMap_inj (k := 1) (fun _ => rfl) wordBytes_injective,
    LineDump.cells, ← numbered_splitWord, readRange_flashWord] at htext
  have hiff : FlashDumped flash
      ↔ (dumpCells 16 (s.tail (8 : Nat) (0 + n) ++ [])).flatMap wordBytes
        = LineDump.cells flash.data 0 flash.size.toNat := by
    rw [FlashDumped, hdump]
    constructor
    · rintro ⟨text, hok, htext⟩
      rw [Except.ok.inj hok]
      exact htext
    · exact fun htext => ⟨_, rfl, htext⟩
  rw [hiff]
  rcases (by omega : flash.size = (n * 2 : Nat) ∨ flash.size = (n * 2 + 1 : Nat)) with h | h
  · rw [h, ← htext]
    rfl
  · constructor
    · intro heq
      have hlength := congrArg List.length heq
      rw [length_wordBytes, h, Int.toNat_natCast, LineDump.length_cells] at hlength
      omega
    · rintro (hzero | ⟨-, hdvd, -⟩)
      · omega
      · omega

/-! ### The SRAM -/

/-- A method that reads cells, and keeps the addresses -/
def readLogged (cell : Int → Byte) (addr : Int) : StateM (List Int) Byte := do
  modify (· ++ [addr])
  return cell addr

/-- The loop of `mem_sram_display`: it reads the cells of its range, once each, in order. -/
theorem loop_readLogged
    {title : List Char} {s : DumpState} {t : LineDump.State Byte} {cell : Int → Byte}
    {base i : Int} (h : byteFormat.Shows title s t) (hp : LineDump.Progress 16 cell base i t)
    (n : Nat) (log : List Int) :
  ∃ s', (DumpState.loop (16 : Nat) (fun j => do return hexByte (← readLogged cell j) ++ [' ']) i n
      s).run log = (s', log ++ readRange id i n)
    ∧ byteFormat.Shows title s' (t.steps 16 cell i n)
  := by
  induction n generalizing i s t log with
  | zero => exact ⟨s, by rw [readRange, List.append_nil]; rfl, h⟩
  | succ n ih =>
    obtain ⟨s', hloop, hs'⟩ := ih (h.step hp (by decide) (by decide)) (hp.step (by decide))
      (log ++ [i])
    use s'
    rw [List.append_assoc] at hloop
    exact ⟨hloop, hs'⟩

theorem memSramDisplay_readLogged
    (cell : Int → Byte) (base : Int) {size : Int} (hsize : 0 ≤ size) (log : List Int) :
  ∃ s, (memSramDisplay (readLogged cell) base size).run log
      = (s.tail (16 : Nat) (base + size.toNat) ++ ['\n'], log ++ readRange id base size.toNat)
    ∧ byteFormat.Shows [] s (LineDump.State.start.steps 16 cell base size.toNat)
  := by
  obtain ⟨s, hloop, hshows⟩ := loop_readLogged (CellFormat.Shows.initial [])
    (LineDump.Progress.initial 16 cell base) size.toNat log
  use s
  refine ⟨?_, hshows⟩
  rw [Int.toNat_of_nonneg hsize]
  exact congrArg (fun r : DumpState × List Int =>
    (r.1.tail (16 : Nat) (base + size) ++ ['\n'], r.2)) hloop

/-- What is displayed of a range determines its contents. -/
def RangeDumped (cell : Int → Byte) (base size : Int) : Prop :=
  dumpCells 8 ((memSramDisplay (readLogged cell) base size).run []).1
    = LineDump.cells cell base size.toNat

theorem rangeDumped_iff
    (cell : Int → Byte) {base size : Int} (hbase : 0 ≤ base) (hsize : 0 ≤ size)
    (hend : base + size < 2 ^ 31) :
  RangeDumped cell base size ↔ LastLinePrinted cell base size
  := by
  obtain ⟨s, hrun, hshows⟩ := memSramDisplay_readLogged cell base hsize []
  have htext := hshows.dumpCells_iff (by decide) hbase (by omega) (fun _ => rfl) ['\n'] rfl
  rw [← lastLinePrinted_iff, Int.toNat_of_nonneg hsize] at htext
  rw [RangeDumped, hrun, Int.toNat_of_nonneg hsize]
  exact htext

/-- The dumps of the SRAM read the internal SRAM and the external one, once each, in order. -/
def SramDumped (cell : Int → Byte) (mem : Memory) (sramEnd : Int) : Prop :=
  ((memSramDumpCore (readLogged cell) mem sramEnd).run []).2
    = readRange id (mem.ioRegEnd + 1) (sramEnd - mem.ioRegEnd).toNat
      ++ readRange id (sramEnd + 1) (mem.xramEnd - sramEnd).toNat

/-- The addresses that the dumps of the SRAM read -/
theorem reads_memSramDumpCore
    (cell : Int → Byte) {mem : Memory} {sramEnd : Int} (hne : mem.ioRegEnd ≠ sramEnd)
    (hsram : 0 ≤ sramEnd) (hxram : 0 ≤ mem.xramEnd) :
  ((memSramDumpCore (readLogged cell) mem sramEnd).run []).2
    = readRange id (mem.ioRegEnd + 1) sramEnd.toNat
      ++ if sramEnd = mem.xramEnd then [] else readRange id (sramEnd + 1) mem.xramEnd.toNat
  := by
  obtain ⟨s, hinternal, -⟩ := memSramDisplay_readLogged cell (mem.ioRegEnd + 1) hsram []
  obtain ⟨s', hexternal, -⟩ := memSramDisplay_readLogged cell (sramEnd + 1) hxram
    ([] ++ readRange id (mem.ioRegEnd + 1) sramEnd.toNat)
  rw [memSramDumpCore, if_neg hne, StateT.run_bind, hinternal]
  by_cases hend : sramEnd = mem.xramEnd
  · simp only [if_pos hend, List.append_nil]
    rfl
  · simp only [if_neg hend]
    exact congrArg Prod.snd hexternal

/-- The last address is taken for the size: a device with SRAM or with external memory has some
other addresses read. -/
theorem sramDumped_iff
    (cell : Int → Byte) {mem : Memory} {sramEnd : Int} (hio : 0 < mem.ioRegEnd)
    (hsram : mem.ioRegEnd ≤ sramEnd) (hxram : sramEnd ≤ mem.xramEnd) :
  SramDumped cell mem sramEnd ↔ mem.ioRegEnd = sramEnd ∧ sramEnd = mem.xramEnd
  := by
  constructor
  · intro h
    have hlength := congrArg List.length h
    rw [List.length_append, length_readRange, length_readRange] at hlength
    by_cases heq : mem.ioRegEnd = sramEnd
    · rw [memSramDumpCore, if_pos heq] at hlength
      change 0 = _ at hlength
      omega
    · rw [reads_memSramDumpCore cell heq (by omega) (by omega), List.length_append,
        length_readRange] at hlength
      split at hlength
      · change _ + 0 = _ at hlength
        omega
      · rw [length_readRange] at hlength
        omega
  · rintro ⟨heq, hend⟩
    rw [SramDumped, memSramDumpCore, if_pos heq, heq, hend, Int.sub_self]
    rfl

/-! ### The dumps are faithful -/

/-- The flash and the EEPROM are dumped with all their bytes exactly if the last line is printed:
if there are no bytes, or the last line but one repeats the one before it.  The same holds of the
bytes that a dump of the SRAM displays; but these are those of the internal SRAM and of the
external one, and no others, only in a device without any. -/
theorem core_dump
    (flash : Flash) (eeprom : Storage) (cell : Int → Byte) (mem : Memory) (sramEnd : Int)
    (hflash : flash.base = 0 ∧ 0 ≤ flash.size ∧ flash.size < 2 ^ 31)
    (heeprom : eeprom.base = 0 ∧ 0 ≤ eeprom.size ∧ eeprom.size < 2 ^ 31)
    (hmem : 0 < mem.ioRegEnd ∧ mem.ioRegEnd ≤ sramEnd ∧ sramEnd ≤ mem.xramEnd) :
  (FlashDumped flash ↔ LastLinePrinted flash.data 0 flash.size)
    ∧ (EepromDumped eeprom ↔ LastLinePrinted eeprom.data 0 eeprom.size)
    ∧ (∀ base size, 0 ≤ base → 0 ≤ size → base + size < 2 ^ 31
      → (RangeDumped cell base size ↔ LastLinePrinted cell base size))
    ∧ (SramDumped cell mem sramEnd ↔ mem.ioRegEnd = sramEnd ∧ sramEnd = mem.xramEnd)
  := by
  obtain ⟨hfbase, hflow, hfhigh⟩ := hflash
  obtain ⟨hebase, helow, hehigh⟩ := heeprom
  obtain ⟨hio, hsram, hxram⟩ := hmem
  exact ⟨flashDumped_iff hfbase hflow hfhigh, eepromDumped_iff hebase helow hehigh,
    fun _ _ => rangeDumped_iff cell, sramDumped_iff cell hio hsram hxram⟩

/-- An erased flash and an erased EEPROM, and a device without SRAM, are dumped with all their
bytes. -/
theorem core_dump_erased :
  FlashDumped { base := 0, size := 8192, data := fun _ => 0xff }
    ∧ EepromDumped { base := 0, size := 512, data := fun _ => 0xff }
    ∧ SramDumped (fun _ => 0)
      { gpwrEnd := 0x1f, ioRegEnd := 0x5f, xramEnd := 0x5f
        cell := fun _ => { vdev := none, rdMask := 0xff, wrMask := 0xff } } 0x5f
  := by
  obtain ⟨hflash, heeprom, -, hsram⟩ := core_dump
    { base := 0, size := 8192, data := fun _ => 0xff }
    { base := 0, size := 512, data := fun _ => 0xff } (fun _ => 0)
    { gpwrEnd := 0x1f, ioRegEnd := 0x5f, xramEnd := 0x5f
      cell := fun _ => { vdev := none, rdMask := 0xff, wrMask := 0xff } } 0x5f
    (by decide) (by decide) (by decide)
  exact ⟨hflash.mpr (.inr ⟨by decide, by decide, by decide, rfl⟩),
    heeprom.mpr (.inr ⟨by decide, by decide, by decide, rfl⟩), hsram.mpr ⟨rfl, rfl⟩⟩

/-- The last 16 bytes of an EEPROM of 512 different lines are not printed, and the dumps of the SRAM
of a device with 512 bytes of it, and of its external memory, read other addresses. -/
theorem core_dump_last_line :
  ¬ EepromDumped { base := 0, size := 512, data := fun i => .ofInt 8 (i / 16) }
    ∧ ¬ FlashDumped { base := 0, size := 8192, data := fun i => .ofInt 8 (i / 16) }
    ∧ ∀ cell, ¬ SramDumped cell
      { gpwrEnd := 0x1f, ioRegEnd := 0x5f, xramEnd := 0xffff
        cell := fun _ => { vdev := none, rdMask := 0xff, wrMask := 0xff } } 0x25f
  := by
  refine ⟨?_, ?_, fun cell => ?_⟩
  · rw [eepromDumped_iff rfl (by decide) (by decide)]
    rintro (hzero | ⟨-, -, -, hlines⟩)
    · contradiction
    · exact absurd hlines (by decide)
  · rw [flashDumped_iff rfl (by decide) (by decide)]
    rintro (hzero | ⟨-, -, -, hlines⟩)
    · contradiction
    · exact absurd hlines (by decide)
  · rw [sramDumped_iff cell (by decide) (by decide) (by decide)]
    exact fun h => absurd h.1 (by decide)

end SimulAvr
