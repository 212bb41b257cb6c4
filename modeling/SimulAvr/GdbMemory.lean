import SimulAvr.Breakpoints
import SimulAvr.Device
import SimulAvr.GdbServer
import SimulAvr.Oseid
import SimulAvr.StackMemory
import SimulAvr.Lib.Ranges

/-!
# Memory packets: what is written is read

The three segments of the address space of gdb as stores of bytes: flash, where the low byte
of a word comes first, the SRAM, and the EEPROM.  A packet `M` writes a range of the store and
a packet `m` reads one, for starts and ends of either parity (`gdb_memory_round_trip`).
-/

namespace SimulAvr

open Program

/-! ### The text of a packet -/

/-- The number that follows `n` in hexadecimal digits. -/
def hexValue : (n : Nat) → List Char → Except AvrError Nat
  | n, [] => .ok n
  | n, ch :: text => do
    let nib ← hex2nib ch
    hexValue (n * 16 + nib.toNat) text

/-- The text of a byte reads as the byte. -/
theorem hex2nib_hexByte :
  ∀ bval : Byte, (hex2nib (hexDigit (bval >>> 4))).toOption = some (bval >>> 4) ∧
    (hex2nib (hexDigit (bval &&& 0xf))).toOption = some (bval &&& 0xf) ∧
    (bval >>> 4) <<< 4 + (bval &&& 0xf) = bval
  := by
  decide +kernel

theorem eq_ok_of_toOption
    {ε α : Type} {x : Except ε α} {a : α} (h : x.toOption = some a) :
  x = .ok a
  := by
  cases x with
  | error e => cases h
  | ok b =>
    cases h
    rfl

theorem gdbGetByte_hexByte
    (bval : Byte) (pkt : List Char) :
  gdbGetByte (hexByte bval ++ pkt) = .ok (bval, pkt)
  := by
  obtain ⟨hhigh, hlow, hval⟩ := hex2nib_hexByte bval
  have hhigh := eq_ok_of_toOption hhigh
  have hlow := eq_ok_of_toOption hlow
  simp only [gdbGetByte, hexByte, List.cons_append, List.nil_append, List.headD_cons,
    List.tail_cons, List.drop_succ_cons, List.drop_zero, hhigh, hlow, ok_bind, hval]
  rfl

/-- The data of a packet: two digits for each value -/
inductive IsData : List Byte → List Char → Prop
  | nil : IsData [] []
  | cons {val : Byte} {vals : List Byte} {high low : Char} {data : List Char}
      (hval : ∀ pkt, gdbGetByte (high :: low :: pkt) = .ok (val, pkt)) (hdata : IsData vals data) :
    IsData (val :: vals) (high :: low :: data)

theorem isData_hexByte
    (vals : List Byte) :
  IsData vals (vals.flatMap hexByte)
  := by
  induction vals with
  | nil => exact .nil
  | cons val vals ih => exact .cons (gdbGetByte_hexByte val) ih

/-- The data of some values and then others. -/
theorem IsData.split
    {vals vals' : List Byte} {data : List Char} (h : IsData (vals ++ vals') data) :
  ∃ front back, data = front ++ back ∧ IsData vals front ∧ IsData vals' back
  := by
  induction vals generalizing data with
  | nil => exact ⟨[], data, rfl, .nil, h⟩
  | cons val vals ih =>
    cases h with
    | cons hval hdata =>
      obtain ⟨front, back, rfl, hfront, hback⟩ := ih hdata
      exact ⟨_ :: _ :: front, back, rfl, .cons hval hfront, hback⟩

/-- One more digit of a number modulo 2^32. -/
theorem ofNat_digit
    (n : Nat) (nib : Byte) :
  BitVec.ofNat 32 n <<< 4 + nib.setWidth 32 = BitVec.ofNat 32 (n * 16 + nib.toNat)
  := by
  apply BitVec.eq_of_toNat_eq
  rw [BitVec.toNat_add, BitVec.toNat_shiftLeft, BitVec.toNat_setWidth, BitVec.toNat_ofNat,
    BitVec.toNat_ofNat, Nat.shiftLeft_eq]
  omega

/-- A number up to the character that ends it. -/
theorem gdbScanNum_hexValue
    {stop : Char} {e : AvrError} (hstop : hex2nib stop = .error e) {text : List Char} {n m : Nat}
    (h : hexValue n text = .ok m) (rest : List Char) :
  gdbScanNum stop (.ofNat 32 n) (text ++ stop :: rest) = .ok (.ofNat 32 m, rest)
  := by
  induction text generalizing n with
  | nil =>
    cases h
    rw [List.nil_append, gdbScanNum, if_pos rfl]
    rfl
  | cons ch text ih =>
    rw [hexValue] at h
    cases hnib : hex2nib ch with
    | error e' =>
      rw [hnib] at h
      contradiction
    | ok nib =>
      have hne : ch ≠ stop := by
        rintro rfl
        rw [hnib] at hstop
        contradiction
      rw [hnib, ok_bind] at h
      rw [List.cons_append, gdbScanNum, if_neg hne, hnib, ok_bind, ofNat_digit]
      apply ih h

/-- A number up to the end of the packet. -/
theorem gdbScanNum_hexValue_nul
    {text : List Char} {n m : Nat} (h : hexValue n text = .ok m) :
  gdbScanNum nul (.ofNat 32 n) text = .ok (.ofNat 32 m, [])
  := by
  induction text generalizing n with
  | nil =>
    cases h
    rfl
  | cons ch text ih =>
    rw [hexValue] at h
    cases hnib : hex2nib ch with
    | error e' =>
      rw [hnib] at h
      contradiction
    | ok nib =>
      have hne : ch ≠ nul := by
        rintro rfl
        contradiction
      rw [hnib, ok_bind] at h
      rw [gdbScanNum, if_neg hne, hnib, ok_bind, ofNat_digit]
      apply ih h

theorem toInt_ofNat
    {n : Nat} (h : n < 2 ^ 31) :
  (BitVec.ofNat 32 n).toInt = n
  := by
  rw [BitVec.toInt_eq_toNat_cond, BitVec.toNat_ofNat]
  split <;> omega

/-- `m addr,len` -/
theorem gdbGetAddrLen_read
    {addr len : Nat} {addrText lenText : List Char} (haddr : hexValue 0 addrText = .ok addr)
    (hlen : hexValue 0 lenText = .ok len) (haddr' : addr < 2 ^ 31) (hlen' : len < 2 ^ 31) :
  gdbGetAddrLen (addrText ++ ',' :: lenText) ',' nul = .ok (addr, len, [])
  := by
  have hcomma : hex2nib ',' = .error (.message "Invalid hexidecimal digit: 0x%02x" [0x2c]) := rfl
  have hscan := gdbScanNum_hexValue hcomma haddr lenText
  have hscan' := gdbScanNum_hexValue_nul hlen
  change gdbScanNum ',' 0 (addrText ++ ',' :: lenText) = _ at hscan
  change gdbScanNum nul 0 lenText = _ at hscan'
  rw [gdbGetAddrLen, hscan, ok_bind]
  simp only [hscan', ok_bind, toInt_ofNat haddr', toInt_ofNat hlen']
  rfl

/-- `M addr,len:data` -/
theorem gdbGetAddrLen_write
    {addr len : Nat} {addrText lenText : List Char} (haddr : hexValue 0 addrText = .ok addr)
    (hlen : hexValue 0 lenText = .ok len) (haddr' : addr < 2 ^ 31) (hlen' : len < 2 ^ 31)
    (data : List Char) :
  gdbGetAddrLen (addrText ++ ',' :: (lenText ++ ':' :: data)) ',' ':' = .ok (addr, len, data)
  := by
  have hcomma : hex2nib ',' = .error (.message "Invalid hexidecimal digit: 0x%02x" [0x2c]) := rfl
  have hcolon : hex2nib ':' = .error (.message "Invalid hexidecimal digit: 0x%02x" [0x3a]) := rfl
  have hscan := gdbScanNum_hexValue hcomma haddr (lenText ++ ':' :: data)
  have hscan' := gdbScanNum_hexValue hcolon hlen data
  change gdbScanNum ',' 0 _ = _ at hscan
  change gdbScanNum ':' 0 _ = _ at hscan'
  rw [gdbGetAddrLen, hscan, ok_bind]
  simp only [hscan', ok_bind, toInt_ofNat haddr', toInt_ofNat hlen']
  rfl

/-! ### Segments -/

/-- The segments of the address space of gdb. -/
inductive Segment where
  | flash
  | sram
  | eeprom
  deriving DecidableEq

variable {δ : Type} {c c' : AvrCore (WithEEprom δ)} {s : Segment} {addr x : Int}

namespace Segment

/-- Where the segment starts in the address space of gdb. -/
def offset : Segment → Int
  | flash => 0
  | sram => sramOffset
  | eeprom => eepromOffset

/-- The bytes of the segment. -/
def byte (c : AvrCore (WithEEprom δ)) : Segment → Int → Byte
  | flash => c.flash.byte
  | sram => fun x => c.sram.data (x - c.sram.base)
  | eeprom => c.dev.ee.mem

/-- The address is inside of the segment: in a flash of whole words from 0, attached to the
SRAM, or below the size of the EEPROM. -/
def Has (c : AvrCore (WithEEprom δ)) : Segment → Int → Prop
  | flash, x => (c.flash.base = 0 ∧ c.flash.size % 2 = 0) ∧ 0 ≤ x ∧ x < c.flash.size ∧
      x < sramOffset
  | sram, x => ∃ a : Word, x = a.toNat ∧ c.layout.IsSram a
  | eeprom, x => 0 ≤ x ∧ x < 4096

/-- Whether an address is inside of a segment depends on the layout. -/
theorem has_congr
    (h : c'.layout = c.layout) (s : Segment) (x : Int) :
  s.Has c' x ↔ s.Has c x
  := by
  cases s with
  | flash =>
    have hbase : c'.layout.flashBase = c.layout.flashBase := by rw [h]
    have hsize : c'.layout.flashSize = c.layout.flashSize := by rw [h]
    change c'.flash.base = c.flash.base at hbase
    change c'.flash.size = c.flash.size at hsize
    rw [Has, Has, hbase, hsize]
  | sram => rw [Has, Has, h]
  | eeprom => rfl

/-- An address inside of a segment, in the address space of gdb. -/
theorem Has.offset_bounds
    (h : s.Has c x) :
  s.offset ≤ s.offset + x ∧ s.offset + x < 2 ^ 31
  := by
  cases s with
  | flash =>
    obtain ⟨-, hlow, -, hhigh⟩ := h
    simp only [Segment.offset, sramOffset] at *
    omega
  | sram =>
    obtain ⟨a, rfl, -⟩ := h
    have := a.isLt
    simp only [Segment.offset, sramOffset] at *
    omega
  | eeprom =>
    obtain ⟨hlow, hhigh⟩ := h
    simp only [Segment.offset, eepromOffset] at *
    omega

end Segment

/-- The core `c'` is `c` after the values are written from `addr` on in the segment, as far
as the segments are concerned. -/
structure Wrote (s : Segment) (addr : Int) (vals : List Byte) (c c' : AvrCore (WithEEprom δ)) :
    Prop where
  byte : s.byte c' = writeRange (s.byte c) addr vals
  other : ∀ s' : Segment, s' ≠ s → s'.byte c' = s'.byte c
  layout : c'.layout = c.layout

namespace Wrote

variable {vals vals' : List Byte} {c'' : AvrCore (WithEEprom δ)}

/-- Nothing is written. -/
theorem refl
    (s : Segment) (addr : Int) (c : AvrCore (WithEEprom δ)) :
  Wrote s addr [] c c
  := by
  constructor
  · rfl
  · intro _ _
    rfl
  · rfl

/-- One write after another. -/
theorem trans
    (h : Wrote s addr vals c c') (h' : Wrote s (addr + vals.length) vals' c' c'') :
  Wrote s addr (vals ++ vals') c c''
  := by
  constructor
  · rw [writeRange_append, ← h.byte, h'.byte]
  · intro s' hs'
    rw [h'.other s' hs', h.other s' hs']
  · rw [h'.layout, h.layout]

/-- No other byte of any segment changes. -/
theorem byte_eq
    (h : Wrote s addr vals c c') {s' : Segment}
    (hx : s' ≠ s ∨ x < addr ∨ addr + vals.length ≤ x) :
  s'.byte c' x = s'.byte c x
  := by
  by_cases hs : s' = s
  · rw [hs, h.byte]
    apply writeRange_of_not_mem
    obtain hne | hout := hx
    · contradiction
    · apply hout
  · rw [h.other s' hs]

end Wrote

/-! ### Reading a segment -/

/-- A loop that puts texts into the reply. -/
theorem run_loop_append
    {σ : Type} {d : AvrCore σ} {body : Int → List Char → CoreM σ (List Char)}
    {text : Int → List Char} {n : Nat}
    (hbody : ∀ j buf, addr ≤ j → j < addr + n → (body j buf).run d = .ok (buf ++ text j, d))
    (buf : List Char) :
  (loop body addr n buf).run d = .ok (buf ++ (readRange text addr n).flatten, d)
  := by
  induction n generalizing addr buf with
  | zero =>
    rw [readRange, List.flatten_nil, List.append_nil]
    rfl
  | succ n ih =>
    rw [loop, run_bind_of_ok (hbody addr buf (by omega) (by omega)), ih, readRange,
      List.flatten_cons, List.append_assoc]
    intro j buf hlow hhigh
    apply hbody
    · omega
    · omega

/-- The digits of bytes read one by one. -/
theorem readRange_hexByte
    (store : Int → Byte) (addr : Int) (n : Nat) :
  (readRange (fun x => hexByte (store x)) addr n).flatten = (readRange store addr n).flatMap hexByte
  := by
  induction n generalizing addr with
  | zero => rfl
  | succ n ih => rw [readRange, readRange, List.flatten_cons, List.flatMap_cons, ih]

/-- The digits of bytes read two by two. -/
theorem readRange_hexByte_pair
    (store : Int → Byte) (addr : Int) (n : Nat) :
  (readRange (fun w => hexByte (store (2 * w)) ++ hexByte (store (2 * w + 1))) addr n).flatten
    = (readRange store (2 * addr) (2 * n)).flatMap hexByte
  := by
  induction n generalizing addr with
  | zero => rfl
  | succ n ih =>
    have hnext : 2 * (addr + 1) = 2 * addr + 1 + 1 := by omega
    rw [readRange, List.flatten_cons, ih, hnext, Nat.mul_succ, readRange, readRange,
      List.flatMap_cons, List.flatMap_cons, List.append_assoc]

/-- The bytes of a word are its low byte and its high byte. -/
theorem byte_of_word
    (flash : Flash) (w : Int) :
  (flash.word w).extractLsb' 0 8 = flash.byte (2 * w) ∧
    (flash.word w).extractLsb' 8 8 = flash.byte (2 * w + 1)
  := by
  rw [flash.word_eq]
  constructor
  · apply BitVec.extractLsb'_append_eq_right
  · apply BitVec.extractLsb'_append_eq_left

section Flash

variable {σ : Type} {d : AvrCore σ}

/-- A flash of whole words from 0 has the words of its bytes. -/
theorem Flash.valid_of_bytes
    {flash : Flash} (hflash : flash.base = 0 ∧ flash.size % 2 = 0) {w : Int} (hlow : 0 ≤ w)
    (hhigh : 2 * w < flash.size) :
  flash.Valid w
  := by
  obtain ⟨hbase, hsize⟩ := hflash
  rw [Flash.Valid, hbase]
  omega

theorem run_gdbReadFlashEven
    (hflash : d.flash.base = 0 ∧ d.flash.size % 2 = 0) (heven : addr % 2 = 0) (hlow : 0 ≤ addr)
    {n : Nat} (hhigh : addr + n ≤ d.flash.size) (buf : List Char) :
  (gdbReadFlashEven addr n buf).run d =
    .ok (buf ++ (readRange d.flash.byte addr n).flatMap hexByte, d)
  := by
  have hread (w : Int) (hwlow : addr / 2 ≤ w) (hwhigh : 2 * w < addr + n) :
      (avrCoreFlashRead w).run d = .ok (d.flash.word w, d) := by
    apply run_avrCoreFlashRead_of_valid
    apply Flash.valid_of_bytes hflash
    · omega
    · omega
  have hbody : ∀ w buf, addr / 2 ≤ w → w < addr / 2 + (n / 2 : Nat) →
      (do
        let wval ← avrCoreFlashRead w
        return buf ++ hexByte (wval.extractLsb' 0 8) ++ hexByte (wval.extractLsb' 8 8) :
          CoreM σ (List Char)).run d =
        .ok (buf ++ (hexByte (d.flash.byte (2 * w)) ++ hexByte (d.flash.byte (2 * w + 1))), d) := by
    intro w buf hwlow hwhigh
    obtain ⟨hlo, hhi⟩ := byte_of_word d.flash w
    rw [run_bind_of_ok (hread w hwlow (by omega)), hlo, hhi, List.append_assoc]
    rfl
  have hwords : 2 * (addr / 2) = addr := by omega
  rw [gdbReadFlashEven, run_bind_of_ok (run_loop_append hbody buf), readRange_hexByte_pair, hwords]
  split
  · next hodd =>
    obtain ⟨hlo, -⟩ := byte_of_word d.flash (addr / 2 + (n / 2 : Nat))
    have hlast : 2 * (addr / 2 + (n / 2 : Nat)) = addr + (2 * (n / 2) : Nat) := by omega
    have hn : n = 2 * (n / 2) + 1 := by omega
    rw [run_bind_of_ok (hread _ (by omega) (by omega)), hlo, hlast]
    conv_rhs => rw [hn, readRange_add, List.flatMap_append, readRange, readRange,
      List.flatMap_singleton, ← List.append_assoc]
    rfl
  · have hn : 2 * (n / 2) = n := by omega
    rw [hn]
    rfl

theorem run_gdbReadFlash
    (hflash : d.flash.base = 0 ∧ d.flash.size % 2 = 0) (hlow : 0 ≤ addr) {n : Nat}
    (hn : addr % 2 = 1 → 1 ≤ n) (hhigh : addr + n ≤ d.flash.size) :
  (gdbReadFlash addr n).run d = .ok ((readRange d.flash.byte addr n).flatMap hexByte, d)
  := by
  rw [gdbReadFlash]
  split
  · next hodd =>
    have hpos := hn hodd
    obtain ⟨-, hhi⟩ := byte_of_word d.flash (addr.tdiv 2)
    have hdiv : addr.tdiv 2 = addr / 2 := Int.tdiv_eq_ediv_of_nonneg hlow
    have hfirst : 2 * (addr / 2) + 1 = addr := by omega
    have hvalid : d.flash.Valid (addr.tdiv 2) := by
      apply Flash.valid_of_bytes hflash
      · omega
      · omega
    have hrest : ((n : Int) - 1).toNat = n - 1 := by omega
    have hn' : n = n - 1 + 1 := by omega
    rw [run_bind_of_ok (run_avrCoreFlashRead_of_valid hvalid), hhi, hdiv, hfirst, hrest,
      run_gdbReadFlashEven hflash (by omega) (by omega) (by omega)]
    conv_rhs => rw [hn', readRange, List.flatMap_cons]
  · rw [run_gdbReadFlashEven hflash (by omega) hlow (by omega), List.nil_append]
    rfl

end Flash

/-- The bytes that are read, one after the other, put into a reply. -/
theorem run_loop_hexByte
    {σ : Type} {d : AvrCore σ} {body : Int → List Char → CoreM σ (List Char)}
    {store : Int → Byte} {n : Nat}
    (hbody : ∀ j buf, addr ≤ j → j < addr + n →
      (body j buf).run d = .ok (buf ++ hexByte (store j), d)) :
  (loop body addr n []).run d = .ok ((readRange store addr n).flatMap hexByte, d)
  := by
  rw [run_loop_append hbody, readRange_hexByte, List.nil_append]

variable [IoDevices δ]

/-- A read inside of a segment, of a byte at least where it starts at an odd address of flash. -/
theorem run_gdbReadSegment
    {n : Nat} (hfirst : s.Has c addr) (hn : s = .flash → addr % 2 = 1 → 1 ≤ n)
    (hin : ∀ x, addr ≤ x → x < addr + n → s.Has c x) :
  (gdbReadSegment (s.offset + addr) n).run c =
    .ok ((readRange (s.byte c) addr n).flatMap hexByte, c)
  := by
  cases s with
  | flash =>
    obtain ⟨hflash, hlow, hhigh, hoffset⟩ := hfirst
    have hend : addr + n ≤ c.flash.size := by
      rcases Nat.eq_zero_or_pos n with rfl | hpos
      · omega
      · obtain ⟨-, -, hlast, -⟩ := hin (addr + n - 1) (by omega) (by omega)
        omega
    have hnot : ¬ (sramOffset ≤ Segment.flash.offset + addr ∧
        Segment.flash.offset + addr < eepromOffset) := by
      rw [Segment.offset]
      omega
    rw [gdbReadSegment, if_neg hnot, Segment.offset, Int.zero_add, if_pos hoffset]
    exact run_gdbReadFlash hflash hlow (hn rfl) hend
  | sram =>
    obtain ⟨a, rfl, -⟩ := hfirst
    have ha := a.isLt
    have hpos : sramOffset ≤ Segment.sram.offset + (a.toNat : Int) ∧
        Segment.sram.offset + (a.toNat : Int) < eepromOffset := by
      simp only [Segment.offset, sramOffset, eepromOffset]
      omega
    have hsub : Segment.sram.offset + (a.toNat : Int) - sramOffset = a.toNat := by
      simp only [Segment.offset]
      omega
    rw [gdbReadSegment, if_pos hpos, hsub, gdbReadSram, Int.toNat_natCast]
    apply run_loop_hexByte
    intro j buf hlow hhigh
    obtain ⟨b, rfl, hb⟩ := hin j hlow hhigh
    rw [run_bind_of_ok (memRead_sram hb)]
    rfl
  | eeprom =>
    obtain ⟨hlow, -⟩ := hfirst
    have hneg : ¬ (sramOffset ≤ Segment.eeprom.offset + addr ∧
        Segment.eeprom.offset + addr < eepromOffset) := by
      simp only [Segment.offset, sramOffset, eepromOffset]
      omega
    have hneg' : ¬ Segment.eeprom.offset + addr < sramOffset := by
      simp only [Segment.offset, sramOffset, eepromOffset]
      omega
    have hsub : Segment.eeprom.offset + addr - eepromOffset = addr := by
      simp only [Segment.offset]
      omega
    rw [gdbReadSegment, if_neg hneg, if_neg hneg', hsub, gdbReadEeprom, Int.toNat_natCast]
    apply run_loop_hexByte
    intro j buf hlow hhigh
    obtain ⟨-, hj⟩ := hin j hlow hhigh
    have hread : IoDevices.gdbEeRead j c.dev = c.dev.ee.mem j := if_pos hj
    rw [run_bind_of_ok (run_gets _ c), hread]
    rfl

/-! ### Writing a segment -/

omit [IoDevices δ] in
/-- A loop that takes bytes from the packet and writes them one by one. -/
theorem run_loop_wrote
    {write : Int → Byte → CoreM (WithEEprom δ) Unit}
    (hwrite : ∀ (d : AvrCore (WithEEprom δ)) j bval, s.Has d j →
      ∃ d', (write j bval).run d = .ok ((), d') ∧ Wrote s j [bval] d d')
    {vals : List Byte} {data : List Char} (hdata : IsData vals data)
    (hin : ∀ x, addr ≤ x → x < addr + vals.length → s.Has c x) (pkt : List Char) :
  ∃ c', (loop (fun addr pkt => do
      let (bval, pkt) ← liftExcept (gdbGetByte pkt)
      write addr bval
      return pkt) addr vals.length (data ++ pkt)).run c = .ok (pkt, c') ∧
    Wrote s addr vals c c'
  := by
  induction hdata generalizing c addr with
  | nil => exact ⟨c, rfl, .refl s addr c⟩
  | @cons val vals high low data hval _ ih =>
    rw [List.length_cons] at hin
    have hfirst := hin addr (by omega) (by omega)
    obtain ⟨c₁, hrun, hwrote⟩ := hwrite c addr val hfirst
    have hin' : ∀ x, addr + 1 ≤ x → x < addr + 1 + vals.length → s.Has c₁ x := by
      intro x hlow hhigh
      rw [Segment.has_congr hwrote.layout]
      apply hin
      · omega
      · omega
    obtain ⟨c', hrun', hwrote'⟩ := ih hin'
    use c'
    constructor
    · rw [List.length_cons, loop]
      apply Eq.trans (run_bind_of_ok _) hrun'
      rw [List.cons_append, List.cons_append, run_bind_of_ok (run_liftExcept_ok (hval _) c)]
      apply run_bind_of_ok hrun
    · apply hwrote.trans hwrote'

omit [IoDevices δ] in
/-- A change of the flash that keeps its extent. -/
theorem Wrote.flash
    {vals : List Byte} (hsram : c'.sram = c.sram) (hdev : c'.dev = c.dev)
    (hlayout : c'.layout = c.layout) (hbyte : c'.flash.byte = writeRange c.flash.byte addr vals) :
  Wrote .flash addr vals c c'
  := by
  constructor
  · apply hbyte
  · intro s' hs'
    cases s' with
    | flash => contradiction
    | sram => rw [Segment.byte, Segment.byte, hsram]
    | eeprom => rw [Segment.byte, Segment.byte, hdev]
  · apply hlayout

omit [IoDevices δ] in
theorem run_avrCoreFlashWriteLo8
    {w : Int} (h : Segment.flash.Has c (2 * w)) (val : Byte) :
  ∃ c', (avrCoreFlashWriteLo8 w val).run c = .ok ((), c') ∧ Wrote .flash (2 * w) [val] c c'
  := by
  obtain ⟨⟨hbase, hsize⟩, hlow, hhigh, -⟩ := h
  have hin : 0 ≤ w * 2 + 1 - c.flash.base ∧ w * 2 + 1 - c.flash.base < c.flash.size := by
    rw [hbase]
    omega
  use { c with flash := c.flash.setByte (2 * w) val }
  constructor
  · rw [avrCoreFlashWriteLo8, run_bind_of_ok (run_gets _ c),
      run_bind_of_ok (run_liftExcept_ok (Flash.storageWriteb_low hin val) c)]
    rfl
  · apply Wrote.flash
    · rfl
    · rfl
    · rfl
    · apply Flash.byte_setByte

omit [IoDevices δ] in
theorem run_avrCoreFlashWriteHi8
    {w : Int} (h : Segment.flash.Has c (2 * w + 1)) (val : Byte) :
  ∃ c', (avrCoreFlashWriteHi8 w val).run c = .ok ((), c') ∧ Wrote .flash (2 * w + 1) [val] c c'
  := by
  obtain ⟨hflash, hlow, hhigh, -⟩ := h
  have hvalid : c.flash.Valid w := by
    apply Flash.valid_of_bytes hflash
    · omega
    · omega
  use { c with flash := c.flash.setByte (2 * w + 1) val }
  constructor
  · rw [avrCoreFlashWriteHi8, run_bind_of_ok (run_gets _ c),
      run_bind_of_ok (run_liftExcept_ok (Flash.storageWriteb_high hvalid val) c)]
    rfl
  · apply Wrote.flash
    · rfl
    · rfl
    · rfl
    · apply Flash.byte_setByte

omit [IoDevices δ] in
/-- The loop over the words of a flash. -/
theorem run_gdbWriteFlash_words
    {w : Int} {n : Nat} {vals : List Byte} (hvals : vals.length = 2 * n) {data : List Char}
    (hdata : IsData vals data)
    (hin : ∀ x, 2 * w ≤ x → x < 2 * w + vals.length → Segment.flash.Has c x) (pkt : List Char) :
  ∃ c', (loop (fun addr pkt => do
      let (low, pkt) ← liftExcept (gdbGetByte pkt)
      let (high, pkt) ← liftExcept (gdbGetByte pkt)
      avrCoreFlashWrite addr (high ++ low)
      return pkt) w n (data ++ pkt)).run c = .ok (pkt, c') ∧
    Wrote .flash (2 * w) vals c c'
  := by
  induction n generalizing c w vals data with
  | zero =>
    obtain rfl := List.eq_nil_of_length_eq_zero hvals
    cases hdata
    exact ⟨c, rfl, .refl _ _ c⟩
  | succ n ih =>
    obtain ⟨low, vals, rfl⟩ := List.exists_cons_of_length_pos (l := vals) (by omega)
    obtain ⟨high, vals, rfl⟩ := List.exists_cons_of_length_pos (l := vals)
      (by rw [List.length_cons] at hvals; omega)
    obtain _ | ⟨hlowval, _ | ⟨hhighval, hrest⟩⟩ := hdata
    rw [List.length_cons, List.length_cons] at hvals hin
    obtain ⟨hflash, hlow, hhigh, -⟩ := hin (2 * w) (by omega) (by omega)
    have hvalid : c.flash.Valid w := by
      apply Flash.valid_of_bytes hflash
      · omega
      · omega
    have hwrote : Wrote .flash (2 * w) [low, high] c (c.writeWord w (high ++ low)) := by
      apply Wrote.flash
      · rfl
      · rfl
      · rfl
      · apply Flash.byte_setWord
    have hin' : ∀ x, 2 * (w + 1) ≤ x → x < 2 * (w + 1) + vals.length →
        Segment.flash.Has (c.writeWord w (high ++ low)) x := by
      intro x hxlow hxhigh
      rw [Segment.has_congr hwrote.layout]
      apply hin
      · omega
      · omega
    have hlength : vals.length = 2 * n := by omega
    obtain ⟨c', hrun, hwrote'⟩ := ih hlength hrest hin'
    have hnext : 2 * (w + 1) = 2 * w + ([low, high] : List Byte).length := by
      rw [List.length_cons, List.length_singleton]
      omega
    use c'
    constructor
    · rw [loop]
      apply Eq.trans (run_bind_of_ok _) hrun
      rw [List.cons_append, List.cons_append, List.cons_append, List.cons_append, run_bind_of_ok (run_liftExcept_ok (hlowval _) c),
        run_bind_of_ok (run_liftExcept_ok (hhighval _) c)]
      rw [run_bind_of_ok (run_avrCoreFlashWrite_of_valid hvalid _)]
      rfl
    · rw [hnext] at hwrote'
      apply hwrote.trans hwrote'

omit [IoDevices δ] in
theorem run_gdbWriteFlashEven
    (heven : addr % 2 = 0) {vals : List Byte} {data : List Char} (hdata : IsData vals data)
    (hin : ∀ x, addr ≤ x → x < addr + vals.length → Segment.flash.Has c x) (rest : List Char) :
  ∃ c', (gdbWriteFlashEven addr vals.length (data ++ rest)).run c = .ok ((), c') ∧
    Wrote .flash addr vals c c'
  := by
  have haddr : 2 * (addr / 2) = addr := by omega
  -- the whole words, and the odd byte at the end if there is one
  have hsplit : vals.take (2 * (vals.length / 2)) ++ vals.drop (2 * (vals.length / 2)) = vals :=
    List.take_append_drop _ _
  generalize hwords : vals.take (2 * (vals.length / 2)) = words at hsplit
  generalize vals.drop (2 * (vals.length / 2)) = last at hsplit
  have hlength : words.length = 2 * (vals.length / 2) := by
    rw [← hwords, List.length_take]
    omega
  have hlast : words.length + last.length = vals.length := by
    rw [← hsplit, List.length_append]
  have hin' : ∀ x, 2 * (addr / 2) ≤ x → x < 2 * (addr / 2) + words.length →
      Segment.flash.Has c x := by
    intro x hlow hhigh
    apply hin
    · omega
    · omega
  rw [← hsplit] at hdata
  obtain ⟨front, back, rfl, hfront, hback⟩ := hdata.split
  obtain ⟨c₁, hrun, hwrote⟩ := run_gdbWriteFlash_words hlength hfront hin' (back ++ rest)
  rw [haddr] at hwrote
  rw [gdbWriteFlashEven, List.append_assoc, run_bind_of_ok hrun]
  split
  · next hodd =>
    obtain ⟨val, rfl⟩ : ∃ val, last = [val] := by
      rw [← List.length_eq_one_iff]
      omega
    have hend : 2 * (addr / 2 + (vals.length / 2 : Nat)) = addr + words.length := by omega
    have hhas : Segment.flash.Has c₁ (2 * (addr / 2 + (vals.length / 2 : Nat))) := by
      rw [Segment.has_congr hwrote.layout, hend]
      rw [List.length_singleton] at hlast
      apply hin
      · omega
      · omega
    obtain ⟨c', hrun', hwrote'⟩ := run_avrCoreFlashWriteLo8 hhas val
    obtain _ | ⟨hval, _ | _⟩ := hback
    use c'
    constructor
    · rw [List.cons_append, List.cons_append, run_bind_of_ok (run_liftExcept_ok (hval _) c₁)]
      apply hrun'
    · rw [hend] at hwrote'
      rw [← hsplit]
      apply hwrote.trans hwrote'
  · have hnone : last = [] := by
      apply List.eq_nil_of_length_eq_zero
      omega
    rw [hnone, List.append_nil] at hsplit
    rw [hsplit] at hwrote
    exact ⟨c₁, rfl, hwrote⟩

omit [IoDevices δ] in
theorem run_gdbWriteFlash
    {vals : List Byte} (hvals : addr % 2 = 1 → 1 ≤ vals.length) {data : List Char}
    (hdata : IsData vals data)
    (hin : ∀ x, addr ≤ x → x < addr + vals.length → Segment.flash.Has c x) (rest : List Char) :
  ∃ c', (gdbWriteFlash addr vals.length (data ++ rest)).run c = .ok ((), c') ∧
    Wrote .flash addr vals c c'
  := by
  rw [gdbWriteFlash]
  split
  · next hodd =>
    obtain ⟨val, vals, rfl⟩ := List.exists_cons_of_length_pos (hvals hodd)
    obtain _ | ⟨hval, hdata⟩ := hdata
    rw [List.length_cons] at hin
    have hhas := hin addr (by omega) (by omega)
    obtain ⟨-, hlow, -⟩ := id hhas
    have hdiv : addr.tdiv 2 = addr / 2 := Int.tdiv_eq_ediv_of_nonneg hlow
    have haddr : 2 * (addr / 2) + 1 = addr := by omega
    rw [← haddr] at hhas
    obtain ⟨c₁, hrun, hwrote⟩ := run_avrCoreFlashWriteHi8 hhas val
    rw [haddr] at hwrote
    have hin' : ∀ x, addr + 1 ≤ x → x < addr + 1 + vals.length → Segment.flash.Has c₁ x := by
      intro x hxlow hxhigh
      rw [Segment.has_congr hwrote.layout]
      apply hin
      · omega
      · omega
    obtain ⟨c', hrun', hwrote'⟩ := run_gdbWriteFlashEven (by omega) hdata hin' rest
    have hlength : (((val :: vals).length : Int) - 1).toNat = vals.length := by
      rw [List.length_cons]
      omega
    use c'
    constructor
    · rw [List.cons_append, List.cons_append, hlength,
        run_bind_of_ok (run_liftExcept_ok (hval _) c), hdiv]
      apply (run_bind_of_ok hrun).trans hrun'
    · apply hwrote.trans hwrote'
  · apply run_gdbWriteFlashEven (by omega) hdata hin

/-- A write of a byte of the SRAM. -/
theorem memWrite_wrote
    (d : AvrCore (WithEEprom δ)) (j : Int) (bval : Byte) (h : Segment.sram.Has d j) :
  ∃ d', (memWrite j bval).run d = .ok ((), d') ∧ Wrote .sram j [bval] d d'
  := by
  obtain ⟨a, rfl, ha⟩ := h
  obtain ⟨display, hrun⟩ := memWrite_sram ha bval
  refine ⟨_, hrun, ?_⟩
  constructor
  · funext x
    change Function.update d.sram.data (a.toNat - d.sram.base) bval (x - d.sram.base) = _
    rw [writeRange, writeRange]
    by_cases hx : x = a.toNat
    · rw [hx, Function.update_self, Function.update_self]
    · rw [Function.update_of_ne (by omega), Function.update_of_ne hx]
      rfl
  · intro s' hs'
    cases s' with
    | sram => contradiction
    | flash => rfl
    | eeprom => rfl
  · rfl

/-- A write of a byte of the EEPROM. -/
theorem gdbEeWrite_wrote
    (d : AvrCore (WithEEprom δ)) (j : Int) (bval : Byte) (h : Segment.eeprom.Has d j) :
  ∃ d', (update fun c => { c with dev := IoDevices.gdbEeWrite j bval c.dev }).run d = .ok ((), d') ∧
    Wrote .eeprom j [bval] d d'
  := by
  obtain ⟨-, hhigh⟩ := h
  have hwrite : d.dev.ee.gdbWrite j bval
      = { d.dev.ee with mem := Function.update d.dev.ee.mem j bval } := if_pos hhigh
  refine ⟨_, rfl, ?_⟩
  constructor
  · change (d.dev.ee.gdbWrite j bval).mem = _
    rw [hwrite]
    rfl
  · intro s' hs'
    cases s' with
    | eeprom => contradiction
    | flash => rfl
    | sram => rfl
  · rfl

/-- A write inside of a segment, of a byte at least where it starts at an odd address of flash. -/
theorem run_gdbWriteSegment
    {vals : List Byte} (hfirst : s.Has c addr)
    (hvals : s = .flash → addr % 2 = 1 → 1 ≤ vals.length) {data : List Char}
    (hdata : IsData vals data) (hin : ∀ x, addr ≤ x → x < addr + vals.length → s.Has c x)
    (rest : List Char) :
  ∃ c', (gdbWriteSegment (s.offset + addr) vals.length (data ++ rest)).run c
      = .ok ((), c') ∧ Wrote s addr vals c c'
  := by
  cases s with
  | flash =>
    obtain ⟨hflash, hlow, -, hoffset⟩ := hfirst
    have hnot : ¬ (sramOffset ≤ Segment.flash.offset + addr ∧
        Segment.flash.offset + addr < eepromOffset) := by
      rw [Segment.offset]
      omega
    rw [gdbWriteSegment, if_neg hnot, Segment.offset, Int.zero_add, if_pos hoffset]
    apply run_gdbWriteFlash (hvals rfl) hdata hin
  | sram =>
    obtain ⟨a, rfl, -⟩ := hfirst
    have ha := a.isLt
    have hpos : sramOffset ≤ Segment.sram.offset + (a.toNat : Int) ∧
        Segment.sram.offset + (a.toNat : Int) < eepromOffset := by
      simp only [Segment.offset, sramOffset, eepromOffset]
      omega
    have hsub : Segment.sram.offset + (a.toNat : Int) - sramOffset = a.toNat := by
      simp only [Segment.offset]
      omega
    obtain ⟨c', hrun, hwrote⟩ := run_loop_wrote memWrite_wrote hdata hin rest
    use c'
    constructor
    · rw [gdbWriteSegment, if_pos hpos, hsub, gdbWriteSram, Int.toNat_natCast,
        run_bind_of_ok hrun]
      rfl
    · apply hwrote
  | eeprom =>
    obtain ⟨hlow, -⟩ := hfirst
    have hneg : ¬ (sramOffset ≤ Segment.eeprom.offset + addr ∧
        Segment.eeprom.offset + addr < eepromOffset) := by
      simp only [Segment.offset, sramOffset, eepromOffset]
      omega
    have hneg' : ¬ Segment.eeprom.offset + addr < sramOffset := by
      simp only [Segment.offset, sramOffset, eepromOffset]
      omega
    have hsub : Segment.eeprom.offset + addr - eepromOffset = addr := by
      simp only [Segment.offset]
      omega
    obtain ⟨c', hrun, hwrote⟩ := run_loop_wrote gdbEeWrite_wrote hdata hin rest
    use c'
    constructor
    · rw [gdbWriteSegment, if_neg hneg, if_neg hneg', hsub, gdbWriteEeprom, Int.toNat_natCast,
        run_bind_of_ok hrun]
      rfl
    · apply hwrote

/-! ### Packets -/

/-- The packet `addr,len` of a read. -/
def IsReadPacket (addr len : Nat) (pkt : List Char) : Prop :=
  ∃ addrText lenText, hexValue 0 addrText = .ok addr ∧ hexValue 0 lenText = .ok len ∧
    pkt = addrText ++ ',' :: lenText

/-- The packet `addr,len:data` of a write, with the digits of the values as its data. -/
def IsWritePacket (addr : Nat) (vals : List Byte) (pkt : List Char) : Prop :=
  ∃ addrText lenText, hexValue 0 addrText = .ok addr ∧
    hexValue 0 lenText = .ok vals.length ∧
    pkt = addrText ++ ',' :: (lenText ++ ':' :: vals.flatMap hexByte)

theorem length_flatMap_hexByte
    (vals : List Byte) :
  (vals.flatMap hexByte).length = 2 * vals.length
  := by
  induction vals with
  | nil => rfl
  | cons val vals ih =>
    rw [List.flatMap_cons, List.length_append, ih, List.length_cons]
    change 2 + _ = _
    omega

/-- The reply to a packet that reads inside of a segment. -/
theorem run_gdbReadMemory
    {n : Nat} (hfirst : s.Has c addr) (hn : s = .flash → addr % 2 = 1 → 1 ≤ n)
    (hin : ∀ x, addr ≤ x → x < addr + n → s.Has c x) (hlength : n < 2 ^ 31) {pkt : List Char}
    (hpkt : IsReadPacket (s.offset + addr).toNat n pkt) :
  (gdbReadMemory pkt).run c
    = (gdbSendReply ((readRange (s.byte c) addr n).flatMap hexByte)).run c
  := by
  obtain ⟨addrText, lenText, haddr, hlen, rfl⟩ := hpkt
  obtain ⟨hlow, hhigh⟩ := hfirst.offset_bounds
  have hoffset : 0 ≤ s.offset := by cases s <;> decide
  have haddr' : ((s.offset + addr).toNat : Int) = s.offset + addr := by omega
  have hparse := gdbGetAddrLen_read haddr hlen (by omega) hlength
  rw [haddr'] at hparse
  rw [gdbReadMemory, run_bind_of_ok (run_liftExcept_ok hparse c)]
  apply run_bind_of_ok (run_gdbReadSegment hfirst hn hin)

/-- A packet that writes inside of a segment. -/
theorem run_gdbWriteMemory
    {vals : List Byte} (hfirst : s.Has c addr)
    (hvals : s = .flash → addr % 2 = 1 → 1 ≤ vals.length)
    (hin : ∀ x, addr ≤ x → x < addr + vals.length → s.Has c x) (hlength : vals.length < 2 ^ 31)
    {addrText lenText data rest : List Char}
    (haddr : hexValue 0 addrText = .ok (s.offset + addr).toNat)
    (hlen : hexValue 0 lenText = .ok vals.length) (hdata : IsData vals data) :
  ∃ c', (gdbWriteMemory (addrText ++ ',' :: (lenText ++ ':' :: (data ++ rest)))).run c
      = .ok ("OK".toList, c') ∧ Wrote s addr vals c c'
  := by
  obtain ⟨hlow, hhigh⟩ := hfirst.offset_bounds
  have hoffset : 0 ≤ s.offset := by cases s <;> decide
  have haddr' : ((s.offset + addr).toNat : Int) = s.offset + addr := by omega
  have hparse := gdbGetAddrLen_write haddr hlen (by omega) hlength (data ++ rest)
  obtain ⟨c', hrun, hwrote⟩ := run_gdbWriteSegment hfirst hvals hdata hin rest
  rw [haddr'] at hparse
  use c'
  constructor
  · rw [gdbWriteMemory, run_bind_of_ok (run_liftExcept_ok hparse c)]
    apply (run_bind_of_ok hrun).trans
    apply run_gdbSendReply
    decide
  · apply hwrote

/-! ### The bytes that the program loads -/

/-- The opcodes that load a byte from the program memory. -/
def loadOpcodes : List OpcodeName :=
  [.LPM, .LPM_Z, .LPM_Z_incr, .ELPM, .ELPM_Z, .ELPM_Z_incr]

/-- The register that an instruction with the operand `r` loads. -/
def OpcodeName.loadReg (r : Fin 32) (func : OpcodeName) : Fin 32 :=
  if func = .LPM then 0 else r

section Loads

variable {σ : Type} [IoDevices σ] {d d' : AvrCore σ} {r : Fin 32} {ret : OpRet}

/-- The address in program memory from which an instruction loads: Z, or Z extended by
RAMPZ. -/
def OpcodeName.loadAddr (d : AvrCore σ) (func : OpcodeName) : Nat :=
  if func ∈ [.LPM, .LPM_Z, .LPM_Z_incr] then
    (d.gpwr 31 ++ d.gpwr 30).toNat
  else
    (d.rampzGet &&& 0x3f).toNat * 2 ^ 16 + (d.gpwr 31).toNat * 2 ^ 8 + (d.gpwr 30).toNat

/-- The byte that an address selects in its word. -/
theorem selectByte_word
    (flash : Flash) (a : Nat) :
  selectByte (flash.word (a / 2 : Nat)) (a % 2 = 1) = flash.byte a
  := by
  obtain ⟨hlow, hhigh⟩ := byte_of_word flash (a / 2 : Nat)
  rw [selectByte]
  split
  · next hodd =>
    have hodd : a % 2 = 1 := by simpa using hodd
    rw [hhigh]
    congr 1
    omega
  · next heven =>
    have heven : ¬ a % 2 = 1 := by simpa using heven
    rw [hlow]
    congr 1
    omega

theorem getLsbD_zero
    (Z : Word) :
  Z.getLsbD 0 = decide (Z.toNat % 2 = 1)
  := by
  rw [BitVec.getLsbD, Nat.testBit_zero]

omit [IoDevices σ] in
/-- The end of a load: the byte of the flash goes to a register. -/
theorem load_eq_ok
    {a : Nat} {rest : CoreM σ OpRet}
    (hrest : ∀ e : AvrCore σ, rest.run e = .ok (ret, d') → d'.gpwr r = e.gpwr r)
    (hrun : (do
      let data ← avrCoreFlashRead (a / 2 : Nat)
      avrCoreGpwrSet r.val (selectByte data (a % 2 = 1))
      rest).run d = .ok (ret, d')) :
  d'.gpwr r = d.flash.byte a
  := by
  obtain ⟨data, d₁, hread, hrun⟩ := run_bind_eq_ok.mp hrun
  rw [run_avrCoreFlashRead] at hread
  cases hflash : flashRead d.flash (a / 2 : Nat) with
  | error e =>
    rw [hflash] at hread
    contradiction
  | ok word =>
    rw [hflash] at hread
    cases hread
    obtain ⟨-, rfl⟩ := Flash.valid_of_flashRead hflash
    rw [run_bind_of_ok (run_avrCoreGpwrSet _ r _), selectByte_word] at hrun
    rw [hrest _ hrun]
    apply Function.update_self

omit [IoDevices σ] in
theorem gpwr_of_nextInst
    {name : OpcodeName} {cks : Int} {e : AvrCore σ}
    (hrun : (nextInst name cks).run e = .ok (ret, d')) :
  d'.gpwr = e.gpwr
  := by
  cases hrun
  rfl

omit [IoDevices σ] in
/-- The pointer register Z. -/
theorem run_pointerGet_Z
    (d : AvrCore σ) :
  (pointerGet 30).run d = .ok (d.gpwr 31 ++ d.gpwr 30, d)
  := run_pointerGet 30 31 rfl d

omit [IoDevices σ] in
theorem run_extendedZ
    (d : AvrCore σ) :
  extendedZ.run d = .ok
    ((d.rampzGet &&& 0x3f).toNat * 2 ^ 16 + (d.gpwr 31).toNat * 2 ^ 8 + (d.gpwr 30).toNat, d)
  := rfl

omit [IoDevices σ] in
/-- A write to another register. -/
theorem gpwr_of_gpwrSet
    {e e' : AvrCore σ} (reg : Fin 32) {val : Byte} (hr : r ≠ reg)
    (hrun : (avrCoreGpwrSet reg.val val).run e = .ok ((), e')) :
  e'.gpwr r = e.gpwr r
  := by
  rw [run_avrCoreGpwrSet] at hrun
  cases hrun
  apply Function.update_of_ne hr

omit [IoDevices σ] in
/-- A handler that excludes the registers of Z. -/
theorem not_Z_of_run
    {rest : CoreM σ OpRet}
    (hrun : (do
      avrErrorIf ((r.val : Int) = 30 ∨ (r.val : Int) = 31) "Results of operation are undefined" []
      rest).run d = .ok (ret, d')) :
  r ≠ 30 ∧ r ≠ 31 ∧ rest.run d = .ok (ret, d')
  := by
  by_cases hr : (r.val : Int) = 30 ∨ (r.val : Int) = 31
  · rw [run_bind_of_error (run_avrErrorIf_pos hr _ _ d)] at hrun
    contradiction
  · rw [run_bind_of_ok (run_avrErrorIf_neg hr _ _ d)] at hrun
    refine ⟨?_, ?_, hrun⟩
    · rintro rfl
      apply hr
      left
      rfl
    · rintro rfl
      apply hr
      right
      rfl

omit [IoDevices σ] in
theorem avrOpLPMZ_loads
    (hrun : (avrOpLPMZ r.val).run d = .ok (ret, d')) :
  d'.gpwr r = d.flash.byte ((d.gpwr 31 ++ d.gpwr 30).toNat : Nat)
  := by
  rw [avrOpLPMZ, run_bind_of_ok (run_pointerGet_Z d), getLsbD_zero] at hrun
  apply load_eq_ok _ hrun
  intro e hrest
  rw [gpwr_of_nextInst hrest]

omit [IoDevices σ] in
theorem avrOpLPMZIncr_loads
    (hrun : (avrOpLPMZIncr r.val).run d = .ok (ret, d')) :
  d'.gpwr r = d.flash.byte ((d.gpwr 31 ++ d.gpwr 30).toNat : Nat)
  := by
  obtain ⟨hr30, hr31, hrun⟩ := not_Z_of_run hrun
  rw [run_bind_of_ok (run_pointerGet_Z d), getLsbD_zero] at hrun
  apply load_eq_ok _ hrun
  intro e hrest
  obtain ⟨⟨⟩, e₁, hset, hrest⟩ := run_bind_eq_ok.mp hrest
  obtain ⟨⟨⟩, e₀, hlow, hhigh⟩ := run_bind_eq_ok.mp hset
  rw [gpwr_of_nextInst hrest, gpwr_of_gpwrSet 31 hr31 hhigh,
    gpwr_of_gpwrSet 30 hr30 hlow]

omit [IoDevices σ] in
theorem avrOpELPMZ_loads
    (hrun : (avrOpELPMZ r.val).run d = .ok (ret, d')) :
  d'.gpwr r = d.flash.byte
    ((d.rampzGet &&& 0x3f).toNat * 2 ^ 16 + (d.gpwr 31).toNat * 2 ^ 8 + (d.gpwr 30).toNat : Nat)
  := by
  obtain ⟨-, -, hrun⟩ := not_Z_of_run hrun
  rw [run_bind_of_ok (run_extendedZ d)] at hrun
  apply load_eq_ok _ hrun
  intro e hrest
  rw [gpwr_of_nextInst hrest]

omit [IoDevices σ] in
theorem avrOpELPMZIncr_loads
    (hrun : (avrOpELPMZIncr r.val).run d = .ok (ret, d')) :
  d'.gpwr r = d.flash.byte
    ((d.rampzGet &&& 0x3f).toNat * 2 ^ 16 + (d.gpwr 31).toNat * 2 ^ 8 + (d.gpwr 30).toNat : Nat)
  := by
  obtain ⟨hr30, hr31, hrun⟩ := not_Z_of_run hrun
  rw [run_bind_of_ok (run_extendedZ d)] at hrun
  apply load_eq_ok _ hrun
  intro e hrest
  obtain ⟨⟨⟩, e₀, hlow, hrest⟩ := run_bind_eq_ok.mp hrest
  obtain ⟨⟨⟩, e₁, hhigh, hrest⟩ := run_bind_eq_ok.mp hrest
  obtain ⟨⟨⟩, e₂, hrampz, hrest⟩ := run_bind_eq_ok.mp hrest
  have hrampz' : e₂.gpwr = e₁.gpwr := by
    cases hrampz
    simp only [AvrCore.rampzSet]
    split <;> rfl
  rw [gpwr_of_nextInst hrest, hrampz', gpwr_of_gpwrSet 31 hr31 hhigh,
    gpwr_of_gpwrSet 30 hr30 hlow]

/-- A load from program memory that returns loads the byte at its address. -/
theorem handler_loads
    {func : OpcodeName} (hfunc : func ∈ loadOpcodes) {opcode : Word} {arg2 : Int}
    (hrun : (func.handler opcode r.val arg2).run d = .ok (ret, d')) :
  d'.gpwr (func.loadReg r) = d.flash.byte (func.loadAddr d)
  := by
  simp only [loadOpcodes, List.mem_cons, List.not_mem_nil, or_false] at hfunc
  obtain rfl | rfl | rfl | rfl | rfl | rfl := hfunc
  · apply avrOpLPMZ_loads (r := 0) hrun
  · apply avrOpLPMZ_loads hrun
  · apply avrOpLPMZIncr_loads hrun
  · obtain ⟨ret', d₁, hload, hret⟩ := run_bind_eq_ok.mp hrun
    cases hret
    apply avrOpELPMZ_loads hload
  · apply avrOpELPMZ_loads hrun
  · apply avrOpELPMZIncr_loads hrun

end Loads

/-- What a packet writes inside of a segment the next packet reads back, and no other byte of
any segment changes; a byte of flash that a packet reads is the low byte of its word at an even
address, the high byte at an odd one, and the byte that a program loads from there. -/
theorem gdb_memory_round_trip
    (c : AvrCore (WithEEprom δ)) :
  (∀ (s : Segment) (addr : Int) (vals : List Byte) (pkt pkt' : List Char), 1 ≤ vals.length →
    (∀ x, addr ≤ x → x < addr + vals.length → s.Has c x) → 2 * vals.length < maxBuf - 4 →
    IsWritePacket (s.offset + addr).toNat vals pkt →
    IsReadPacket (s.offset + addr).toNat vals.length pkt' →
      ∃ c', (gdbWriteMemory pkt).run c = .ok ("OK".toList, c') ∧
        (gdbReadMemory pkt').run c' = .ok (vals.flatMap hexByte, c') ∧
        ∀ (s' : Segment) x, s' ≠ s ∨ x < addr ∨ addr + vals.length ≤ x →
          s'.byte c' x = s'.byte c x) ∧
  ∀ (a : Nat) (pkt : List Char), Segment.flash.Has c a → IsReadPacket a 1 pkt →
    ∃ bval, (gdbReadMemory pkt).run c = .ok (hexByte bval, c) ∧
      bval = (if a % 2 = 0 then (c.flash.word (a / 2 : Nat)).extractLsb' 0 8
        else (c.flash.word (a / 2 : Nat)).extractLsb' 8 8) ∧
      ∀ func ∈ loadOpcodes, func.loadAddr c = a → ∀ opcode (r : Fin 32) arg2 ret c',
        (func.handler opcode r.val arg2).run c = .ok (ret, c') → c'.gpwr (func.loadReg r) = bval
  := by
  constructor
  · intro s addr vals pkt pkt' hvals hin hfits hpkt hpkt'
    have hfirst := hin addr (le_refl _) (by omega)
    have hmax : maxBuf = 400 := rfl
    obtain ⟨addrText, lenText, haddr, hlen, rfl⟩ := hpkt
    obtain ⟨c', hrun, hwrote⟩ := run_gdbWriteMemory hfirst (fun _ _ => hvals) hin
      (by omega) haddr hlen (isData_hexByte vals)
    rw [List.append_nil] at hrun
    have hin' : ∀ x, addr ≤ x → x < addr + vals.length → s.Has c' x := by
      intro x hlow hhigh
      rw [Segment.has_congr hwrote.layout]
      apply hin x hlow hhigh
    have hfirst' := hin' addr (le_refl _) (by omega)
    have hread := run_gdbReadMemory hfirst' (fun _ _ => hvals) hin' (by omega) hpkt'
    rw [hwrote.byte, readRange_writeRange, run_gdbSendReply] at hread
    swap
    · rw [length_flatMap_hexByte]
      apply hfits
    refine ⟨c', hrun, hread, ?_⟩
    intro s' x hx
    apply hwrote.byte_eq hx
  · intro a pkt ha hpkt
    use c.flash.byte a
    refine ⟨?_, ?_, ?_⟩
    · have hin : ∀ x, (a : Int) ≤ x → x < a + (1 : Nat) → Segment.flash.Has c x := by
        intro x hlow hhigh
        obtain rfl : x = a := by omega
        apply ha
      have hpkt' : IsReadPacket (Segment.flash.offset + a).toNat 1 pkt := by
        rw [Segment.offset, Int.zero_add, Int.toNat_natCast]
        apply hpkt
      have hread := run_gdbReadMemory ha (fun _ _ => le_refl 1) hin (by decide) hpkt'
      rw [readRange, readRange, List.flatMap_singleton] at hread
      apply hread.trans
      apply run_gdbSendReply
      change 2 < 400 - 4
      decide
    · rw [← selectByte_word, selectByte]
      rcases Nat.mod_two_eq_zero_or_one a with heven | hodd
      · simp [heven]
      · simp [hodd]
    · intro func hfunc haddr opcode r arg2 ret c' hrun
      rw [handler_loads hfunc hrun, haddr]

/-- The at90s2313 with an EEPROM. -/
def AvrCore.at90s2313WithEEprom : AvrCore (WithEEprom Unit) :=
  AvrCore.construct defnAt90s2313
    { ee := { addr := 0x3c, eedr := 0, eearl := 0, eearh := 0, mem := fun _ => 0 }, io := () }

/-- Two bytes from an odd address of the flash. -/
theorem gdb_memory_round_trip_odd :
  ∃ c', (gdbWriteMemory "7,2:abcd".toList).run AvrCore.at90s2313WithEEprom
      = .ok ("OK".toList, c') ∧
    (gdbReadMemory "7,2".toList).run c' = .ok ("abcd".toList, c')
  := by
  have hin : ∀ x : Int, 7 ≤ x → x < 7 + ([0xab, 0xcd] : List Byte).length →
      Segment.flash.Has AvrCore.at90s2313WithEEprom x := by
    intro x hlow hhigh
    have hsize : AvrCore.at90s2313WithEEprom.flash.size = 2 * 1024 := rfl
    rw [List.length_cons, List.length_singleton] at hhigh
    rw [Segment.Has, hsize, sramOffset]
    refine ⟨⟨rfl, ?_⟩, ?_, ?_, ?_⟩ <;> omega
  have hwrite : IsWritePacket (Segment.flash.offset + 7).toNat [0xab, 0xcd]
      "7,2:abcd".toList := by
    use ['7'], ['2']
    exact ⟨rfl, rfl, rfl⟩
  have hread : IsReadPacket (Segment.flash.offset + 7).toNat ([0xab, 0xcd] : List Byte).length
      "7,2".toList := by
    use ['7'], ['2']
    exact ⟨rfl, rfl, rfl⟩
  obtain ⟨c', hrun, hrun', -⟩ := (gdb_memory_round_trip AvrCore.at90s2313WithEEprom).1
    .flash 7 [0xab, 0xcd] _ _ (by decide) hin (by decide) hwrite hread
  exact ⟨c', hrun, hrun'⟩

end SimulAvr
