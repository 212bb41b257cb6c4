import SimulAvr.GdbMemory
import SimulAvr.ProgramCounter

/-!
# Register packets of the debugger

The handlers of the packets `g` and `G`, which read and write all registers, and of `p` and
`P`, for one register.  gdb knows 35 registers: the working registers, SREG, SP of two bytes,
and PC of four bytes, as the address of a byte.  The four handlers agree on them
(`gdb_registers_agree`).
-/

namespace SimulAvr

open Program

/-! ### The handlers -/

/-- `SPL_ADDR` -/
abbrev splAddrGdb : Int := 0x5d

/-- `SPH_ADDR` -/
abbrev sphAddrGdb : Int := 0x5e

/-- The digits of a 32-bit value in a reply, low byte first. -/
def hexLong (val : BitVec 32) : List Char :=
  hexByte (val.extractLsb' 0 8) ++ hexByte (val.extractLsb' 8 8) ++
    hexByte (val.extractLsb' 16 8) ++ hexByte (val.extractLsb' 24 8)

/-- The 32-bit value of the next eight digits of a packet after its low byte, low byte
first. -/
def gdbGetLong (b0 : Byte) (pkt : List Char) : Except AvrError (BitVec 32 × List Char) := do
  let (b1, pkt) ← gdbGetByte pkt
  let (b2, pkt) ← gdbGetByte pkt
  let (b3, pkt) ← gdbGetByte pkt
  return (b3 ++ b2 ++ b1 ++ b0, pkt)

/-- `gdb_extract_hex_num`, after `i` digits: the number, and the packet from the character
`stop` on -/
def gdbExtractHexNum (stop : Char) (i : Nat) (num : BitVec 32) :
    List Char → Except AvrError (BitVec 32 × List Char)
  | [] => .ok (num, [])
  | ch :: pkt =>
    if ch = stop then
      .ok (num, ch :: pkt)
    else if i > 7 then
      .error (.message "number too large" [])
    else do
      let nib ← hex2nib ch
      gdbExtractHexNum stop (i + 1) (num <<< 4 ||| nib.setWidth 32) pkt

section

variable {δ : Type} [IoDevices δ]

/-- `gdb_read_registers` -/
def gdbReadRegisters : CoreM δ (List Char) := do
  let buf ← loop (fun i buf => do
    let val ← avrCoreGpwrGet i
    return buf ++ hexByte val) 0 32 []
  let sreg ← avrCoreSregGet
  let spl ← memRead splAddrGdb
  let sph ← memRead sphAddrGdb
  let pc ← avrCorePCGet
  gdbSendReply (buf ++ hexByte sreg ++ hexByte spl ++ hexByte sph ++ hexLong (.ofInt 32 (pc * 2)))

/-- `gdb_write_registers` -/
def gdbWriteRegisters (pkt : List Char) : CoreM δ (List Char) := do
  let pkt ← loop (fun i pkt => do
    let (bval, pkt) ← liftExcept (gdbGetByte pkt)
    avrCoreGpwrSet i bval
    return pkt) 0 32 pkt
  let (sreg, pkt) ← liftExcept (gdbGetByte pkt)
  avrCoreSregSet sreg
  let (spl, pkt) ← liftExcept (gdbGetByte pkt)
  memWrite splAddrGdb spl
  let (sph, pkt) ← liftExcept (gdbGetByte pkt)
  memWrite sphAddrGdb sph
  let (low, pkt) ← liftExcept (gdbGetByte pkt)
  let (val, _) ← liftExcept (gdbGetLong low pkt)
  avrCorePCSet (val.toNat / 2 : Nat)
  gdbSendReply "OK".toList

/-- `gdb_read_register` -/
def gdbReadRegister (pkt : List Char) : CoreM δ (List Char) := do
  let (reg, _) ← liftExcept (gdbExtractHexNum nul 0 0 pkt)
  let reg := reg.toInt
  if reg ≥ 0 ∧ reg < 32 then
    let val ← avrCoreGpwrGet reg
    gdbSendReply (hexByte val)
  else if reg = 32 then
    let val ← avrCoreSregGet
    gdbSendReply (hexByte val)
  else if reg = 33 then
    let spl ← memRead splAddrGdb
    let sph ← memRead sphAddrGdb
    gdbSendReply (hexByte spl ++ hexByte sph)
  else if reg = 34 then
    let pc ← avrCorePCGet
    gdbSendReply (hexLong (.ofInt 32 (pc * 2)))
  else
    gdbSendReply "E00".toList

/-- `gdb_write_register` -/
def gdbWriteRegister (pkt : List Char) : CoreM δ (List Char) := do
  let (reg, pkt) ← liftExcept (gdbExtractHexNum '=' 0 0 pkt)
  let reg := reg.toInt
  let (dval, pkt) ← liftExcept (gdbGetByte pkt.tail)
  if reg ≥ 0 ∧ reg < 33 then
    if reg = 32 then
      avrCoreSregSet dval
      gdbSendReply "OK".toList
    else
      avrCoreGpwrSet reg dval
      gdbSendReply "OK".toList
  else if reg = 33 then
    let (hval, _) ← liftExcept (gdbGetByte pkt)
    memWrite splAddrGdb dval
    memWrite sphAddrGdb hval
    gdbSendReply "OK".toList
  else if reg = 34 then
    let (val, _) ← liftExcept (gdbGetLong dval pkt)
    avrCorePCSet (val.toNat / 2 : Nat)
    gdbSendReply "OK".toList
  else
    gdbSendReply "E00".toList

end

/-! ### The registers of gdb -/

/-- The values of the registers of gdb, with PC as the address of a word. -/
@[ext]
structure RegFile where
  gpwr : Fin 32 → Byte
  sreg : Byte
  spl : Byte
  sph : Byte
  pc : Int

namespace RegFile

/-- The bytes of the register with a number. -/
def bytes (f : RegFile) (n : Fin 35) : List Byte :=
  if h : n.val < 32 then [f.gpwr ⟨n.val, h⟩]
  else if n = 32 then [f.sreg]
  else if n = 33 then [f.spl, f.sph]
  else
    let val := BitVec.ofInt 32 (f.pc * 2)
    [val.extractLsb' 0 8, val.extractLsb' 8 8, val.extractLsb' 16 8, val.extractLsb' 24 8]

/-- The text of the register with a number. -/
def text (f : RegFile) (n : Fin 35) : List Char :=
  (f.bytes n).flatMap hexByte

/-- The text of all registers. -/
def allText (f : RegFile) : List Char :=
  (List.finRange 35).flatMap f.text

/-- The registers `f` with the value that `g` has for the register with a number. -/
def set (f : RegFile) (n : Fin 35) (g : RegFile) : RegFile where
  gpwr i := if i.val = n.val then g.gpwr i else f.gpwr i
  sreg := if n = 32 then g.sreg else f.sreg
  spl := if n = 33 then g.spl else f.spl
  sph := if n = 33 then g.sph else f.sph
  pc := if n = 34 then g.pc else f.pc

theorem set_gpwr
    (f g : RegFile) (i : Fin 32) :
  f.set (i.castLE (by decide)) g = { f with gpwr := Function.update f.gpwr i (g.gpwr i) }
  := by
  have hi (n : Fin 35) (hn : 32 ≤ n) : i.castLE (show 32 ≤ 35 by decide) ≠ n := by
    rintro rfl
    exact absurd i.isLt (Nat.not_lt.mpr hn)
  rw [set, if_neg (hi 32 (by decide)), if_neg (hi 33 (by decide)), if_neg (hi 33 (by decide)),
    if_neg (hi 34 (by decide))]
  congr 1
  funext j
  rw [Function.update_apply]
  split
  · next hval => rw [if_pos (Fin.ext hval), Fin.ext hval]
  · next hval =>
    rw [if_neg]
    rintro rfl
    apply hval rfl

theorem set_sreg
    (f g : RegFile) :
  f.set 32 g = { f with sreg := g.sreg }
  := by
  ext1
  · funext i
    apply if_neg (Nat.ne_of_lt i.isLt)
  all_goals rfl

theorem set_sp
    (f g : RegFile) :
  f.set 33 g = { f with spl := g.spl, sph := g.sph }
  := by
  ext1
  · funext i
    apply if_neg (Nat.ne_of_lt (Nat.lt_succ_of_lt i.isLt))
  all_goals rfl

theorem set_pc
    (f g : RegFile) :
  f.set 34 g = { f with pc := g.pc }
  := by
  ext1
  · funext i
    apply if_neg (Nat.ne_of_lt (Nat.lt_succ_of_lt (Nat.lt_succ_of_lt i.isLt)))
  all_goals rfl

/-- A register has been set, and the others have not. -/
theorem bytes_set
    (f : RegFile) (n : Fin 35) (g : RegFile) (m : Fin 35) :
  (f.set n g).bytes m = if m = n then g.bytes m else f.bytes m
  := by
  rw [bytes, bytes, bytes]
  split
  · next hm =>
    have hiff : m.val = n.val ↔ m = n := Fin.ext_iff.symm
    simp only [set, hiff]
    split <;> rfl
  · split
    · next h32 =>
      simp only [set, h32, eq_comm]
      split <;> rfl
    · split
      · next h33 =>
        simp only [set, h33, eq_comm]
        split <;> rfl
      · have h34 : m = 34 := by omega
        simp only [set, h34, eq_comm]
        split <;> rfl

/-- The register with a number is the same. -/
structure Agrees (f g : RegFile) (n : Fin 35) : Prop where
  gpwr : ∀ i : Fin 32, i.val = n.val → f.gpwr i = g.gpwr i
  sreg : n = 32 → f.sreg = g.sreg
  sp : n = 33 → f.spl = g.spl ∧ f.sph = g.sph
  pc : n = 34 → f.pc = g.pc

theorem agrees_set
    {f g : RegFile} {n m : Fin 35} (h : f.Agrees g m ∨ m = n) :
  (f.set n g).Agrees g m
  := by
  constructor
  · intro i hi
    simp only [set]
    split
    · rfl
    · next hne =>
      obtain h | rfl := h
      · apply h.gpwr i hi
      · contradiction
  · intro hm
    simp only [set]
    split
    · rfl
    · next hne =>
      obtain h | rfl := h
      · apply h.sreg hm
      · contradiction
  · intro hm
    simp only [set]
    split
    · exact ⟨rfl, rfl⟩
    · next hne =>
      obtain h | rfl := h
      · apply h.sp hm
      · contradiction
  · intro hm
    simp only [set]
    split
    · rfl
    · next hne =>
      obtain h | rfl := h
      · apply h.pc hm
      · contradiction

theorem agrees_foldl
    {f g : RegFile} {ns : List (Fin 35)} {m : Fin 35} (h : f.Agrees g m ∨ m ∈ ns) :
  (ns.foldl (fun f n => f.set n g) f).Agrees g m
  := by
  induction ns generalizing f with
  | nil =>
    obtain h | h := h
    · apply h
    · cases h
  | cons n ns ih =>
    rw [List.foldl_cons]
    apply ih
    obtain h | h := h
    · left
      apply agrees_set
      left
      apply h
    · obtain rfl | h := List.mem_cons.mp h
      · left
        apply agrees_set
        right
        rfl
      · right
        apply h

/-- Setting every register, in any order. -/
theorem foldl_set_eq
    (f g : RegFile) {ns : List (Fin 35)} (h : ∀ n, n ∈ ns) :
  ns.foldl (fun f n => f.set n g) f = g
  := by
  have hagrees (m : Fin 35) := agrees_foldl (f := f) (g := g) (Or.inr (h m))
  ext1
  · funext i
    apply (hagrees (i.castLE (by decide))).gpwr i
    rfl
  · apply (hagrees 32).sreg rfl
  · apply ((hagrees 33).sp rfl).1
  · apply ((hagrees 33).sp rfl).2
  · apply (hagrees 34).pc rfl

end RegFile

/-! ### The registers of a core -/

section

variable {δ : Type} {c c' : AvrCore δ}

/-- The registers of a core. -/
def AvrCore.regFile (c : AvrCore δ) : RegFile where
  gpwr := c.gpwr
  sreg := c.sreg
  spl := c.sp.spl
  sph := c.sp.sph
  pc := c.pc

/-- The core with other registers and other messages to the display. -/
def AvrCore.withRegFile (c : AvrCore δ) (f : RegFile) (display : List DisplayMsg) : AvrCore δ :=
  { c with
    gpwr := f.gpwr, sreg := f.sreg, sp := { c.sp with spl := f.spl, sph := f.sph }, pc := f.pc,
    display := display }

/-- The core has SPL and SPH where gdb expects them, with nothing masked. -/
structure HasGdbSp (c : AvrCore δ) : Prop where
  splAddr : c.sp.splAddr = splAddrGdb
  xramEnd : sphAddrGdb ≤ c.mem.xramEnd
  spl : c.mem.cell splAddrGdb = { vdev := some .stackPointer, rdMask := 0xff, wrMask := 0xff }
  sph : c.mem.cell sphAddrGdb = { vdev := some .stackPointer, rdMask := 0xff, wrMask := 0xff }

/-- Other registers leave the place of SP. -/
theorem HasGdbSp.withRegFile
    (h : HasGdbSp c) (f : RegFile) (display : List DisplayMsg) :
  HasGdbSp (c.withRegFile f display)
  := ⟨h.splAddr, h.xramEnd, h.spl, h.sph⟩

end

/-! ### The number of a register -/

theorem hex2nib_lt
    {ch : Char} {nib : Byte} (h : hex2nib ch = .ok nib) :
  nib.toNat < 16
  := by
  rw [hex2nib] at h
  split at h
  · next hupper =>
    have hle : ch.toNat ≤ 70 := hupper.2
    cases h
    rw [BitVec.toNat_ofNat, show ( 'A').toNat = 65 from rfl]
    omega
  · split at h
    · next hlower =>
      have hle : ch.toNat ≤ 102 := hlower.2
      cases h
      rw [BitVec.toNat_ofNat, show ( 'a').toNat = 97 from rfl]
      omega
    · split at h
      · next hdigit =>
        have hle : ch.toNat ≤ 57 := hdigit.2
        cases h
        rw [BitVec.toNat_ofNat, show ( '0').toNat = 48 from rfl]
        omega
      · contradiction

/-- A digit is put next to the others. -/
theorem or_digit
    (num : BitVec 32) {nib : Byte} (h : nib.toNat < 16) :
  num <<< 4 ||| nib.setWidth 32 = num <<< 4 + nib.setWidth 32
  := by
  rw [BitVec.add_eq_or_of_and_eq_zero]
  ext i hi
  rw [BitVec.getElem_and, BitVec.getElem_shiftLeft]
  by_cases hlow : i < 4
  · simp [hlow]
  · have hbit : nib.getLsbD i = false := by
      apply Nat.testBit_lt_two_pow
      apply lt_of_lt_of_le h
      apply Nat.pow_le_pow_right (n := 2) (by decide) (show 4 ≤ i by omega)
    simp [hbit]

/-- A number up to the character that ends it. -/
theorem gdbExtractHexNum_hexValue
    {stop : Char} {e : AvrError} (hstop : hex2nib stop = .error e) {text : List Char}
    {i n m : Nat} (h : hexValue n text = .ok m) (hlength : i + text.length ≤ 8)
    (rest : List Char) :
  gdbExtractHexNum stop i (.ofNat 32 n) (text ++ stop :: rest) = .ok (.ofNat 32 m, stop :: rest)
  := by
  induction text generalizing i n with
  | nil =>
    cases h
    rw [List.nil_append, gdbExtractHexNum, if_pos rfl]
  | cons ch text ih =>
    rw [List.length_cons] at hlength
    rw [hexValue] at h
    cases hnib : hex2nib ch with
    | error e' =>
      rw [hnib] at h
      contradiction
    | ok nib =>
      have hne : ch ≠ stop := by
        rintro rfl
        rw [hnib] at hstop
        contradiction
      rw [hnib, ok_bind] at h
      rw [List.cons_append, gdbExtractHexNum, if_neg hne, if_neg (by omega), hnib, ok_bind,
        or_digit _ (hex2nib_lt hnib), ofNat_digit]
      apply ih h
      omega

/-- A number up to the end of the packet. -/
theorem gdbExtractHexNum_hexValue_nul
    {text : List Char} {i n m : Nat} (h : hexValue n text = .ok m)
    (hlength : i + text.length ≤ 8) :
  gdbExtractHexNum nul i (.ofNat 32 n) text = .ok (.ofNat 32 m, [])
  := by
  induction text generalizing i n with
  | nil =>
    cases h
    rfl
  | cons ch text ih =>
    rw [List.length_cons] at hlength
    rw [hexValue] at h
    cases hnib : hex2nib ch with
    | error e' =>
      rw [hnib] at h
      contradiction
    | ok nib =>
      have hne : ch ≠ nul := by
        rintro rfl
        contradiction
      rw [hnib, ok_bind] at h
      rw [gdbExtractHexNum, if_neg hne, if_neg (by omega), hnib, ok_bind,
        or_digit _ (hex2nib_lt hnib), ofNat_digit]
      apply ih h
      omega

/-! ### The text of all registers -/

namespace RegFile

theorem text_gpwr
    (f : RegFile) (i : Fin 32) :
  f.text (i.castLE (by decide)) = hexByte (f.gpwr i)
  := by
  have hi : (i.castLE (show 32 ≤ 35 by decide)).val < 32 := i.isLt
  rw [text, bytes, dif_pos hi, List.flatMap_singleton]
  rfl

theorem text_sreg
    (f : RegFile) :
  f.text 32 = hexByte f.sreg
  := List.flatMap_singleton _ _

theorem text_sp
    (f : RegFile) :
  f.text 33 = hexByte f.spl ++ hexByte f.sph
  := by
  change [f.spl, f.sph].flatMap hexByte = _
  rw [List.flatMap_cons, List.flatMap_singleton]

theorem text_pc
    (f : RegFile) :
  f.text 34 = hexLong (.ofInt 32 (f.pc * 2))
  := by
  change [_, _, _, _].flatMap hexByte = _
  simp only [List.flatMap_cons, List.flatMap_nil, List.append_nil, hexLong, List.append_assoc]

theorem allText_eq
    (f : RegFile) :
  f.allText = (List.finRange 32).flatMap (fun i => hexByte (f.gpwr i)) ++ (hexByte f.sreg ++
    (hexByte f.spl ++ (hexByte f.sph ++ hexLong (.ofInt 32 (f.pc * 2)))))
  := by
  have hsplit : List.finRange 35
      = (List.finRange 32).map (fun i => i.castLE (by decide)) ++ [32, 33, 34] := by
    decide
  rw [allText, hsplit, List.flatMap_append, List.flatMap_map, List.flatMap_cons, List.flatMap_cons,
    List.flatMap_singleton, text_sreg, text_sp, text_pc, List.append_assoc]
  simp only [text_gpwr]

end RegFile

/-- The values of four bytes, low byte first. -/
theorem gdbGetLong_hexByte
    (b0 b1 b2 b3 : Byte) (pkt : List Char) :
  gdbGetLong b0 (hexByte b1 ++ (hexByte b2 ++ (hexByte b3 ++ pkt))) =
    .ok (b3 ++ b2 ++ b1 ++ b0, pkt)
  := by
  rw [gdbGetLong, gdbGetByte_hexByte, ok_bind]
  simp only [gdbGetByte_hexByte, ok_bind]
  rfl

/-- A 32-bit value is made of its bytes. -/
theorem bytes_append_self
    (val : BitVec 32) :
  val.extractLsb' 24 8 ++ val.extractLsb' 16 8 ++ val.extractLsb' 8 8 ++ val.extractLsb' 0 8 = val
  := by
  rw [BitVec.extractLsb'_append_extractLsb'_eq_extractLsb' (by rfl),
    BitVec.extractLsb'_append_extractLsb'_eq_extractLsb' (by rfl),
    BitVec.extractLsb'_append_extractLsb'_eq_extractLsb' (by rfl)]
  apply BitVec.extractLsb'_eq_self

/-- The address of a word, sent as that of a byte. -/
theorem toNat_ofInt_div
    {pc : Int} (hlow : 0 ≤ pc) (hhigh : pc * 2 < 2 ^ 32) :
  (((BitVec.ofInt 32 (pc * 2)).toNat / 2 : Nat) : Int) = pc
  := by
  rw [BitVec.toNat_ofInt]
  omega

/-! ### Runs of the handlers -/

section

variable {δ : Type} {c : AvrCore δ}

theorem regFile_withRegFile
    (f : RegFile) (display : List DisplayMsg) :
  (c.withRegFile f display).regFile = f
  := rfl

variable [IoDevices δ]

/-- The cell of a part of SP, with nothing masked. -/
abbrev spCell : MemoryCell :=
  { vdev := some .stackPointer, rdMask := 0xff, wrMask := 0xff }

theorem run_memRead_sp
    {addr : Int} (hin : 0 ≤ addr ∧ addr ≤ c.mem.xramEnd) (hcell : c.mem.cell addr = spCell)
    {val : Byte} (hread : (spRead addr).run c = .ok (val, c)) :
  (memRead addr).run c = .ok (val, c)
  := by
  rw [memRead, run_bind_of_ok (run_memGetCell c _ hin), hcell]
  simp only [vdevRead, run_bind_of_ok hread, StateT.run_pure]
  change Except.ok (val &&& BitVec.allOnes 8, c) = _
  rw [BitVec.and_allOnes]

theorem run_memWrite_sp
    {addr : Int} (hin : 0 ≤ addr ∧ addr ≤ c.mem.xramEnd) (hcell : c.mem.cell addr = spCell)
    {val : Byte} {f : RegFile}
    (hwrite : ∀ display, (spWrite addr val).run (c.withRegFile c.regFile display) =
      .ok ((), c.withRegFile f display)) :
  ∃ display, (memWrite addr val).run c = .ok ((), c.withRegFile f display)
  := by
  have hmask : val &&& 0xff = val := BitVec.and_allOnes
  simp only [memWrite, run_bind_of_ok (run_memGetCell c _ hin), hcell, StateT.run_bind, run_update,
    ok_bind, vdevWrite, hmask]
  split
  · refine ⟨_, hwrite _⟩
  · refine ⟨_, hwrite c.display⟩

omit [IoDevices δ] in
theorem HasGdbSp.mem_spl
    (h : HasGdbSp c) :
  0 ≤ splAddrGdb ∧ splAddrGdb ≤ c.mem.xramEnd
  := ⟨by decide, (show splAddrGdb ≤ sphAddrGdb by decide).trans h.xramEnd⟩

omit [IoDevices δ] in
theorem HasGdbSp.mem_sph
    (h : HasGdbSp c) :
  0 ≤ sphAddrGdb ∧ sphAddrGdb ≤ c.mem.xramEnd
  := ⟨by decide, h.xramEnd⟩

theorem run_memRead_spl
    (h : HasGdbSp c) :
  (memRead splAddrGdb).run c = .ok (c.sp.spl, c)
  := by
  apply run_memRead_sp h.mem_spl h.spl
  simp only [spRead, StateT.run_bind, run_gets, ok_bind, h.splAddr]
  rfl

theorem run_memRead_sph
    (h : HasGdbSp c) :
  (memRead sphAddrGdb).run c = .ok (c.sp.sph, c)
  := by
  apply run_memRead_sp h.mem_sph h.sph
  simp only [spRead, StateT.run_bind, run_gets, ok_bind, h.splAddr]
  rfl

omit [IoDevices δ] in
theorem run_spWrite_spl
    (h : c.sp.splAddr = splAddrGdb) (val : Byte) :
  (spWrite splAddrGdb val).run c =
    .ok ((), c.withRegFile { c.regFile with spl := val } c.display)
  := by
  simp only [spWrite, StateT.run_bind, run_gets, ok_bind]
  rw [if_pos h.symm]
  rfl

omit [IoDevices δ] in
theorem run_spWrite_sph
    (h : c.sp.splAddr = splAddrGdb) (val : Byte) :
  (spWrite sphAddrGdb val).run c =
    .ok ((), c.withRegFile { c.regFile with sph := val } c.display)
  := by
  simp only [spWrite, StateT.run_bind, run_gets, ok_bind]
  rw [h, if_neg (by decide), if_pos (by decide), ← h]
  rfl

theorem run_memWrite_spl
    (h : HasGdbSp c) (val : Byte) :
  ∃ display, (memWrite splAddrGdb val).run c =
    .ok ((), c.withRegFile { c.regFile with spl := val } display)
  := by
  apply run_memWrite_sp h.mem_spl h.spl
  intro display
  have haddr : (c.withRegFile c.regFile display).sp.splAddr = splAddrGdb := h.splAddr
  apply run_spWrite_spl haddr

theorem run_memWrite_sph
    (h : HasGdbSp c) (val : Byte) :
  ∃ display, (memWrite sphAddrGdb val).run c =
    .ok ((), c.withRegFile { c.regFile with sph := val } display)
  := by
  apply run_memWrite_sp h.mem_sph h.sph
  intro display
  have haddr : (c.withRegFile c.regFile display).sp.splAddr = splAddrGdb := h.splAddr
  apply run_spWrite_sph haddr

/-- The register with a number. -/
theorem register_cases
    (n : Fin 35) :
  (∃ i : Fin 32, n = i.castLE (by decide)) ∨ n = 32 ∨ n = 33 ∨ n = 34
  := by
  by_cases h : n.val < 32
  · left
    use ⟨n.val, h⟩
    rfl
  · omega

/-- The reply to the packet of a register is the text of the register. -/
theorem run_gdbReadRegister
    (h : HasGdbSp c) (n : Fin 35) {pkt : List Char} (hpkt : hexValue 0 pkt = .ok n.val)
    (hlength : pkt.length ≤ 8) :
  (gdbReadRegister pkt).run c = .ok (c.regFile.text n, c)
  := by
  have hreg : (BitVec.ofNat 32 n.val).toInt = n.val := toInt_ofNat (by omega)
  have hnum : gdbExtractHexNum nul 0 0 pkt = .ok (.ofNat 32 n.val, []) := by
    apply gdbExtractHexNum_hexValue_nul hpkt
    omega
  rw [gdbReadRegister, run_bind_of_ok (run_liftExcept_ok hnum c)]
  simp only [hreg]
  obtain ⟨i, rfl⟩ | rfl | rfl | rfl := register_cases n
  · have hi : ((i.castLE (show 32 ≤ 35 by decide)).val : Int) = (i.val : Int) := rfl
    rw [hi, if_pos (by omega), run_bind_of_ok (run_avrCoreGpwrGet c i), RegFile.text_gpwr]
    apply run_gdbSendReply
    change 2 < maxBuf - 4
    decide
  · rw [if_neg (by decide), if_pos (by decide), run_bind_of_ok (run_avrCoreSregGet c),
      RegFile.text_sreg]
    apply run_gdbSendReply
    change 2 < maxBuf - 4
    decide
  · rw [if_neg (by decide), if_neg (by decide), if_pos (by decide),
      run_bind_of_ok (run_memRead_spl h), run_bind_of_ok (run_memRead_sph h), RegFile.text_sp]
    apply run_gdbSendReply
    change 4 < maxBuf - 4
    decide
  · rw [if_neg (by decide), if_neg (by decide), if_neg (by decide), if_pos (by decide),
      run_bind_of_ok (run_avrCorePCGet c), RegFile.text_pc]
    apply run_gdbSendReply
    change 8 < maxBuf - 4
    decide

omit [IoDevices δ] in
/-- The working registers put into a reply one by one. -/
theorem run_loop_gpwrGet
    (buf : List Char) :
  (loop (fun i buf => do
    let val ← avrCoreGpwrGet i
    return buf ++ hexByte val) 0 32 buf).run c =
      .ok (buf ++ (List.finRange 32).flatMap (fun i => hexByte (c.gpwr i)), c)
  := by
  have hbody : ∀ j buf, (0 : Int) ≤ j → j < 0 + (32 : Nat) →
      (do
        let val ← avrCoreGpwrGet j
        return buf ++ hexByte val : CoreM δ (List Char)).run c =
          .ok (buf ++ hexByte (c.gpwr (Fin.ofNat 32 j.toNat)), c) := by
    intro j buf hlow hhigh
    obtain ⟨i, rfl⟩ := exists_fin_of_mem ⟨hlow, by omega⟩
    rw [run_bind_of_ok (run_avrCoreGpwrGet c i), Int.toNat_natCast, Fin.ofNat_val_eq_self]
    rfl
  rw [run_loop_append hbody]
  rfl

/-- The reply to the packet of all registers is their text. -/
theorem run_gdbReadRegisters
    (h : HasGdbSp c) :
  gdbReadRegisters.run c = .ok (c.regFile.allText, c)
  := by
  rw [gdbReadRegisters, run_bind_of_ok (run_loop_gpwrGet []), run_bind_of_ok (run_avrCoreSregGet c),
    run_bind_of_ok (run_memRead_spl h), run_bind_of_ok (run_memRead_sph h),
    run_bind_of_ok (run_avrCorePCGet c), RegFile.allText_eq, List.nil_append]
  simp only [List.append_assoc]
  apply run_gdbSendReply
  change 78 < maxBuf - 4
  decide

/-- PC is the address of a word of the flash, which four bytes can hold as that of a byte. -/
def RegFile.InFlash (f : RegFile) (c : AvrCore δ) : Prop :=
  0 ≤ f.pc ∧ f.pc < c.pcMax ∧ f.pc * 2 < 2 ^ 32

omit [IoDevices δ] in
/-- The address in a packet becomes the counter. -/
theorem pcSet_eq
    {f : RegFile} (hf : f.InFlash c) :
  ∃ display, c.pcSet ((BitVec.ofInt 32 (f.pc * 2)).toNat / 2 : Nat) =
    c.withRegFile { c.regFile with pc := f.pc } display
  := by
  obtain ⟨hlow, hmax, hhigh⟩ := hf
  use c.display ++ [.pc f.pc]
  rw [toNat_ofInt_div hlow hhigh, AvrCore.pcSet, AvrCore.adjustPCToMax_of_mem ⟨hlow, hmax⟩]
  rfl

omit [IoDevices δ] in
/-- The four bytes of the address in a packet. -/
theorem gdbGetLong_hexLong
    (val : BitVec 32) (pkt : List Char) :
  gdbGetByte (hexLong val ++ pkt) = .ok (val.extractLsb' 0 8, (hexLong val).drop 2 ++ pkt) ∧
    gdbGetLong (val.extractLsb' 0 8) ((hexLong val).drop 2 ++ pkt) = .ok (val, pkt)
  := by
  constructor
  · apply gdbGetByte_hexByte
  · have hlong := gdbGetLong_hexByte (val.extractLsb' 0 8) (val.extractLsb' 8 8)
      (val.extractLsb' 16 8) (val.extractLsb' 24 8) pkt
    rw [bytes_append_self] at hlong
    apply hlong

/-- The packet of a register sets the register. -/
theorem run_gdbWriteRegister
    (h : HasGdbSp c) {f : RegFile} (hf : f.InFlash c) (n : Fin 35) {num : List Char}
    (hnum : hexValue 0 num = .ok n.val) (hlength : num.length ≤ 8) :
  ∃ display, (gdbWriteRegister (num ++ '=' :: f.text n)).run c =
    .ok ("OK".toList, c.withRegFile (c.regFile.set n f) display)
  := by
  have hreg : (BitVec.ofNat 32 n.val).toInt = n.val := toInt_ofNat (by omega)
  have hnum' : gdbExtractHexNum '=' 0 0 (num ++ '=' :: f.text n) =
      .ok (.ofNat 32 n.val, '=' :: f.text n) := by
    apply gdbExtractHexNum_hexValue rfl hnum
    omega
  have hok (d : AvrCore δ) : (gdbSendReply "OK".toList).run d = .ok ("OK".toList, d) :=
    run_gdbSendReply (by decide)
  rw [gdbWriteRegister, run_bind_of_ok (run_liftExcept_ok hnum' c)]
  simp only [hreg, List.tail_cons]
  obtain ⟨i, rfl⟩ | rfl | rfl | rfl := register_cases n
  · have hi : ((i.castLE (show 32 ≤ 35 by decide)).val : Int) = (i.val : Int) := rfl
    have hbyte : gdbGetByte (f.text (i.castLE (by decide))) = .ok (f.gpwr i, []) := by
      rw [RegFile.text_gpwr]
      apply gdbGetByte_hexByte (f.gpwr i) []
    rw [run_bind_of_ok (run_liftExcept_ok hbyte c), RegFile.set_gpwr]
    simp only [hi]
    rw [if_pos (by omega), if_neg (by omega), run_bind_of_ok (run_avrCoreGpwrSet c i _), hok]
    refine ⟨_, rfl⟩
  · have hbyte : gdbGetByte (f.text 32) = .ok (f.sreg, []) := by
      rw [RegFile.text_sreg]
      apply gdbGetByte_hexByte f.sreg []
    rw [run_bind_of_ok (run_liftExcept_ok hbyte c), RegFile.set_sreg]
    rw [if_pos (by decide), if_pos (by decide), run_bind_of_ok (run_avrCoreSregSet c _), hok]
    refine ⟨_, rfl⟩
  · have hlow : gdbGetByte (f.text 33) = .ok (f.spl, hexByte f.sph) := by
      rw [RegFile.text_sp]
      apply gdbGetByte_hexByte
    have hhigh : gdbGetByte (hexByte f.sph) = .ok (f.sph, []) := gdbGetByte_hexByte f.sph []
    obtain ⟨display, hspl⟩ := run_memWrite_spl h f.spl
    obtain ⟨display', hsph⟩ := run_memWrite_sph
      (h.withRegFile { c.regFile with spl := f.spl } display) f.sph
    use display'
    rw [run_bind_of_ok (run_liftExcept_ok hlow c), RegFile.set_sp]
    rw [if_neg (by decide), if_pos (by decide), run_bind_of_ok (run_liftExcept_ok hhigh c),
      run_bind_of_ok hspl, run_bind_of_ok hsph, hok]
    rfl
  · obtain ⟨hlow, hlong⟩ := gdbGetLong_hexLong (.ofInt 32 (f.pc * 2)) []
    rw [List.append_nil, List.append_nil] at hlow
    rw [List.append_nil] at hlong
    obtain ⟨display, hpc⟩ := pcSet_eq hf
    use display
    rw [RegFile.text_pc, run_bind_of_ok (run_liftExcept_ok hlow c), RegFile.set_pc]
    rw [if_neg (by decide), if_neg (by decide), if_pos (by decide),
      run_bind_of_ok (run_liftExcept_ok hlong c), run_bind_of_ok (run_avrCorePCSet c _), hok, hpc]

omit [IoDevices δ] in
/-- The working registers from `i` on set from a packet one by one. -/
theorem run_loop_gpwrSet
    (f : RegFile) (pkt : List Char) {i n : Nat} (hn : i + n = 32) :
  ∃ display, (loop (fun i pkt => do
    let (bval, pkt) ← liftExcept (gdbGetByte pkt)
    avrCoreGpwrSet i bval
    return pkt) i n (((List.finRange 32).drop i).flatMap (fun i => hexByte (f.gpwr i)) ++ pkt)).run c
      = .ok (pkt, c.withRegFile
        { c.regFile with gpwr := fun r => if r.val < i then c.gpwr r else f.gpwr r } display)
  := by
  induction n generalizing i c with
  | zero =>
    use c.display
    have hall : (fun r : Fin 32 => if r.val < i then c.gpwr r else f.gpwr r) = c.gpwr := by
      funext r
      apply if_pos
      omega
    rw [loop, hall, List.drop_eq_nil_of_le]
    · rfl
    · rw [List.length_finRange]
      omega
  | succ n ih =>
    have hi : i < (List.finRange 32).length := by
      rw [List.length_finRange]
      omega
    have hlt : i < 32 := by omega
    have hbody (rest : List Char) :
        (do
          let (bval, pkt) ← liftExcept (gdbGetByte (hexByte (f.gpwr ⟨i, hlt⟩) ++ rest))
          avrCoreGpwrSet i bval
          return pkt : CoreM δ (List Char)).run c =
            .ok (rest, c.gpwrSet ⟨i, hlt⟩ (f.gpwr ⟨i, hlt⟩)) := by
      rw [run_bind_of_ok (run_liftExcept_ok (gdbGetByte_hexByte _ _) c)]
      simp only []
      rw [run_bind_of_ok (run_avrCoreGpwrSet c ⟨i, hlt⟩ _)]
      rfl
    have hgpwr : (fun r : Fin 32 => if r.val < i + 1 then
        (c.gpwrSet ⟨i, hlt⟩ (f.gpwr ⟨i, hlt⟩)).gpwr r else f.gpwr r) =
        fun r => if r.val < i then c.gpwr r else f.gpwr r := by
      funext r
      change (if _ then Function.update c.gpwr ⟨i, hlt⟩ _ r else _) = _
      obtain hr | hr | hr := Nat.lt_trichotomy r.val i
      · rw [if_pos (by omega), if_pos hr, Function.update_of_ne (Fin.ne_of_lt hr)]
      · obtain rfl : r = ⟨i, hlt⟩ := Fin.ext hr
        rw [if_pos (Nat.lt_succ_self i), if_neg (Nat.lt_irrefl i), Function.update_self]
      · rw [if_neg (by omega), if_neg (by omega)]
    obtain ⟨display, hrun⟩ := ih (c := c.gpwrSet ⟨i, hlt⟩ (f.gpwr ⟨i, hlt⟩)) (i := i + 1)
      (by omega)
    use display
    rw [hgpwr] at hrun
    rw [loop, List.drop_eq_getElem_cons hi, List.flatMap_cons, List.getElem_finRange,
      List.append_assoc]
    apply (run_bind_of_ok (hbody _)).trans hrun

/-- The packet of all registers sets them. -/
theorem run_gdbWriteRegisters
    (h : HasGdbSp c) {f : RegFile} (hf : f.InFlash c) :
  ∃ display, (gdbWriteRegisters f.allText).run c =
    .ok ("OK".toList, c.withRegFile f display)
  := by
  have hok (d : AvrCore δ) : (gdbSendReply "OK".toList).run d = .ok ("OK".toList, d) :=
    run_gdbSendReply (by decide)
  obtain ⟨hlow, hlong⟩ := gdbGetLong_hexLong (.ofInt 32 (f.pc * 2)) []
  rw [List.append_nil, List.append_nil] at hlow
  rw [List.append_nil] at hlong
  obtain ⟨display₁, hgpwr⟩ := run_loop_gpwrSet (c := c) f
    (hexByte f.sreg ++ (hexByte f.spl ++ (hexByte f.sph ++ hexLong (.ofInt 32 (f.pc * 2)))))
    (i := 0) (n := 32) rfl
  -- the registers after the loop, after SREG and after SPL
  let f₁ : RegFile := { c.regFile with gpwr := f.gpwr }
  let f₂ : RegFile := { f₁ with sreg := f.sreg }
  let f₃ : RegFile := { f₂ with spl := f.spl }
  obtain ⟨display₂, hspl⟩ := run_memWrite_spl
    (h.withRegFile f₂ (display₁ ++ [.ioReg sregIoReg f.sreg])) f.spl
  obtain ⟨display₃, hsph⟩ := run_memWrite_sph (h.withRegFile f₃ display₂) f.sph
  obtain ⟨display, hpc⟩ := pcSet_eq (c := c.withRegFile { f₃ with sph := f.sph } display₃) hf
  use display
  rw [gdbWriteRegisters, RegFile.allText_eq]
  apply (run_bind_of_ok hgpwr).trans
  apply (run_bind_of_ok (run_liftExcept_ok (gdbGetByte_hexByte _ _) _)).trans
  apply (run_bind_of_ok (run_avrCoreSregSet _ _)).trans
  apply (run_bind_of_ok (run_liftExcept_ok (gdbGetByte_hexByte _ _) _)).trans
  apply (run_bind_of_ok hspl).trans
  apply (run_bind_of_ok (run_liftExcept_ok (gdbGetByte_hexByte _ _) _)).trans
  apply (run_bind_of_ok hsph).trans
  apply (run_bind_of_ok (run_liftExcept_ok hlow _)).trans
  apply (run_bind_of_ok (run_liftExcept_ok hlong _)).trans
  apply (run_bind_of_ok (run_avrCorePCSet _ _)).trans
  apply (hok _).trans
  apply congrArg (fun d => Except.ok ("OK".toList, d)) hpc

/-- The packets `P n=v` of the registers with numbers in `ns`, with the values of `f`. -/
def gdbWriteEach (num : Fin 35 → List Char) (f : RegFile) (ns : List (Fin 35)) : CoreM δ Unit :=
  ns.forM fun n => do
    let _ ← gdbWriteRegister (num n ++ '=' :: f.text n)

theorem run_gdbWriteEach
    (h : HasGdbSp c) {num : Fin 35 → List Char}
    (hnum : ∀ n, hexValue 0 (num n) = .ok n.val ∧ (num n).length ≤ 8)
    {f : RegFile} (hf : f.InFlash c) (ns : List (Fin 35)) :
  ∃ display, (gdbWriteEach num f ns).run c =
    .ok ((), c.withRegFile (ns.foldl (fun g n => g.set n f) c.regFile) display)
  := by
  induction ns generalizing c with
  | nil =>
    use c.display
    rfl
  | cons n ns ih =>
    obtain ⟨hvalue, hlength⟩ := hnum n
    obtain ⟨display, hrun⟩ := run_gdbWriteRegister h hf n hvalue hlength
    obtain ⟨display', hrun'⟩ := ih (h.withRegFile (c.regFile.set n f) display) hf
    use display'
    have hfirst : (do
        let _ ← gdbWriteRegister (num n ++ '=' :: f.text n)
        pure () : CoreM δ Unit).run c = .ok ((), c.withRegFile (c.regFile.set n f) display) := by
      rw [run_bind_of_ok hrun]
      rfl
    rw [gdbWriteEach, List.forM]
    apply (run_bind_of_ok hfirst).trans hrun'

/-- For every way to write the numbers of the registers, the reply to `g` is the concatenation
of the replies to the packets `p`; after `G` the reply to `g` is the data; after `P n=v` the
reply to `p n` is `v` and the reply to every other `p` is as before; and `G` leaves the core,
but for the messages to the display, as the 35 packets `P` do in any order. -/
theorem gdb_registers_agree
    (c : AvrCore δ) (h : HasGdbSp c) (num : Fin 35 → List Char)
    (hnum : ∀ n, hexValue 0 (num n) = .ok n.val ∧ (num n).length ≤ 8) :
  (∃ replies : Fin 35 → List Char,
    (∀ n, (gdbReadRegister (num n)).run c = .ok (replies n, c)) ∧
    gdbReadRegisters.run c = .ok ((List.finRange 35).flatMap replies, c)) ∧
  ∀ f : RegFile, f.InFlash c →
    (∃ c', (gdbWriteRegisters f.allText).run c = .ok ("OK".toList, c') ∧
      gdbReadRegisters.run c' = .ok (f.allText, c')) ∧
    (∀ n, ∃ c', (gdbWriteRegister (num n ++ '=' :: f.text n)).run c = .ok ("OK".toList, c') ∧
      (gdbReadRegister (num n)).run c' = .ok (f.text n, c') ∧
      ∀ m, m ≠ n → ∃ reply, (gdbReadRegister (num m)).run c = .ok (reply, c) ∧
        (gdbReadRegister (num m)).run c' = .ok (reply, c')) ∧
    ∀ ns : List (Fin 35), ns.Perm (List.finRange 35) → ∃ c₁ c₂,
      (gdbWriteRegisters f.allText).run c = .ok ("OK".toList, c₁) ∧
      (gdbWriteEach num f ns).run c = .ok ((), c₂) ∧
      { c₁ with display := [] } = { c₂ with display := [] }
  := by
  have hread {d : AvrCore δ} (hd : HasGdbSp d) (n : Fin 35) :
      (gdbReadRegister (num n)).run d = .ok (d.regFile.text n, d) := by
    obtain ⟨hvalue, hlength⟩ := hnum n
    apply run_gdbReadRegister hd n hvalue hlength
  constructor
  · use c.regFile.text
    constructor
    · apply hread h
    · apply run_gdbReadRegisters h
  · intro f hf
    obtain ⟨display, hwrite⟩ := run_gdbWriteRegisters h hf
    refine ⟨?_, ?_, ?_⟩
    · use c.withRegFile f display, hwrite
      apply run_gdbReadRegisters (h.withRegFile f display)
    · intro n
      obtain ⟨hvalue, hlength⟩ := hnum n
      obtain ⟨display', hset⟩ := run_gdbWriteRegister h hf n hvalue hlength
      have hafter := hread (h.withRegFile (c.regFile.set n f) display')
      simp only [regFile_withRegFile, RegFile.text, RegFile.bytes_set] at hafter
      refine ⟨_, hset, ?_, ?_⟩
      · rw [hafter, if_pos rfl, RegFile.text]
      · intro m hm
        use c.regFile.text m, hread h m
        rw [hafter, if_neg hm, RegFile.text]
    · intro ns hns
      obtain ⟨display', heach⟩ := run_gdbWriteEach h hnum hf ns
      rw [RegFile.foldl_set_eq c.regFile f (fun n => hns.mem_iff.mpr (List.mem_finRange n))] at heach
      refine ⟨_, _, hwrite, heach, rfl⟩

end

/-- PC of the at90s8515 set to the word 8. -/
theorem gdb_registers_agree_pc :
  ∃ c', (gdbWriteRegister "22=10000000".toList).run (AvrCore.construct defnAt90s8515 ())
      = .ok ("OK".toList, c') ∧
    (gdbReadRegister "22".toList).run c' = .ok ("10000000".toList, c')
  := by
  have hsp : HasGdbSp (AvrCore.construct defnAt90s8515 ()) := by
    constructor <;> decide
  let f : RegFile := { gpwr := fun _ => 0, sreg := 0, spl := 0, sph := 0, pc := 8 }
  have hnum : ∀ n : Fin 35, hexValue 0 (Nat.toDigits 16 n.val) = .ok n.val ∧
      (Nat.toDigits 16 n.val).length ≤ 8 := by
    decide +kernel
  have hf : f.InFlash (AvrCore.construct defnAt90s8515 ()) :=
    ⟨by decide, by decide, by decide⟩
  have htext : f.text 34 = "10000000".toList := by
    decide +kernel
  have hdigits : Nat.toDigits 16 (34 : Fin 35).val = "22".toList := by
    decide +kernel
  obtain ⟨c', hwrite, hread, -⟩ :=
    ((gdb_registers_agree _ hsp (fun n => Nat.toDigits 16 n.val) hnum).2 f hf).2.1 34
  rw [hdigits, htext] at hwrite
  rw [hdigits, htext] at hread
  exact ⟨c', hwrite, hread⟩

end SimulAvr
