import SimulAvr.Display
import SimulAvr.GdbRegisters
import SimulAvr.Regress.Client
import Mathlib.Data.List.GetD

/-!
# The texts of the client

The client writes numbers as the server reads them, and reads bytes and registers as the server
writes them.  The texts between them are plain, so that they pass as the payload of a frame.
-/

namespace SimulAvr

open Exchange

/-! ### Numbers and bytes -/

/-- The server reads the number that the client writes. -/
theorem hexValue_formatHex
    (n : Nat) :
  hexValue 0 (formatHex n) = .ok n
  := hexValue_toDigits n

theorem length_formatHex
    {n : Nat} (h : n < 2 ^ 32) :
  (formatHex n).length ≤ 8
  := by
  rw [formatHex, Nat.length_toDigits_le_iff (by decide) (by decide)]
  exact h

theorem formatHex2_eq_hexByte :
  ∀ b : Byte, formatHex2 b.toNat = hexByte b
  := by
  decide +kernel

theorem int16_hexByte :
  ∀ b : Byte, int16 (hexByte b) = some b.toNat
  := by
  decide +kernel

theorem bin2str_eq
    (vals : List Byte) :
  bin2str vals = vals.flatMap hexByte
  := by
  rw [bin2str]
  congr 1
  funext b
  apply formatHex2_eq_hexByte

/-- The client reads the bytes that the server writes. -/
theorem str2bin_hexByte
    (vals : List Byte) :
  str2bin (vals.flatMap hexByte) = some vals
  := by
  induction vals with
  | nil => rfl
  | cons val vals ih =>
    have hval := int16_hexByte val
    rw [hexByte] at hval
    rw [List.flatMap_cons, hexByte, List.cons_append, List.cons_append, List.nil_append, str2bin,
      hval, ih]
    simp only [Option.bind_eq_bind, Option.bind_some, BitVec.ofNat_toNat, BitVec.setWidth_eq]
    rfl

/-! ### Plain texts -/

/-- The characters of the text are single bytes, and none of them ends a frame. -/
def Plain (s : List Char) : Prop :=
  ∀ ch ∈ s, ch.toNat < 256 ∧ ch ≠ '#'

instance decidablePlain (s : List Char) : Decidable (Plain s) :=
  List.decidableBAll (fun ch : Char => ch.toNat < 256 ∧ ch ≠ '#') s

theorem plain_nil :
  Plain []
  := List.forall_mem_nil _

theorem plain_cons
    {ch : Char} {s : List Char} (hch : ch.toNat < 256 ∧ ch ≠ '#') (h : Plain s) :
  Plain (ch :: s)
  := List.forall_mem_cons.mpr ⟨hch, h⟩

theorem plain_append
    {s t : List Char} (hs : Plain s) (ht : Plain t) :
  Plain (s ++ t)
  := List.forall_mem_append.mpr ⟨hs, ht⟩

theorem plain_hexByte :
  ∀ b : Byte, Plain (hexByte b)
  := by
  decide +kernel

theorem plain_flatMap_hexByte
    (vals : List Byte) :
  Plain (vals.flatMap hexByte)
  := by
  intro ch hch
  obtain ⟨b, -, hb⟩ := List.mem_flatMap.mp hch
  apply plain_hexByte b ch hb

theorem plain_digitChar :
  ∀ d < 16, (Nat.digitChar d).toNat < 256 ∧ Nat.digitChar d ≠ '#'
  := by
  decide

theorem plain_formatHex
    (n : Nat) :
  Plain (formatHex n)
  := by
  induction n using Nat.strongRecOn with
  | ind n ih =>
    by_cases hn : n < 16
    · rw [formatHex, Nat.toDigits_of_lt_base hn]
      apply plain_cons (plain_digitChar n hn) plain_nil
    · rw [formatHex, Nat.toDigits_of_base_le (by decide) (by omega), ← formatHex]
      apply plain_append (ih (n / 16) (by omega))
      apply plain_cons (plain_digitChar _ (Nat.mod_lt n (by decide))) plain_nil

/-! ### Characters and bytes -/

theorem byteChar_charByte
    {ch : Char} (h : ch.toNat < 256) :
  byteChar (charByte ch) = ch
  := by
  rw [byteChar, charByte, BitVec.toNat_ofNat, Nat.mod_eq_of_lt h]
  apply Char.ofNat_toNat

theorem map_byteChar
    {s : List Char} (h : Plain s) :
  (s.map charByte).map byteChar = s
  := by
  rw [List.map_map]
  conv => rhs; rw [← List.map_id s]
  apply List.map_congr_left
  intro ch hch
  apply byteChar_charByte (h ch hch).1

theorem endMark_not_mem
    {s : List Char} (h : Plain s) :
  Framing.endMark ∉ s.map charByte
  := by
  intro hmem
  obtain ⟨ch, hch, heq⟩ := List.mem_map.mp hmem
  apply (h ch hch).2
  rw [← byteChar_charByte (h ch hch).1, heq]
  rfl

/-- The sums of the client and of the server -/
theorem checksum_map
    {s : List Char} (h : Plain s) :
  (Framing.checksum (s.map charByte)).toNat = cksum s
  := by
  have hsum : ((s.map charByte).map BitVec.toNat) = s.map Char.toNat := by
    rw [List.map_map]
    apply List.map_congr_left
    intro ch hch
    rw [Function.comp_apply, charByte, BitVec.toNat_ofNat, Nat.mod_eq_of_lt (h ch hch).1]
  rw [Framing.checksum, hsum, cksum, BitVec.toNat_ofNat, show 0xff = 2 ^ 8 - 1 from rfl,
    Nat.and_two_pow_sub_one_eq_mod]

/-- The text of a checksum, as bytes -/
theorem map_charByte_hexByte :
  ∀ b : Byte, (hexByte b).map charByte = [Framing.digit (b >>> 4), Framing.digit (b &&& 0xf#8)]
  := by
  decide +kernel

/-- The client writes the frame of a packet. -/
theorem map_charByte_frame
    {s : List Char} (h : Plain s) :
  ('$' :: (s ++ '#' :: formatHex2 (cksum s))).map charByte = Framing.frame (s.map charByte)
  := by
  rw [← checksum_map h, formatHex2_eq_hexByte, List.map_cons, List.map_append, List.map_cons,
    map_charByte_hexByte]
  rfl

/-! ### Registers -/

/-- The number that bytes make, low byte first -/
def leValue (bytes : List Byte) : Nat :=
  bytes.foldr (fun b n => b.toNat + 2 ^ 8 * n) 0

theorem packBytes_succ
    (size n : Nat) :
  packBytes (size + 1) n = .ofNat 8 n :: packBytes size (n / 2 ^ 8)
  := by
  rw [packBytes, List.range_succ_eq_map, List.map_cons, List.map_map, packBytes]
  congr 1
  · rw [Nat.mul_zero, Nat.pow_zero, Nat.div_one]
  · apply List.map_congr_left
    intro i _
    rw [Function.comp_apply, Nat.div_div_eq_div_mul, ← Nat.pow_add, Nat.mul_succ, Nat.add_comm 8]

theorem packBytes_leValue
    (bytes : List Byte) :
  packBytes bytes.length (leValue bytes) = bytes
  := by
  induction bytes with
  | nil => rfl
  | cons b bytes ih =>
    have hb := b.isLt
    have hdiv : leValue (b :: bytes) / 2 ^ 8 = leValue bytes := by
      rw [leValue, List.foldr_cons, ← leValue]
      omega
    rw [List.length_cons, packBytes_succ, hdiv, ih]
    congr 1
    apply BitVec.eq_of_toNat_eq
    rw [BitVec.toNat_ofNat, leValue, List.foldr_cons]
    omega

namespace RegFile

/-- The values of registers as the client knows them -/
def regs (f : RegFile) : Regs :=
  fun reg => leValue (f.bytes reg)

theorem length_bytes
    (f : RegFile) (reg : Fin 35) :
  (f.bytes reg).length = regSize reg
  := by
  obtain ⟨i, rfl⟩ | rfl | rfl | rfl := register_cases reg
  · have hi : (i.castLE (show 32 ≤ 35 by decide)).val < 32 := i.isLt
    have hsp : i.castLE (show 32 ≤ 35 by decide) < Reg.SP := Nat.lt_succ_of_lt i.isLt
    rw [bytes, dif_pos hi, regSize, if_pos hsp]
    rfl
  all_goals rfl

theorem regs_gpwr
    (f : RegFile) (i : Fin 32) :
  f.regs (Reg.R i) = (f.gpwr i).toNat
  := by
  have hi : (i.castLE (show 32 ≤ 35 by decide)).val < 32 := i.isLt
  rw [regs, bytes, dif_pos hi]
  rfl

theorem regs_sreg
    (f : RegFile) :
  f.regs Reg.SREG = f.sreg.toNat
  := rfl

theorem regs_sp
    (f : RegFile) :
  f.regs Reg.SP = f.spl.toNat + 2 ^ 8 * f.sph.toNat
  := rfl

theorem regs_pc
    {f : RegFile} (hlow : 0 ≤ f.pc) (hhigh : f.pc * 2 < 2 ^ 32) :
  f.regs Reg.PC = f.pc.toNat * 2
  := by
  have hval : f.regs Reg.PC = (BitVec.ofInt 32 (f.pc * 2)).toNat := by
    generalize hv : BitVec.ofInt 32 (f.pc * 2) = v
    have hbytes := congrArg BitVec.toNat (bytes_append_self v)
    change leValue [(BitVec.ofInt 32 (f.pc * 2)).extractLsb' 0 8, _, _, _] = _
    rw [hv]
    simp only [leValue, List.foldr_cons, List.foldr_nil, BitVec.extractLsb'_toNat,
      Nat.shiftRight_eq_div_pow]
    have := v.isLt
    omega
  rw [hval, BitVec.toNat_ofInt]
  omega

/-- The registers with the values that the client knows -/
def ofRegs (r : Regs) : RegFile where
  gpwr i := .ofNat 8 (r (Reg.R i))
  sreg := .ofNat 8 (r Reg.SREG)
  spl := .ofNat 8 (r Reg.SP)
  sph := .ofNat 8 (r Reg.SP / 2 ^ 8)
  pc := (r Reg.PC / 2 : Nat)

end RegFile

/-- The values fit into the registers, and PC is the address of a word. -/
structure Regs.Valid (r : Regs) : Prop where
  bound : ∀ reg, r reg < 2 ^ (8 * regSize reg)
  even : r Reg.PC % 2 = 0

namespace Regs.Valid

variable {r : Regs}

theorem gpwr_lt
    (h : r.Valid) (i : Fin 32) :
  r (Reg.R i) < 2 ^ 8
  := by
  have hbound := h.bound (Reg.R i)
  have hsp : i.castLE (show 32 ≤ 35 by decide) < Reg.SP := Nat.lt_succ_of_lt i.isLt
  rw [regSize, if_pos hsp] at hbound
  exact hbound

theorem regs_ofRegs
    (h : r.Valid) :
  (RegFile.ofRegs r).regs = r
  := by
  funext reg
  obtain ⟨i, rfl⟩ | rfl | rfl | rfl := register_cases reg
  · rw [RegFile.regs_gpwr, RegFile.ofRegs, BitVec.toNat_ofNat]
    exact Nat.mod_eq_of_lt (h.gpwr_lt i)
  · rw [RegFile.regs_sreg, RegFile.ofRegs, BitVec.toNat_ofNat]
    exact Nat.mod_eq_of_lt (h.bound Reg.SREG)
  · have hsp : r Reg.SP < 2 ^ 16 := h.bound Reg.SP
    change (RegFile.ofRegs r).regs Reg.SP = r Reg.SP
    rw [RegFile.regs_sp, RegFile.ofRegs, BitVec.toNat_ofNat, BitVec.toNat_ofNat]
    omega
  · have hpc : r Reg.PC < 2 ^ 32 := h.bound Reg.PC
    have heven := h.even
    have hval : (RegFile.ofRegs r).pc = (r Reg.PC / 2 : Nat) := rfl
    change (RegFile.ofRegs r).regs Reg.PC = r Reg.PC
    rw [RegFile.regs_pc (by omega) (by omega), hval]
    omega

/-- The text of a register as the client writes it -/
theorem packReg_eq
    (h : r.Valid) (reg : Fin 35) :
  packReg reg (r reg) = some ((RegFile.ofRegs r).bytes reg)
  := by
  have hval : r reg = leValue ((RegFile.ofRegs r).bytes reg) :=
    (congrFun h.regs_ofRegs reg).symm
  rw [packReg, if_pos (h.bound reg), hval, ← RegFile.length_bytes, packBytes_leValue]

end Regs.Valid

theorem mapM_some
    {α β : Type} {f : α → Option β} {g : α → β} (xs : List α) (h : ∀ x ∈ xs, f x = some (g x)) :
  xs.mapM f = some (xs.map g)
  := by
  induction xs with
  | nil => rfl
  | cons x xs ih =>
    rw [List.forall_mem_cons] at h
    rw [List.mapM_cons, h.1, ih h.2]
    rfl

/-- The packet `G` as the client writes it -/
theorem packRegs_eq
    {r : Regs} (h : r.Valid) :
  packRegs r = some ((List.finRange 35).flatMap (RegFile.ofRegs r).bytes)
  := by
  rw [packRegs, mapM_some _ fun reg _ => h.packReg_eq reg, Option.map_some, List.flatMap_def]

theorem bin2str_allText
    (f : RegFile) :
  bin2str ((List.finRange 35).flatMap f.bytes) = f.allText
  := by
  rw [bin2str_eq, RegFile.allText, List.flatMap_assoc]
  rfl

/-- The bytes of all registers -/
theorem flatMap_bytes
    (f : RegFile) :
  (List.finRange 35).flatMap f.bytes
    = (List.finRange 32).map f.gpwr ++ (f.bytes Reg.SREG ++ (f.bytes Reg.SP ++ f.bytes Reg.PC))
  := by
  have hsplit : List.finRange 35
      = (List.finRange 32).map (fun i => i.castLE (by decide)) ++ [32, 33, 34] := by
    decide
  have hgpwr (is : List (Fin 32)) : is.flatMap (fun i => f.bytes (Reg.R i)) = is.map f.gpwr := by
    induction is with
    | nil => rfl
    | cons i is ih =>
      have hi : f.bytes (Reg.R i) = [f.gpwr i] := dif_pos i.isLt
      rw [List.flatMap_cons, ih, hi, List.map_cons, List.singleton_append]
  rw [hsplit, List.flatMap_append, List.flatMap_map, hgpwr, List.flatMap_cons, List.flatMap_cons,
    List.flatMap_singleton]

/-- The client reads the registers from the bytes of the reply to `g`. -/
theorem unpackRegs_eq
    (f : RegFile) :
  unpackRegs ((List.finRange 35).flatMap f.bytes) = some f.regs
  := by
  have hlength : ((List.finRange 32).map f.gpwr).length = 32 := by
    rw [List.length_map, List.length_finRange]
  have hlow (i : Nat) (hi : i < 32) :
      ((List.finRange 35).flatMap f.bytes).getD i 0 = f.gpwr ⟨i, hi⟩ := by
    rw [flatMap_bytes, List.getD_append _ _ _ _ (by omega), List.getD_eq_getElem _ _ (by omega),
      List.getElem_map, List.getElem_finRange]
    rfl
  have hhigh (i : Nat) : ((List.finRange 35).flatMap f.bytes).getD (32 + i) 0
      = (f.bytes Reg.SREG ++ (f.bytes Reg.SP ++ f.bytes Reg.PC)).getD i 0 := by
    rw [flatMap_bytes, List.getD_append_right _ _ _ _ (by omega), hlength, Nat.add_sub_cancel_left]
  have hall : ((List.finRange 35).flatMap f.bytes).length = 39 := by
    rw [flatMap_bytes, List.length_append, hlength]
    rfl
  rw [unpackRegs, if_pos hall]
  apply congrArg some
  funext reg
  obtain ⟨i, rfl⟩ | rfl | rfl | rfl := register_cases reg
  · have hi : (i.castLE (show 32 ≤ 35 by decide)).val < 33 := Nat.lt_succ_of_lt i.isLt
    have hval := f.regs_gpwr i
    rw [if_pos hi, hval]
    exact congrArg BitVec.toNat (hlow i i.isLt)
  · exact congrArg BitVec.toNat (hhigh 0)
  · have hspl : ((List.finRange 35).flatMap f.bytes).getD 33 0 = f.spl := hhigh 1
    have hsph : ((List.finRange 35).flatMap f.bytes).getD 34 0 = f.sph := hhigh 2
    rw [if_neg (by decide), if_pos rfl]
    dsimp only
    rw [hspl, hsph, Nat.mul_comm]
    rfl
  · have h0 : ((List.finRange 35).flatMap f.bytes).getD 35 0 = _ := hhigh 3
    have h1 : ((List.finRange 35).flatMap f.bytes).getD 36 0 = _ := hhigh 4
    have h2 : ((List.finRange 35).flatMap f.bytes).getD 37 0 = _ := hhigh 5
    have h3 : ((List.finRange 35).flatMap f.bytes).getD 38 0 = _ := hhigh 6
    rw [if_neg (by decide), if_neg (by decide)]
    dsimp only
    rw [h0, h1, h2, h3]
    change (BitVec.extractLsb' 0 8 _).toNat + (BitVec.extractLsb' 8 8 _).toNat * _
      + (BitVec.extractLsb' 16 8 _).toNat * _ + (BitVec.extractLsb' 24 8 _).toNat * _
      = leValue [_, _, _, _]
    simp only [leValue, List.foldr_cons, List.foldr_nil]
    omega

end SimulAvr
