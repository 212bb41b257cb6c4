import SimulAvr.Decoder.Lookup

/-!
# The operands of decoded instructions

Every opcode has an operand form, the form of the table that lists it; the operands
that `lookupOpcode` extracts from an instruction word are within the ranges of the form
of its opcode (`lookupOpcode_admits`).
-/

namespace SimulAvr

namespace OperandForm

/-- The operands that an instruction word of the form can have. -/
def Admits : OperandForm → Int → Int → Prop
  | .none, a, b => a = -1 ∧ b = -1
  | .rd5rr5, a, b => (0 ≤ a ∧ a < 32) ∧ (0 ≤ b ∧ b < 32)
  | .rd5, a, b => (0 ≤ a ∧ a < 32) ∧ b = -1
  | .rd4K8, a, b => (16 ≤ a ∧ a < 32) ∧ (0 ≤ b ∧ b < 256)
  | .rd5bit, a, b => (0 ≤ a ∧ a < 32) ∧ (0 ≤ b ∧ b < 8)
  | .bitk7, a, b => (0 ≤ a ∧ a < 8) ∧ (-64 ≤ b ∧ b < 64)
  | .rd5q, a, b => (0 ≤ a ∧ a < 32) ∧ (0 ≤ b ∧ b < 64)
  | .k22, a, b => (0 ≤ a ∧ a < 64) ∧ b = -1
  | .sregBit, a, b => (0 ≤ a ∧ a < 8) ∧ b = -1
  | .rd2K6, a, b => (24 ≤ a ∧ a ≤ 30) ∧ (0 ≤ b ∧ b < 64)
  | .a5bit, a, b => (0 ≤ a ∧ a < 32) ∧ (0 ≤ b ∧ b < 8)
  | .rd5a6, a, b => (0 ≤ a ∧ a < 32) ∧ (0 ≤ b ∧ b < 64)
  | .k12, a, b => (-2048 ≤ a ∧ a < 2048) ∧ b = -1
  | .rd4rr4, a, b => (16 ≤ a ∧ a < 32) ∧ (16 ≤ b ∧ b < 32)
  | .rd3rr3, a, b => (16 ≤ a ∧ a < 24) ∧ (16 ≤ b ∧ b < 24)

end OperandForm

/-- The operand form of an opcode. -/
def OpcodeName.form (func : OpcodeName) : OperandForm :=
  ((decodeTables.find? fun table => table.cases.any fun entry => entry.2 = func).map
    DecodeTable.form).getD .none

/-! ### The ranges of the operands -/

private theorem toNat_and_le
    (x m : Word) :
  (x &&& m).toNat ≤ m.toNat
  := by
  rw [BitVec.toNat_and]
  apply Nat.and_le_right

theorem getRd2_mem
    (opcode : Word) :
  24 ≤ getRd2 opcode ∧ getRd2 opcode ≤ 30
  := by
  have h := toNat_and_le ((opcode &&& maskRd2) >>> 4) 0x3
  simp only [getRd2]
  change _ ≤ 3 at h
  omega

theorem getRd3_mem
    (opcode : Word) :
  16 ≤ getRd3 opcode ∧ getRd3 opcode < 24
  := by
  have h := toNat_and_le ((opcode &&& maskRd3) >>> 4) 0x7
  simp only [getRd3]
  change _ ≤ 7 at h
  omega

theorem getRd4_mem
    (opcode : Word) :
  16 ≤ getRd4 opcode ∧ getRd4 opcode < 32
  := by
  have h := toNat_and_le ((opcode &&& maskRd4) >>> 4) 0xf
  simp only [getRd4]
  change _ ≤ 15 at h
  omega

theorem getRd5_mem
    (opcode : Word) :
  0 ≤ getRd5 opcode ∧ getRd5 opcode < 32
  := by
  have h := toNat_and_le ((opcode &&& maskRd5) >>> 4) 0x1f
  simp only [getRd5]
  change _ ≤ 31 at h
  omega

theorem getRr3_mem
    (opcode : Word) :
  16 ≤ getRr3 opcode ∧ getRr3 opcode < 24
  := by
  have h := toNat_and_le opcode maskRr3
  simp only [getRr3]
  change _ ≤ 7 at h
  omega

theorem getRr4_mem
    (opcode : Word) :
  16 ≤ getRr4 opcode ∧ getRr4 opcode < 32
  := by
  have h := toNat_and_le opcode maskRr4
  simp only [getRr4]
  change _ ≤ 15 at h
  omega

theorem getRr5_mem
    (opcode : Word) :
  0 ≤ getRr5 opcode ∧ getRr5 opcode < 32
  := by
  have h := toNat_and_le (opcode &&& maskRr5) 0xf
  have h' := toNat_and_le ((opcode &&& maskRr5) >>> 5) 0x10
  simp only [getRr5]
  change _ ≤ 15 at h
  change _ ≤ 16 at h'
  omega

theorem getK8_mem
    (opcode : Word) :
  0 ≤ getK8 opcode ∧ getK8 opcode < 256
  := by
  have h := toNat_and_le (opcode &&& maskK8) 0xf
  have h' := toNat_and_le ((opcode &&& maskK8) >>> 4) 0xf0
  simp only [getK8]
  change _ ≤ 15 at h
  change _ ≤ 240 at h'
  omega

theorem getK6_mem
    (opcode : Word) :
  0 ≤ getK6 opcode ∧ getK6 opcode < 64
  := by
  have h := toNat_and_le (opcode &&& maskK6) 0xf
  have h' := toNat_and_le ((opcode &&& maskK6) >>> 2) 0x0030
  simp only [getK6]
  change _ ≤ 15 at h
  change _ ≤ 48 at h'
  omega

theorem getk22_mem
    (opcode : Word) :
  0 ≤ getk22 opcode ∧ getk22 opcode < 64
  := by
  have h := toNat_and_le (opcode &&& maskk22) 0x1
  have h' := toNat_and_le ((opcode &&& maskk22) >>> 3) 0x003e
  simp only [getk22]
  change _ ≤ 1 at h
  change _ ≤ 62 at h'
  omega

theorem getRegBit_mem
    (opcode : Word) :
  0 ≤ getRegBit opcode ∧ getRegBit opcode < 8
  := by
  have h := toNat_and_le opcode maskRegBit
  simp only [getRegBit]
  change _ ≤ 7 at h
  omega

theorem getSregBit_mem
    (opcode : Word) :
  0 ≤ getSregBit opcode ∧ getSregBit opcode < 8
  := by
  have h := toNat_and_le opcode maskSregBit
  simp only [getSregBit, BitVec.toNat_ushiftRight, Nat.shiftRight_eq_div_pow]
  change _ ≤ 0x70 at h
  omega

theorem getQ_mem
    (opcode : Word) :
  0 ≤ getQ opcode ∧ getQ opcode < 64
  := by
  have h := toNat_and_le (opcode &&& maskQDispl) 0x7
  have h' := toNat_and_le ((((opcode &&& maskQDispl) >>> 1 &&& 0x1000)
    + (opcode &&& maskQDispl &&& 0x0c00)) >>> 7) 0x0038
  simp only [getQ]
  change _ ≤ 7 at h
  change _ ≤ 56 at h'
  omega

theorem getA5_mem
    (opcode : Word) :
  0 ≤ getA5 opcode ∧ getA5 opcode < 32
  := by
  have h := toNat_and_le opcode maskA5
  simp only [getA5, BitVec.toNat_ushiftRight, Nat.shiftRight_eq_div_pow]
  change _ ≤ 0xf8 at h
  omega

theorem getA6_mem
    (opcode : Word) :
  0 ≤ getA6 opcode ∧ getA6 opcode < 64
  := by
  have h := toNat_and_le (opcode &&& maskA6) 0xf
  have h' := toNat_and_le ((opcode &&& maskA6) >>> 5) 0x0030
  simp only [getA6]
  change _ ≤ 15 at h
  change _ ≤ 48 at h'
  omega

/-- The sign bit of an `n`-bit value. -/
theorem testBit_signBit
    {val n : Nat} (hn : 0 < n) (hval : val < 2 ^ n) :
  val.testBit (n - 1) = false ↔ val < 2 ^ (n - 1)
  := by
  constructor
  · intro h
    apply Nat.lt_pow_two_of_testBit
    intro i hi
    by_cases heq : i = n - 1
    · rw [heq, h]
    · apply Nat.testBit_lt_two_pow
      apply Nat.lt_of_lt_of_le hval
      apply Nat.pow_le_pow_right <;> omega
  · apply Nat.testBit_lt_two_pow

/-- The two's complement of an `n`-bit value. -/
theorem nBitUnsignedToSigned_eq
    {val n : Nat} (hn : 0 < n) (hn' : n < 31) (hval : val < 2 ^ n) :
  nBitUnsignedToSigned val n = if val < 2 ^ (n - 1) then (val : Int) else val - 2 ^ n
  := by
  have hle : 2 ^ n ≤ 2 ^ 30 := Nat.pow_le_pow_right (by omega) (by omega)
  have hle' : 2 ^ (n - 1) ≤ 2 ^ 30 := Nat.pow_le_pow_right (by omega) (by omega)
  have hval' : (BitVec.ofNat 32 val).toNat = val := by
    rw [BitVec.toNat_ofNat, Nat.mod_eq_of_lt (by omega)]
  have hone (i : Nat) (hi : 2 ^ i ≤ 2 ^ 30) : (1#32 <<< i).toNat = 2 ^ i := by
    rw [BitVec.toNat_shiftLeft, Nat.shiftLeft_eq, BitVec.toNat_ofNat, Nat.mod_eq_of_lt] <;> omega
  have hsign : BitVec.ofNat 32 val &&& (1#32 <<< (n - 1)) = 0 ↔ val < 2 ^ (n - 1) := by
    rw [← testBit_signBit hn hval, ← BitVec.toNat_inj, BitVec.toNat_and, hval', hone _ hle']
    constructor
    · intro h
      have := congrArg (fun x => x.testBit (n - 1)) h
      simpa using this
    · intro h
      apply Nat.eq_of_testBit_eq
      intro i
      by_cases heq : n - 1 = i
      · subst heq
        simp [h]
      · simp [Nat.testBit_two_pow_of_ne heq]
  have hmask : ((1#32 <<< n) - 1).toNat = 2 ^ n - 1 := by
    rw [BitVec.toNat_sub, hone _ hle]
    simp
    omega
  have hcompl : (~~~(BitVec.ofNat 32 val) &&& ((1#32 <<< n) - 1)).toNat = 2 ^ n - 1 - val := by
    rw [BitVec.toNat_and, hmask, BitVec.toNat_not, Nat.and_two_pow_sub_one_eq_mod, hval']
    have hsum : 2 ^ 32 - 1 - val = 2 ^ n * (2 ^ (32 - n) - 1) + (2 ^ n - 1 - val) := by
      rw [Nat.mul_sub, ← Nat.pow_add, Nat.add_sub_cancel' (by omega : n ≤ 32)]
      omega
    rw [hsum, Nat.mul_add_mod, Nat.mod_eq_of_lt (by omega)]
  simp only [nBitUnsignedToSigned, hsign]
  split
  · rw [BitVec.toInt_eq_toNat_of_lt, hval']
    omega
  · have hneg : (-1 * ((~~~(BitVec.ofNat 32 val) &&& ((1#32 <<< n) - 1)) + 1)).toNat
        = 2 ^ 32 - (2 ^ n - val) := by
      rw [show (-1 : BitVec 32) = -1#32 from rfl, ← BitVec.neg_eq_neg_one_mul, BitVec.toNat_neg, BitVec.toNat_add, hcompl]
      rw [show (1 : BitVec 32).toNat = 1 from rfl]
      omega
    rw [BitVec.toInt_eq_toNat_cond, hneg]
    have hcast : (2 : Int) ^ n = (2 ^ n : Nat) := by simp
    rw [hcast]
    generalize 2 ^ n = p at *
    split <;> omega

theorem getk7_mem
    (opcode : Word) :
  -64 ≤ nBitUnsignedToSigned (getk7 opcode) 7 ∧ nBitUnsignedToSigned (getk7 opcode) 7 < 64
  := by
  have h := toNat_and_le ((opcode &&& maskk7) >>> 3) 0x7f
  change getk7 opcode ≤ 127 at h
  rw [nBitUnsignedToSigned_eq (by omega) (by omega) (by omega)]
  split <;> omega

theorem getk12_mem
    (opcode : Word) :
  -2048 ≤ nBitUnsignedToSigned (getk12 opcode) 12
    ∧ nBitUnsignedToSigned (getk12 opcode) 12 < 2048
  := by
  have h := toNat_and_le opcode maskk12
  change getk12 opcode ≤ 4095 at h
  rw [nBitUnsignedToSigned_eq (by omega) (by omega) (by omega)]
  split <;> omega

/-! ### Decoded instructions -/

/-- The opcodes that a table lists have the form of the table. -/
theorem form_of_mem_cases :
  ∀ table ∈ decodeTables, ∀ entry ∈ table.cases, entry.2.form = table.form
  := by
  decide +kernel

/-- The operands that a table extracts from a word are within the ranges of the form of
the table. -/
theorem table_admits
    {table : DecodeTable} (h : table ∈ decodeTables) (opcode : Word) :
  table.form.Admits (table.arg1 opcode) (table.arg2 opcode)
  := by
  simp only [decodeTables, List.mem_cons, List.not_mem_nil, or_false] at h
  rcases h with rfl | rfl | rfl | rfl | rfl | rfl | rfl | rfl | rfl | rfl | rfl | rfl | rfl
    | rfl | rfl
  · exact ⟨rfl, rfl⟩
  · exact ⟨getRd5_mem opcode, getRr5_mem opcode⟩
  · exact ⟨getRd5_mem opcode, rfl⟩
  · exact ⟨getRd4_mem opcode, getK8_mem opcode⟩
  · exact ⟨getRd5_mem opcode, getRegBit_mem opcode⟩
  · exact ⟨getRegBit_mem opcode, getk7_mem opcode⟩
  · exact ⟨getRd5_mem opcode, getQ_mem opcode⟩
  · exact ⟨getk22_mem opcode, rfl⟩
  · exact ⟨getSregBit_mem opcode, rfl⟩
  · exact ⟨getRd2_mem opcode, getK6_mem opcode⟩
  · exact ⟨getA5_mem opcode, getRegBit_mem opcode⟩
  · exact ⟨getRd5_mem opcode, getA6_mem opcode⟩
  · exact ⟨getk12_mem opcode, rfl⟩
  · exact ⟨getRd4_mem opcode, getRr4_mem opcode⟩
  · exact ⟨getRd3_mem opcode, getRr3_mem opcode⟩

/-- A successful lookup in a table yields one of the opcodes of the table, with the
operands of the table. -/
theorem table_lookup_inv
    {table : DecodeTable} {opcode : Word} {opi : OpcodeInfo}
    (h : table.lookup opcode = some opi) :
  (∃ entry ∈ table.cases, entry.2 = opi.func) ∧
    opi.arg1 = table.arg1 opcode ∧ opi.arg2 = table.arg2 opcode
  := by
  simp only [DecodeTable.lookup, Option.map_eq_some_iff] at h
  obtain ⟨func, hfunc, rfl⟩ := h
  refine ⟨?_, rfl, rfl⟩
  obtain ⟨l₁, l₂, hl, -⟩ := List.lookup_eq_some_iff.mp hfunc
  use (opcode &&& ~~~table.mask, func)
  rw [hl]
  simp

/-- The operands of a decoded instruction are within the ranges of the form of its
opcode. -/
theorem lookupOpcode_admits
    (opcode : Word) :
  (lookupOpcode opcode).func.form.Admits (lookupOpcode opcode).arg1 (lookupOpcode opcode).arg2
  := by
  rw [lookupOpcode]
  cases h : decodeTables.findSome? fun table => table.lookup opcode with
  | none =>
    rw [Option.getD_none]
    have hform : OpcodeName.UNKNOWN.form = .none := by decide +kernel
    rw [hform]
    exact ⟨rfl, rfl⟩
  | some opi =>
    rw [Option.getD_some]
    obtain ⟨table, hmem, hlookup⟩ := List.exists_of_findSome?_eq_some h
    obtain ⟨⟨entry, hentry, hfunc⟩, harg1, harg2⟩ := table_lookup_inv hlookup
    rw [← hfunc, form_of_mem_cases table hmem entry hentry, harg1, harg2]
    apply table_admits hmem

end SimulAvr
