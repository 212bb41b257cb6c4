import SimulAvr.Footprint

/-!
# Instruction encodings

The instructions as the bit patterns in the comments of the handlers lay them out: the
fixed bits of every opcode, and the bits of its operands.  A word laid out by the pattern
of an opcode decodes to that opcode and those operands (`decode_encode`).
-/

namespace SimulAvr

/-! ### Bit patterns -/

/-- The fixed bits of the pattern of an opcode, with zeros for those of the operands. -/
def OpcodeName.head : OpcodeName → Word
  | .ADC => 0b0001110000000000
  | .ADD => 0b0000110000000000
  | .ADIW => 0b1001011000000000
  | .AND => 0b0010000000000000
  | .ANDI => 0b0111000000000000
  | .ASR => 0b1001010000000101
  | .BCLR => 0b1001010010001000
  | .BLD => 0b1111100000000000
  | .BRBC => 0b1111010000000000
  | .BRBS => 0b1111000000000000
  | .BREAK => 0b1001010110011000
  | .BSET => 0b1001010000001000
  | .BST => 0b1111101000000000
  | .CALL => 0b1001010000001110
  | .CBI => 0b1001100000000000
  | .COM => 0b1001010000000000
  | .CP => 0b0001010000000000
  | .CPC => 0b0000010000000000
  | .CPI => 0b0011000000000000
  | .CPSE => 0b0001000000000000
  | .DEC => 0b1001010000001010
  | .EICALL => 0b1001010100011001
  | .EIJMP => 0b1001010000011001
  | .ELPM_Z => 0b1001000000000110
  | .ELPM_Z_incr => 0b1001000000000111
  | .ELPM => 0b1001010111011000
  | .EOR => 0b0010010000000000
  | .ESPM => 0b1001010111111000
  | .FMUL => 0b0000001100001000
  | .FMULS => 0b0000001110000000
  | .FMULSU => 0b0000001110001000
  | .ICALL => 0b1001010100001001
  | .IJMP => 0b1001010000001001
  | .IN => 0b1011000000000000
  | .INC => 0b1001010000000011
  | .JMP => 0b1001010000001100
  | .LDD_Y => 0b1000000000001000
  | .LDD_Z => 0b1000000000000000
  | .LDI => 0b1110000000000000
  | .LDS => 0b1001000000000000
  | .LD_X => 0b1001000000001100
  | .LD_X_decr => 0b1001000000001110
  | .LD_X_incr => 0b1001000000001101
  | .LD_Y_decr => 0b1001000000001010
  | .LD_Y_incr => 0b1001000000001001
  | .LD_Z_incr => 0b1001000000000001
  | .LD_Z_decr => 0b1001000000000010
  | .LPM_Z => 0b1001000000000100
  | .LPM => 0b1001010111001000
  | .LPM_Z_incr => 0b1001000000000101
  | .LSR => 0b1001010000000110
  | .MOV => 0b0010110000000000
  | .MOVW => 0b0000000100000000
  | .MUL => 0b1001110000000000
  | .MULS => 0b0000001000000000
  | .MULSU => 0b0000001100000000
  | .NEG => 0b1001010000000001
  | .NOP => 0b0000000000000000
  | .OR => 0b0010100000000000
  | .ORI => 0b0110000000000000
  | .OUT => 0b1011100000000000
  | .POP => 0b1001000000001111
  | .PUSH => 0b1001001000001111
  | .RCALL => 0b1101000000000000
  | .RET => 0b1001010100001000
  | .RETI => 0b1001010100011000
  | .RJMP => 0b1100000000000000
  | .ROR => 0b1001010000000111
  | .SBC => 0b0000100000000000
  | .SBCI => 0b0100000000000000
  | .SBI => 0b1001101000000000
  | .SBIC => 0b1001100100000000
  | .SBIS => 0b1001101100000000
  | .SBIW => 0b1001011100000000
  | .SBRC => 0b1111110000000000
  | .SBRS => 0b1111111000000000
  | .SLEEP => 0b1001010110001000
  | .SPM => 0b1001010111101000
  | .STD_Y => 0b1000001000001000
  | .STD_Z => 0b1000001000000000
  | .STS => 0b1001001000000000
  | .ST_X => 0b1001001000001100
  | .ST_X_decr => 0b1001001000001110
  | .ST_X_incr => 0b1001001000001101
  | .ST_Y_decr => 0b1001001000001010
  | .ST_Y_incr => 0b1001001000001001
  | .ST_Z_decr => 0b1001001000000010
  | .ST_Z_incr => 0b1001001000000001
  | .SUB => 0b0001100000000000
  | .SUBI => 0b0101000000000000
  | .SWAP => 0b1001010000000010
  | .WDR => 0b1001010110101000
  | .UNKNOWN => 0b1111111111111111

/-- The operands of an instruction, with the widths that the patterns give them. -/
inductive Operands where
  | none
  /-- `rd dddd rrrr` -/
  | rd5rr5 (d r : BitVec 5)
  /-- `d dddd` -/
  | rd5 (d : BitVec 5)
  /-- `d dddd`, and `kkkk kkkk kkkk kkkk` in the second word -/
  | rd5k16 (d : BitVec 5) (k : BitVec 16)
  /-- `KKKK dddd KKKK` -/
  | rd4K8 (d : BitVec 4) (K : BitVec 8)
  /-- `d dddd -bbb` -/
  | rd5bit (d : BitVec 5) (b : BitVec 3)
  /-- `kk kkkk ksss` -/
  | bitk7 (s : BitVec 3) (k : BitVec 7)
  /-- `q- qq-d dddd -qqq` -/
  | rd5q (d : BitVec 5) (q : BitVec 6)
  /-- `k kkkk ---k`, and `kkkk kkkk kkkk kkkk` in the second word -/
  | k22 (k : BitVec 22)
  /-- `sss` -/
  | sregBit (s : BitVec 3)
  /-- `KKdd KKKK` -/
  | rd2K6 (d : BitVec 2) (K : BitVec 6)
  /-- `AAAA Abbb` -/
  | a5bit (A : BitVec 5) (b : BitVec 3)
  /-- `AAd dddd AAAA` -/
  | rd5a6 (d : BitVec 5) (A : BitVec 6)
  /-- `kkkk kkkk kkkk` -/
  | k12 (k : BitVec 12)
  /-- `dddd rrrr` -/
  | rd4rr4 (d r : BitVec 4)
  /-- `ddd -rrr` -/
  | rd3rr3 (d r : BitVec 3)

namespace Operands

/-- The form of the operands in the decoder. -/
def form : Operands → OperandForm
  | none => .none
  | rd5rr5 _ _ => .rd5rr5
  | rd5 _ => .rd5
  | rd5k16 _ _ => .rd5
  | rd4K8 _ _ => .rd4K8
  | rd5bit _ _ => .rd5bit
  | bitk7 _ _ => .bitk7
  | rd5q _ _ => .rd5q
  | k22 _ => .k22
  | sregBit _ => .sregBit
  | rd2K6 _ _ => .rd2K6
  | a5bit _ _ => .a5bit
  | rd5a6 _ _ => .rd5a6
  | k12 _ => .k12
  | rd4rr4 _ _ => .rd4rr4
  | rd3rr3 _ _ => .rd3rr3

/-- The bits of the operand that the decoder makes the first argument. -/
def bits1 : Operands → Word
  | none => 0
  | rd5rr5 d _ => 0#7 ++ d ++ 0#4
  | rd5 d => 0#7 ++ d ++ 0#4
  | rd5k16 d _ => 0#7 ++ d ++ 0#4
  | rd4K8 d _ => 0#8 ++ d ++ 0#4
  | rd5bit d _ => 0#7 ++ d ++ 0#4
  | bitk7 s _ => 0#13 ++ s
  | rd5q d _ => 0#7 ++ d ++ 0#4
  | k22 k => 0#7 ++ k.extractLsb' 17 5 ++ 0#3 ++ k.extractLsb' 16 1
  | sregBit s => 0#9 ++ s ++ 0#4
  | rd2K6 d _ => 0#10 ++ d ++ 0#4
  | a5bit A _ => 0#8 ++ A ++ 0#3
  | rd5a6 d _ => 0#7 ++ d ++ 0#4
  | k12 k => 0#4 ++ k
  | rd4rr4 d _ => 0#8 ++ d ++ 0#4
  | rd3rr3 d _ => 0#9 ++ d ++ 0#4

/-- The bits of the operand that the decoder makes the second argument. -/
def bits2 : Operands → Word
  | rd5rr5 _ r => 0#6 ++ r.extractLsb' 4 1 ++ 0#5 ++ r.extractLsb' 0 4
  | rd4K8 _ K => 0#4 ++ K.extractLsb' 4 4 ++ 0#4 ++ K.extractLsb' 0 4
  | rd5bit _ b => 0#13 ++ b
  | bitk7 _ k => 0#6 ++ k ++ 0#3
  | rd5q _ q =>
    0#2 ++ q.extractLsb' 5 1 ++ 0#1 ++ q.extractLsb' 3 2 ++ 0#7 ++ q.extractLsb' 0 3
  | rd2K6 _ K => 0#8 ++ K.extractLsb' 4 2 ++ 0#2 ++ K.extractLsb' 0 4
  | a5bit _ b => 0#13 ++ b
  | rd5a6 _ A => 0#5 ++ A.extractLsb' 4 2 ++ 0#5 ++ A.extractLsb' 0 4
  | rd4rr4 _ r => 0#12 ++ r
  | rd3rr3 _ r => 0#13 ++ r
  | _ => 0

/-- The second word of an instruction. -/
def second : Operands → Option Word
  | rd5k16 _ k => some k
  | k22 k => some (k.extractLsb' 0 16)
  | _ => .none

/-- The first argument of the handler: the number of a register, a bit, an I/O register, the
upper 6 bits of an absolute address, or a signed relative address.  The handler of MOVW
expects a register pair as a number from 16 on. -/
def arg1 : Operands → Int
  | none => -1
  | rd5rr5 d _ => d.toNat
  | rd5 d => d.toNat
  | rd5k16 d _ => d.toNat
  | rd4K8 d _ => 16 + d.toNat
  | rd5bit d _ => d.toNat
  | bitk7 s _ => s.toNat
  | rd5q d _ => d.toNat
  | k22 k => (k.toNat / 2 ^ 16 : Nat)
  | sregBit s => s.toNat
  | rd2K6 d _ => 24 + 2 * d.toNat
  | a5bit A _ => A.toNat
  | rd5a6 d _ => d.toNat
  | k12 k => k.toInt
  | rd4rr4 d _ => 16 + d.toNat
  | rd3rr3 d _ => 16 + d.toNat

/-- The second argument of the handler: the number of a register, a constant, a bit, a
signed relative address, a displacement, or the number of an I/O register. -/
def arg2 : Operands → Int
  | rd5rr5 _ r => r.toNat
  | rd4K8 _ K => K.toNat
  | rd5bit _ b => b.toNat
  | bitk7 _ k => k.toInt
  | rd5q _ q => q.toNat
  | rd2K6 _ K => K.toNat
  | a5bit _ b => b.toNat
  | rd5a6 _ A => A.toNat
  | rd4rr4 _ r => 16 + r.toNat
  | rd3rr3 _ r => 16 + r.toNat
  | _ => -1

end Operands

/-- An instruction: an opcode with operands of its form, and a second word for CALL, JMP, LDS
and STS. -/
structure Instr where
  func : OpcodeName
  operands : Operands
  known : func ≠ .UNKNOWN
  form : operands.form = func.form
  words : operands.second.isSome ↔ func ∈ twoWordOpcodes

namespace Instr

/-- The words of an instruction. -/
def encode (i : Instr) : List Word :=
  (i.func.head ||| i.operands.bits1 ||| i.operands.bits2) :: i.operands.second.toList

/-- What the decoder finds in an instruction: its handler, and the arguments. -/
def info (i : Instr) : OpcodeInfo where
  func := i.func
  arg1 := i.operands.arg1
  arg2 := i.operands.arg2

end Instr

/-! ### The switch statements are apart -/

/-- No word belongs to an opcode of each of two switch statements. -/
def DecodeTable.Apart (t u : DecodeTable) : Bool :=
  let m := (~~~(t.mask ||| u.mask)).toNat
  t.cases.all fun e => u.cases.all fun f => (e.1.toNat &&& m) != (f.1.toNat &&& m)

theorem decodeTables_apart :
  decodeTables.Pairwise fun t u => t.Apart u = true
  := by
  decide +kernel

theorem decodeTables_nodup :
  ∀ t ∈ decodeTables, (t.cases.map fun e => e.1.toNat).Nodup
  := by
  decide +kernel

/-- The cases of the switch statements are the patterns of the opcodes, without bits of the
operands. -/
theorem decodeTables_head :
  ∀ t ∈ decodeTables, ∀ e ∈ t.cases, e.2.head = e.1 ∧ e.1 &&& t.mask = 0
  := by
  decide +kernel

/-- The opcode has a case in one of the switch statements. -/
def OpcodeName.listed (func : OpcodeName) : Bool :=
  decodeTables.any fun t => t.cases.any fun e => e.2 = func

/-- Every opcode but UNKNOWN has a case. -/
theorem listed_of_known
    {func : OpcodeName} (h : func ≠ .UNKNOWN) :
  func.listed = true
  := by
  cases func <;> first | rfl | contradiction

/-- The case of an opcode. -/
theorem exists_case
    {func : OpcodeName} (h : func ≠ .UNKNOWN) :
  ∃ t ∈ decodeTables, t.form = func.form ∧ (func.head, func) ∈ t.cases
  := by
  have hlisted := listed_of_known h
  rw [OpcodeName.listed, List.any_eq_true] at hlisted
  obtain ⟨t, ht, hcase⟩ := hlisted
  rw [List.any_eq_true] at hcase
  obtain ⟨e, he, hfunc⟩ := hcase
  have hfunc : e.2 = func := by simpa using hfunc
  have hform := form_of_mem_cases t ht e he
  obtain ⟨hhead, -⟩ := decodeTables_head t ht e he
  subst hfunc
  use t, ht, hform.symm
  rw [hhead]
  apply he

/-! ### The lookup of a word -/

/-- A word belongs to a case when it has the fixed bits of the case. -/
theorem lookup_of_case
    {t : DecodeTable} (ht : t ∈ decodeTables) {e : Word × OpcodeName} (he : e ∈ t.cases)
    {opcode : Word} (hopcode : opcode &&& ~~~t.mask = e.1) :
  t.lookup opcode = some { func := e.2, arg1 := t.arg1 opcode, arg2 := t.arg2 opcode }
  := by
  have hnodup := decodeTables_nodup t ht
  rw [DecodeTable.lookup, hopcode]
  generalize t.cases = cases at he hnodup
  have hlookup : cases.lookup e.1 = some e.2 := by
    induction cases with
    | nil => cases he
    | cons f cases ih =>
      rw [List.map_cons, List.nodup_cons] at hnodup
      rw [List.lookup_cons]
      rcases List.mem_cons.mp he with rfl | he
      · simp
      · have hne : e.1 ≠ f.1 := by
          intro heq
          apply hnodup.1
          rw [← heq]
          apply List.mem_map_of_mem he
        rw [beq_false_of_ne hne]
        apply ih he hnodup.2
  rw [hlookup]
  rfl

/-- A switch statement apart from that of a word does not find the word. -/
theorem lookup_of_apart
    {t u : DecodeTable} (hapart : u.Apart t = true) {e : Word × OpcodeName} (he : e ∈ t.cases)
    {opcode : Word} (hopcode : opcode &&& ~~~t.mask = e.1) :
  u.lookup opcode = none
  := by
  rw [DecodeTable.lookup, Option.map_eq_none_iff, List.lookup_eq_none_iff]
  intro f hf
  rw [bne_iff_ne]
  intro heq
  simp only [DecodeTable.Apart, List.all_eq_true, bne_iff_ne] at hapart
  apply hapart f hf e he
  rw [← heq, ← hopcode, ← BitVec.toNat_and, ← BitVec.toNat_and]
  congr 1
  ext i hi
  simp only [BitVec.getElem_and, BitVec.getElem_not, BitVec.getElem_or]
  cases opcode[i] <;> cases u.mask[i] <;> cases t.mask[i] <;> rfl

theorem lookupOpcode_of_case
    {t : DecodeTable} (ht : t ∈ decodeTables) {e : Word × OpcodeName} (he : e ∈ t.cases)
    {opcode : Word} (hopcode : opcode &&& ~~~t.mask = e.1) :
  lookupOpcode opcode = { func := e.2, arg1 := t.arg1 opcode, arg2 := t.arg2 opcode }
  := by
  have hlookup := lookup_of_case ht he hopcode
  have hapart := decodeTables_apart
  rw [lookupOpcode]
  generalize decodeTables = tables at ht hapart
  have hfind : tables.findSome? (fun table => table.lookup opcode)
      = some { func := e.2, arg1 := t.arg1 opcode, arg2 := t.arg2 opcode } := by
    induction tables with
    | nil => cases ht
    | cons u tables ih =>
      rw [List.pairwise_cons] at hapart
      rw [List.findSome?_cons]
      rcases List.mem_cons.mp ht with rfl | ht
      · rw [hlookup]
      · rw [lookup_of_apart (hapart.1 t ht) he hopcode]
        apply ih ht hapart.2
  rw [hfind]
  rfl

/-! ### The operands of a word -/

namespace OperandForm

/-- The bits of the first argument. -/
def mask1 : OperandForm → Word
  | none => 0
  | rd5rr5 => maskRd5
  | rd5 => maskRd5
  | rd4K8 => maskRd4
  | rd5bit => maskRd5
  | bitk7 => maskRegBit
  | rd5q => maskRd5
  | k22 => maskk22
  | sregBit => maskSregBit
  | rd2K6 => maskRd2
  | a5bit => maskA5
  | rd5a6 => maskRd5
  | k12 => maskk12
  | rd4rr4 => maskRd4
  | rd3rr3 => maskRd3

/-- The bits of the second argument. -/
def mask2 : OperandForm → Word
  | rd5rr5 => maskRr5
  | rd4K8 => maskK8
  | rd5bit => maskRegBit
  | bitk7 => maskk7
  | rd5q => maskQDispl
  | rd2K6 => maskK6
  | a5bit => maskRegBit
  | rd5a6 => maskA6
  | rd4rr4 => maskRr4
  | rd3rr3 => maskRr3
  | _ => 0

/-- The first argument in a word. -/
def get1 : OperandForm → Word → Int
  | none => fun _ => -1
  | rd5rr5 => getRd5
  | rd5 => getRd5
  | rd4K8 => getRd4
  | rd5bit => getRd5
  | bitk7 => getRegBit
  | rd5q => getRd5
  | k22 => getk22
  | sregBit => getSregBit
  | rd2K6 => getRd2
  | a5bit => getA5
  | rd5a6 => getRd5
  | k12 => fun opcode => nBitUnsignedToSigned (getk12 opcode) 12
  | rd4rr4 => getRd4
  | rd3rr3 => getRd3

/-- The second argument in a word. -/
def get2 : OperandForm → Word → Int
  | rd5rr5 => getRr5
  | rd4K8 => getK8
  | rd5bit => getRegBit
  | bitk7 => fun opcode => nBitUnsignedToSigned (getk7 opcode) 7
  | rd5q => getQ
  | rd2K6 => getK6
  | a5bit => getRegBit
  | rd5a6 => getA6
  | rd4rr4 => getRr4
  | rd3rr3 => getRr3
  | _ => fun _ => -1

theorem mask1_and_mask2
    (f : OperandForm) :
  f.mask1 &&& f.mask2 = 0
  := by
  cases f <;> decide

/-- The first argument depends on its bits only. -/
theorem get1_congr
    {f : OperandForm} {w w' : Word} (h : w &&& f.mask1 = w' &&& f.mask1) :
  f.get1 w = f.get1 w'
  := by
  cases f <;> simp only [mask1] at h <;> simp only [get1, getRd5, getRd4, getRd3, getRd2,
    getRegBit, getSregBit, getA5, getk22, getk12, h]

/-- The second argument depends on its bits only. -/
theorem get2_congr
    {f : OperandForm} {w w' : Word} (h : w &&& f.mask2 = w' &&& f.mask2) :
  f.get2 w = f.get2 w'
  := by
  cases f <;> simp only [mask2] at h <;> simp only [get2, getRr5, getRr4, getRr3, getK8, getK6,
    getRegBit, getk7, getQ, getA6, h]

end OperandForm

theorem decodeTables_args :
  ∀ t ∈ decodeTables, t.mask = t.form.mask1 ||| t.form.mask2 ∧ t.arg1 = t.form.get1 ∧
    t.arg2 = t.form.get2
  := by
  simp only [decodeTables, List.forall_mem_cons]
  refine ⟨?_, ?_, ?_, ?_, ?_, ?_, ?_, ?_, ?_, ?_, ?_, ?_, ?_, ?_, ?_, List.forall_mem_nil _⟩
  all_goals exact ⟨by decide, rfl, rfl⟩

/-- A value of an operand is in its bits. -/
def FieldFits (get : Word → Int) (mask bits : Word) (val : Int) : Prop :=
  bits &&& ~~~mask = 0 ∧ get bits = val

instance (get : Word → Int) (mask bits : Word) (val : Int) :
    Decidable (FieldFits get mask bits val) :=
  inferInstanceAs (Decidable (_ ∧ _))

section

-- for the facts about every value of an operand
set_option maxRecDepth 10000

theorem fits_rd5 :
  ∀ d : BitVec 5, FieldFits getRd5 maskRd5 (0#7 ++ d ++ 0#4) d.toNat
  := by
  decide

theorem fits_rr5 :
  ∀ r : BitVec 5,
    FieldFits getRr5 maskRr5 (0#6 ++ r.extractLsb' 4 1 ++ 0#5 ++ r.extractLsb' 0 4) r.toNat
  := by
  decide

theorem fits_rd4 :
  ∀ d : BitVec 4, FieldFits getRd4 maskRd4 (0#8 ++ d ++ 0#4) (16 + d.toNat)
  := by
  decide

theorem fits_rr4 :
  ∀ r : BitVec 4, FieldFits getRr4 maskRr4 (0#12 ++ r) (16 + r.toNat)
  := by
  decide

theorem fits_rd3 :
  ∀ d : BitVec 3, FieldFits getRd3 maskRd3 (0#9 ++ d ++ 0#4) (16 + d.toNat)
  := by
  decide

theorem fits_rr3 :
  ∀ r : BitVec 3, FieldFits getRr3 maskRr3 (0#13 ++ r) (16 + r.toNat)
  := by
  decide

theorem fits_rd2 :
  ∀ d : BitVec 2, FieldFits getRd2 maskRd2 (0#10 ++ d ++ 0#4) (24 + 2 * d.toNat)
  := by
  decide

theorem fits_K8 :
  ∀ K : BitVec 8,
    FieldFits getK8 maskK8 (0#4 ++ K.extractLsb' 4 4 ++ 0#4 ++ K.extractLsb' 0 4) K.toNat
  := by
  decide

theorem fits_K6 :
  ∀ K : BitVec 6,
    FieldFits getK6 maskK6 (0#8 ++ K.extractLsb' 4 2 ++ 0#2 ++ K.extractLsb' 0 4) K.toNat
  := by
  decide

theorem fits_q :
  ∀ q : BitVec 6, FieldFits getQ maskQDispl
    (0#2 ++ q.extractLsb' 5 1 ++ 0#1 ++ q.extractLsb' 3 2 ++ 0#7 ++ q.extractLsb' 0 3) q.toNat
  := by
  decide

theorem fits_regBit :
  ∀ b : BitVec 3, FieldFits getRegBit maskRegBit (0#13 ++ b) b.toNat
  := by
  decide

theorem fits_sregBit :
  ∀ s : BitVec 3, FieldFits getSregBit maskSregBit (0#9 ++ s ++ 0#4) s.toNat
  := by
  decide

theorem fits_A5 :
  ∀ A : BitVec 5, FieldFits getA5 maskA5 (0#8 ++ A ++ 0#3) A.toNat
  := by
  decide

theorem fits_A6 :
  ∀ A : BitVec 6,
    FieldFits getA6 maskA6 (0#5 ++ A.extractLsb' 4 2 ++ 0#5 ++ A.extractLsb' 0 4) A.toNat
  := by
  decide

theorem fits_k7 :
  ∀ k : BitVec 7,
    FieldFits (fun opcode => nBitUnsignedToSigned (getk7 opcode) 7) maskk7 (0#6 ++ k ++ 0#3) k.toInt
  := by
  decide

/-- The upper 6 bits of an address are split in two. -/
theorem fits_high :
  ∀ (high : BitVec 5) (low : BitVec 1),
    FieldFits getk22 maskk22 (0#7 ++ high ++ 0#3 ++ low) (high ++ low).toNat
  := by
  decide

end

theorem fits_k22
    (k : BitVec 22) :
  FieldFits getk22 maskk22 (0#7 ++ k.extractLsb' 17 5 ++ 0#3 ++ k.extractLsb' 16 1)
    (k.toNat / 2 ^ 16 : Nat)
  := by
  have happend : k.extractLsb' 17 5 ++ k.extractLsb' 16 1 = k.extractLsb' 16 6 := by
    apply BitVec.extractLsb'_append_extractLsb'_eq_extractLsb'
    rfl
  have hfits := fits_high (k.extractLsb' 17 5) (k.extractLsb' 16 1)
  rw [happend] at hfits
  have hlt := k.isLt
  rw [BitVec.extractLsb'_toNat, Nat.shiftRight_eq_div_pow, Nat.mod_eq_of_lt (by omega)] at hfits
  apply hfits

theorem fits_k12
    (k : BitVec 12) :
  FieldFits (fun opcode => nBitUnsignedToSigned (getk12 opcode) 12) maskk12 (0#4 ++ k) k.toInt
  := by
  have hlt := k.isLt
  constructor
  · rw [show ~~~maskk12 = 0xf#4 ++ 0#12 from by decide, BitVec.and_append]
    simp
  · have happend : (0#4 ++ k : BitVec (4 + 12)).toNat = k.toNat := by
      rw [BitVec.toNat_append]
      simp
    have hget : getk12 (0#4 ++ k) = k.toNat := by
      rw [getk12, show maskk12 = 0#4 ++ BitVec.allOnes 12 from by decide, BitVec.and_append,
        BitVec.and_allOnes, BitVec.zero_and]
      rw [← happend]
    simp only [hget]
    rw [nBitUnsignedToSigned_eq (by omega) (by omega) hlt, BitVec.toInt_eq_toNat_cond]
    split <;> split <;> omega

namespace Operands

theorem bits1_fits
    (ops : Operands) :
  FieldFits ops.form.get1 ops.form.mask1 ops.bits1 ops.arg1
  := by
  cases ops with
  | none => exact ⟨rfl, rfl⟩
  | rd5rr5 d _ => apply fits_rd5 d
  | rd5 d => apply fits_rd5 d
  | rd5k16 d _ => apply fits_rd5 d
  | rd4K8 d _ => apply fits_rd4 d
  | rd5bit d _ => apply fits_rd5 d
  | bitk7 s _ => apply fits_regBit s
  | rd5q d _ => apply fits_rd5 d
  | k22 k => apply fits_k22 k
  | sregBit s => apply fits_sregBit s
  | rd2K6 d _ => apply fits_rd2 d
  | a5bit A _ => apply fits_A5 A
  | rd5a6 d _ => apply fits_rd5 d
  | k12 k => apply fits_k12 k
  | rd4rr4 d _ => apply fits_rd4 d
  | rd3rr3 d _ => apply fits_rd3 d

theorem bits2_fits
    (ops : Operands) :
  FieldFits ops.form.get2 ops.form.mask2 ops.bits2 ops.arg2
  := by
  cases ops with
  | rd5rr5 _ r => apply fits_rr5 r
  | rd4K8 _ K => apply fits_K8 K
  | rd5bit _ b => apply fits_regBit b
  | bitk7 _ k => apply fits_k7 k
  | rd5q _ q => apply fits_q q
  | rd2K6 _ K => apply fits_K6 K
  | a5bit _ b => apply fits_regBit b
  | rd5a6 _ A => apply fits_A6 A
  | rd4rr4 _ r => apply fits_rr4 r
  | rd3rr3 _ r => apply fits_rr3 r
  | _ => exact ⟨BitVec.zero_and, rfl⟩

end Operands

/-! ### Decoding an instruction -/

/-- A word of fixed bits and two fields within disjoint masks. -/
theorem or_fields
    {h b₁ b₂ m₁ m₂ : Word} (hh : h &&& (m₁ ||| m₂) = 0) (h₁ : b₁ &&& ~~~m₁ = 0)
    (h₂ : b₂ &&& ~~~m₂ = 0) (hm : m₁ &&& m₂ = 0) :
  (h ||| b₁ ||| b₂) &&& ~~~(m₁ ||| m₂) = h ∧ (h ||| b₁ ||| b₂) &&& m₁ = b₁ &&& m₁ ∧
    (h ||| b₁ ||| b₂) &&& m₂ = b₂ &&& m₂
  := by
  have hbit (x : Word) (hx : x = 0) (i : Nat) (hi : i < 16) : x[i] = false := by
    rw [hx]
    simp
  refine ⟨?_, ?_, ?_⟩
  all_goals
    ext i hi
    have hhi := hbit _ hh i hi
    have h₁i := hbit _ h₁ i hi
    have h₂i := hbit _ h₂ i hi
    have hmi := hbit _ hm i hi
    simp only [BitVec.getElem_and, BitVec.getElem_or, BitVec.getElem_not] at *
    revert hhi h₁i h₂i hmi
    cases h[i] <;> cases b₁[i] <;> cases b₂[i] <;> cases m₁[i] <;> cases m₂[i] <;> simp

/-- The first word of an instruction decodes to its handler and its operands. -/
theorem decode_encode
    (i : Instr) :
  decodeOpcode (i.func.head ||| i.operands.bits1 ||| i.operands.bits2) = i.info
  := by
  obtain ⟨t, ht, hform, hcase⟩ := exists_case i.known
  obtain ⟨-, hhead⟩ := decodeTables_head t ht _ hcase
  obtain ⟨hmask, harg1, harg2⟩ := decodeTables_args t ht
  obtain ⟨hbits1, hget1⟩ := i.operands.bits1_fits
  obtain ⟨hbits2, hget2⟩ := i.operands.bits2_fits
  rw [i.form, ← hform] at hbits1 hget1 hbits2 hget2
  change i.func.head &&& t.mask = 0 at hhead
  rw [hmask] at hhead
  obtain ⟨hfixed, hw1, hw2⟩ := or_fields hhead hbits1 hbits2 t.form.mask1_and_mask2
  rw [← hmask] at hfixed
  rw [decodeOpcode, lookupOpcode_of_case ht hcase hfixed, harg1, harg2]
  rw [OperandForm.get1_congr hw1, OperandForm.get2_congr hw2, hget1, hget2]
  rfl

end SimulAvr
