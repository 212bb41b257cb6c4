import SimulAvr.Decoder.Encoding

/-!
# Programs in flash

A list of instructions laid out in flash from word 0, and the walk over an image by
`decode_opcode`, which goes on by 2 words after CALL, JMP, LDS and STS and by 1 word after any
other instruction.  The walk over a program finds its instructions (`walk_program`).
-/

namespace SimulAvr

/-! ### Images -/

/-- The words of a list are in flash from word `addr` on. -/
def Flash.HoldsAt (flash : Flash) (addr : Nat) (words : List Word) : Prop :=
  ∀ n word, words[n]? = some word → flashRead flash (addr + n : Nat) = .ok word

/-- The words of a program. -/
def encodeProgram (prog : List Instr) : List Word :=
  prog.flatMap Instr.encode

namespace Flash

variable {flash : Flash} {addr : Nat} {words words' : List Word} {word : Word}

/-- The first word of a list in flash. -/
theorem HoldsAt.head
    (h : flash.HoldsAt addr (word :: words)) :
  flashRead flash addr = .ok word
  := by
  apply h 0
  rfl

/-- The words after those of a list in flash. -/
theorem HoldsAt.drop
    (h : flash.HoldsAt addr (words ++ words')) :
  flash.HoldsAt (addr + words.length) words'
  := by
  intro n word hword
  rw [Nat.add_assoc]
  apply h
  rw [List.getElem?_append_right (by omega), Nat.add_sub_cancel_left]
  apply hword

/-- The words after the first one of a list in flash. -/
theorem HoldsAt.tail
    (h : flash.HoldsAt addr (word :: words)) :
  flash.HoldsAt (addr + 1) words
  := by
  intro n word hword
  rw [Nat.add_assoc, Nat.add_comm 1]
  apply h
  apply hword

/-- The words before those of a list in flash. -/
theorem HoldsAt.take
    (h : flash.HoldsAt addr (words ++ words')) :
  flash.HoldsAt addr words
  := by
  intro n word hword
  obtain ⟨hn, -⟩ := List.getElem?_eq_some_iff.mp hword
  apply h
  rw [List.getElem?_append_left hn]
  apply hword

/-- A flash of the words of a list. -/
def ofWords (words : List Word) : Flash where
  base := 0
  size := 2 * words.length
  data i :=
    let word := words.getD (i / 2).toNat 0
    if i % 2 = 0 then word.extractLsb' 8 8 else word.extractLsb' 0 8

theorem ofWords_holds
    (words : List Word) :
  (ofWords words).HoldsAt 0 words
  := by
  intro n word hword
  obtain ⟨hn, -⟩ := List.getElem?_eq_some_iff.mp hword
  rw [Nat.zero_add, flashRead, storageReadw, if_neg]
  · have hdiv : ((n : Int) * 2 - 0) / 2 = n := by omega
    have hdiv' : ((n : Int) * 2 - 0 + 1) / 2 = n := by omega
    have hmod : ((n : Int) * 2 - 0) % 2 = 0 := by omega
    have hmod' : ((n : Int) * 2 - 0 + 1) % 2 ≠ 0 := by omega
    simp only [ofWords, hdiv, hdiv', Int.toNat_natCast, List.getD_eq_getElem?_getD, hword]
    rw [if_pos hmod, if_neg hmod']
    rw [Option.getD_some, extractLsb'_append_self]
  · simp only [ofWords]
    omega

end Flash

/-! ### The walk -/

/-- An instruction that the walk finds: what `decode_opcode` finds in the first word, and the
second word if there is one. -/
structure Fetched where
  info : OpcodeInfo
  second : Option Word

/-- The instructions from word `addr` to word `stop`. -/
def walk (flash : Flash) (stop addr : Nat) : Except AvrError (List Fetched) :=
  if addr < stop then do
    let opcode ← flashRead flash addr
    if isTwoWords opcode then do
      let k ← flashRead flash (addr + 1 : Nat)
      let rest ← walk flash stop (addr + 2)
      return { info := decodeOpcode opcode, second := some k } :: rest
    else do
      let rest ← walk flash stop (addr + 1)
      return { info := decodeOpcode opcode, second := none } :: rest
  else
    return []
  termination_by stop - addr

namespace Instr

/-- The instruction as the walk finds it. -/
def fetched (i : Instr) : Fetched where
  info := i.info
  second := i.operands.second

/-- The first word of an instruction. -/
def first (i : Instr) : Word :=
  i.func.head ||| i.operands.bits1 ||| i.operands.bits2

theorem encode_eq
    (i : Instr) :
  i.encode = i.first :: i.operands.second.toList
  := rfl

/-- An instruction has one word or two. -/
theorem length_encode_pos
    (i : Instr) :
  0 < i.encode.length
  := Nat.succ_pos _

/-- The first word of an instruction tells whether there is a second one. -/
theorem isTwoWords_first
    (i : Instr) :
  isTwoWords i.first = i.operands.second.isSome
  := by
  rw [isTwoWords, first, decode_encode, Bool.eq_iff_iff, i.words, decide_eq_true_iff]
  rfl

end Instr

/-- The walk finds an instruction, and goes on after its words. -/
theorem walk_encode
    {flash : Flash} {addr stop : Nat} {i : Instr} (hstop : addr < stop)
    (h : flash.HoldsAt addr i.encode) :
  walk flash stop addr =
    (walk flash stop (addr + i.encode.length)).map (fun rest => i.fetched :: rest)
  := by
  have hhead : flashRead flash addr = .ok i.first := h.head
  have htwo := i.isTwoWords_first
  have hdecode : decodeOpcode i.first = i.info := decode_encode i
  rw [walk, if_pos hstop, hhead]
  cases hsecond : i.operands.second with
  | none =>
    have hone : isTwoWords i.first = false := by rw [htwo, hsecond]; rfl
    have hlength : i.encode.length = 1 := by rw [i.encode_eq, hsecond]; rfl
    rw [hlength, Program.ok_bind, hone, hdecode, Instr.fetched, hsecond]
    cases walk flash stop (addr + 1) <;> rfl
  | some k =>
    have htwo : isTwoWords i.first = true := by rw [htwo, hsecond]; rfl
    have hlength : i.encode.length = 2 := by rw [i.encode_eq, hsecond]; rfl
    have hk : flashRead flash (addr + 1 : Nat) = .ok k := by
      apply h 1
      rw [i.encode_eq, hsecond]
      rfl
    rw [hlength, Program.ok_bind, htwo, hdecode, hk, Instr.fetched, hsecond]
    cases walk flash stop (addr + 2) <;> rfl

/-- The walk over the rest of an image finds the instructions of the rest of a program. -/
theorem walk_of_holds
    {flash : Flash} {addr : Nat} {prog : List Instr}
    (h : flash.HoldsAt addr (encodeProgram prog)) :
  walk flash (addr + (encodeProgram prog).length) addr = .ok (prog.map Instr.fetched)
  := by
  induction prog generalizing addr with
  | nil =>
    rw [walk, if_neg (by simp [encodeProgram])]
    rfl
  | cons i prog ih =>
    have hwords : encodeProgram (i :: prog) = i.encode ++ encodeProgram prog := rfl
    have hpos := i.length_encode_pos
    rw [hwords] at h ⊢
    rw [List.length_append, walk_encode (by omega) h.take, ← Nat.add_assoc, ih h.drop]
    rfl

/-! ### The words before an instruction of the program -/

section

variable {δ : Type} {c : AvrCore δ}

/-- The word after that at the program counter. -/
theorem run_flashReadNext
    {addr : Nat} {words : List Word} {word : Word} (h : c.flash.HoldsAt addr (word :: words))
    (hpc : c.pc + 1 = addr) :
  flashReadNext.run c = .ok (word, c)
  := by
  rw [flashReadNext, Program.run_bind_of_ok (run_avrCorePCGet c), run_avrCoreFlashRead, hpc,
    h.head]
  rfl

/-- One word before an instruction, the core knows whether the instruction has two words. -/
theorem run_isNextInst2Words
    {addr : Nat} {i : Instr} (h : c.flash.HoldsAt addr i.encode) (hpc : c.pc + 1 = addr) :
  isNextInst2Words.run c = .ok (decide (i.func ∈ twoWordOpcodes), c)
  := by
  rw [i.encode_eq] at h
  have htwo : isTwoWords i.first = decide (i.func ∈ twoWordOpcodes) := by
    rw [i.isTwoWords_first, Bool.eq_iff_iff, i.words, decide_eq_true_eq]
  rw [isNextInst2Words, Program.run_bind_of_ok (run_flashReadNext h hpc), htwo]
  rfl

/-- At an instruction with an absolute address, the core finds the address. -/
theorem run_addressOperand
    {addr : Nat} {i : Instr} {k : BitVec 22} (h : c.flash.HoldsAt addr i.encode)
    (hk : i.operands = .k22 k) (hpc : c.pc = addr) :
  (addressOperand i.info.arg1).run c = .ok (k.toNat, c)
  := by
  have hwords : i.encode = [i.first, k.extractLsb' 0 16] := by
    rw [i.encode_eq, hk, Operands.second, Option.toList_some]
  have hsecond : c.flash.HoldsAt (addr + 1) [k.extractLsb' 0 16] := by
    rw [hwords] at h
    apply h.tail
  have hvalue : i.info.arg1 * 2 ^ 16 + ((k.extractLsb' 0 16).toNat : Int) = k.toNat := by
    have hlow : (k.extractLsb' 0 16).toNat = k.toNat % 2 ^ 16 := by
      rw [BitVec.extractLsb'_toNat, Nat.shiftRight_zero]
    have hhigh : i.info.arg1 = (k.toNat / 2 ^ 16 : Nat) := by
      rw [Instr.info, hk]
      rfl
    rw [hhigh, hlow]
    omega
  rw [addressOperand, Program.run_bind_of_ok (run_flashReadNext hsecond (by omega)), hvalue]
  rfl

end

/-- A program laid out from word 0 is found by the walk over it, with the handlers and the
operands of its instructions; at the word before an instruction the core tells its length, and
at a CALL or JMP it finds the address. -/
theorem walk_program
    {flash : Flash} {prog : List Instr} (h : flash.HoldsAt 0 (encodeProgram prog)) :
  walk flash (encodeProgram prog).length 0 = .ok (prog.map Instr.fetched) ∧
    ∀ (δ : Type) (before : List Instr) (i : Instr) (after : List Instr) (c : AvrCore δ),
      prog = before ++ i :: after → c.flash = flash →
        (c.pc + 1 = (encodeProgram before).length →
          isNextInst2Words.run c = .ok (decide (i.func ∈ twoWordOpcodes), c)) ∧
        (∀ k, i.operands = .k22 k → c.pc = (encodeProgram before).length →
          (addressOperand i.info.arg1).run c = .ok (k.toNat, c))
  := by
  constructor
  · have hwalk := walk_of_holds h
    rw [Nat.zero_add] at hwalk
    apply hwalk
  · rintro δ before i after c rfl rfl
    have hi : c.flash.HoldsAt (encodeProgram before).length i.encode := by
      rw [encodeProgram, List.flatMap_append] at h
      rw [← Nat.zero_add (encodeProgram before).length]
      apply h.drop.take
    constructor
    · intro hpc
      apply run_isNextInst2Words hi hpc
    · intro k hk hpc
      apply run_addressOperand hi hk hpc

/-- `RJMP .-1` and `JMP 0x2abcd` -/
def rjmpJmp : List Instr := [
  { func := .RJMP, operands := .k12 (-1), known := nofun, form := rfl, words := by decide },
  { func := .JMP, operands := .k22 0x2abcd, known := nofun, form := rfl, words := by decide }]

theorem walk_program_rjmpJmp :
  walk (Flash.ofWords [0xcfff, 0x941c, 0xabcd]) 3 0 =
    .ok [⟨⟨.RJMP, -1, -1⟩, none⟩, ⟨⟨.JMP, 2, -1⟩, some 0xabcd⟩]
  := by
  have hwords : encodeProgram rjmpJmp = [0xcfff, 0x941c, 0xabcd] := by
    decide
  have hwalk := (walk_program (Flash.ofWords_holds (encodeProgram rjmpJmp))).1
  rw [hwords] at hwalk
  apply hwalk

end SimulAvr
