import SimulAvr.Basic

/-!
# Decoding

The opcodes and the function `lookupOpcode`, which finds the handler of an instruction
word and its operands.  The nested switch statements of the decoder are the list
`decodeTables`, in the order in which they are tried.  The operands of a word have the
form that its opcode prescribes (`lookupOpcode_admits`).
-/

namespace SimulAvr

/-- `enum _opcode_name` -/
inductive OpcodeName where
  | BREAK | EICALL | EIJMP | ELPM | ESPM | ICALL | IJMP | LPM | NOP | RET | RETI | SLEEP
  | SPM | WDR | ASR | COM | DEC | ELPM_Z | ELPM_Z_incr | INC | LDS | LD_X | LD_X_decr
  | LD_X_incr | LD_Y_decr | LD_Y_incr | LD_Z_decr | LD_Z_incr | LPM_Z | LPM_Z_incr | LSR
  | NEG | POP | PUSH | ROR | STS | ST_X | ST_X_decr | ST_X_incr | ST_Y_decr | ST_Y_incr
  | ST_Z_decr | ST_Z_incr | SWAP | ADC | ADD | AND | CP | CPC | CPSE | EOR | MOV | MUL | OR
  | SBC | SUB | MOVW | MULS | MULSU | FMUL | FMULS | FMULSU | ANDI | CPI | LDI | ORI | SBCI
  | SUBI | BLD | BST | SBRC | SBRS | BRBC | BRBS | LDD_Y | LDD_Z | STD_Y | STD_Z | CALL
  | JMP | BCLR | BSET | ADIW | SBIW | CBI | SBI | SBIC | SBIS | IN | OUT | RCALL | RJMP
  | UNKNOWN
  deriving DecidableEq

/-- What a handler returns: `BREAK_POINT`, or the name of its opcode. -/
inductive OpRet where
  | breakPoint
  | opcode (name : OpcodeName)
  deriving DecidableEq

/-- `struct opcode_info` -/
structure OpcodeInfo where
  func : OpcodeName
  arg1 : Int
  arg2 : Int
  deriving DecidableEq

/-! ### The operands of an instruction word -/

/-- 2 bit register id (R24, R26, R28, R30) -/
def maskRd2 : Word := 0x0030
/-- 3 bit register id (R16 - R23) -/
def maskRd3 : Word := 0x0070
/-- 4 bit register id (R16 - R31) -/
def maskRd4 : Word := 0x00f0
/-- 5 bit register id (R00 - R31) -/
def maskRd5 : Word := 0x01f0
/-- 3 bit register id (R16 - R23) -/
def maskRr3 : Word := 0x0007
/-- 4 bit register id (R16 - R31) -/
def maskRr4 : Word := 0x000f
/-- 5 bit register id (R00 - R31) -/
def maskRr5 : Word := 0x020f
/-- for 8 bit constant -/
def maskK8 : Word := 0x0F0F
/-- for 6 bit constant -/
def maskK6 : Word := 0x00CF
/-- for 7 bit relative address -/
def maskk7 : Word := 0x03F8
/-- for 12 bit relative address -/
def maskk12 : Word := 0x0FFF
/-- for 22 bit absolute address -/
def maskk22 : Word := 0x01F1
/-- register bit select -/
def maskRegBit : Word := 0x0007
/-- status register bit select -/
def maskSregBit : Word := 0x0070
/-- address displacement (q) -/
def maskQDispl : Word := 0x2C07
/-- 5 bit register id (R00 - R31) -/
def maskA5 : Word := 0x00F8
/-- 6 bit IO port id -/
def maskA6 : Word := 0x060F

/-- `get_rd_2` -/
def getRd2 (opcode : Word) : Int :=
  let reg := ((opcode &&& maskRd2) >>> 4) &&& 0x3
  (reg.toNat * 2 + 24 : Nat)

/-- `get_rd_3` -/
def getRd3 (opcode : Word) : Int :=
  let reg := opcode &&& maskRd3
  (((reg >>> 4) &&& 0x7).toNat + 16 : Nat)

/-- `get_rd_4` -/
def getRd4 (opcode : Word) : Int :=
  let reg := opcode &&& maskRd4
  (((reg >>> 4) &&& 0xf).toNat + 16 : Nat)

/-- `get_rd_5` -/
def getRd5 (opcode : Word) : Int :=
  let reg := opcode &&& maskRd5
  ((reg >>> 4) &&& 0x1f).toNat

/-- `get_rr_3` -/
def getRr3 (opcode : Word) : Int :=
  ((opcode &&& maskRr3).toNat + 16 : Nat)

/-- `get_rr_4` -/
def getRr4 (opcode : Word) : Int :=
  ((opcode &&& maskRr4).toNat + 16 : Nat)

/-- `get_rr_5` -/
def getRr5 (opcode : Word) : Int :=
  let reg := opcode &&& maskRr5
  ((reg &&& 0xf).toNat + ((reg >>> 5) &&& 0x10).toNat : Nat)

/-- `get_K_8` -/
def getK8 (opcode : Word) : Int :=
  let K := opcode &&& maskK8
  (((K >>> 4) &&& 0xf0).toNat + (K &&& 0xf).toNat : Nat)

/-- `get_K_6` -/
def getK6 (opcode : Word) : Int :=
  let K := opcode &&& maskK6
  (((K >>> 2) &&& 0x0030).toNat + (K &&& 0xf).toNat : Nat)

/-- `get_k_7` -/
def getk7 (opcode : Word) : Nat :=
  (((opcode &&& maskk7) >>> 3) &&& 0x7f).toNat

/-- `get_k_12` -/
def getk12 (opcode : Word) : Nat :=
  (opcode &&& maskk12).toNat

/-- `get_k_22`: the upper 6 bits of the address, the other 16 bits are in PC + 1. -/
def getk22 (opcode : Word) : Int :=
  let k := opcode &&& maskk22
  (((k >>> 3) &&& 0x003e).toNat + (k &&& 0x1).toNat : Nat)

/-- `get_reg_bit` -/
def getRegBit (opcode : Word) : Int :=
  (opcode &&& maskRegBit).toNat

/-- `get_sreg_bit` -/
def getSregBit (opcode : Word) : Int :=
  ((opcode &&& maskSregBit) >>> 4).toNat

/-- `get_q` -/
def getQ (opcode : Word) : Int :=
  -- 00q0 qq00 0000 0qqq
  let q := opcode &&& maskQDispl
  let qq := (((q >>> 1) &&& 0x1000) + (q &&& 0x0c00)) >>> 7
  ((qq &&& 0x0038).toNat + (q &&& 0x7).toNat : Nat)

/-- `get_A_5` -/
def getA5 (opcode : Word) : Int :=
  ((opcode &&& maskA5) >>> 3).toNat

/-- `get_A_6` -/
def getA6 (opcode : Word) : Int :=
  let A := opcode &&& maskA6
  (((A >>> 5) &&& 0x0030).toNat + (A &&& 0xf).toNat : Nat)

/-- `n_bit_unsigned_to_signed` -/
def nBitUnsignedToSigned (val : Nat) (n : Nat) : Int :=
  let val := BitVec.ofNat 32 val
  if val &&& (1#32 <<< (n - 1)) = 0 then
    val.toInt
  else
    -- manually calculate two's complement
    let mask := (1#32 <<< n) - 1
    (-1 * ((~~~val &&& mask) + 1)).toInt

/-! ### The tables of the decoder -/

/-- The forms of the operands of an opcode. -/
inductive OperandForm where
  | none | rd5rr5 | rd5 | rd4K8 | rd5bit | bitk7 | rd5q | k22 | sregBit | rd2K6 | a5bit
  | rd5a6 | k12 | rd4rr4 | rd3rr3
  deriving DecidableEq

/-- A switch statement of the decoder over `opcode & ~mask`. -/
structure DecodeTable where
  form : OperandForm
  mask : Word
  arg1 : Word → Int
  arg2 : Word → Int
  cases : List (Word × OpcodeName)

/-- The result of one switch statement. -/
def DecodeTable.lookup (table : DecodeTable) (opcode : Word) : Option OpcodeInfo :=
  (table.cases.lookup (opcode &&& ~~~table.mask)).map fun func =>
    { func := func, arg1 := table.arg1 opcode, arg2 := table.arg2 opcode }

/-- The switch statements of `lookup_opcode`. -/
def decodeTables : List DecodeTable := [
  -- opcodes with no operands
  { form := .none
    mask := 0
    arg1 := fun _ => -1
    arg2 := fun _ => -1
    cases :=
      [(0x9598, .BREAK), (0x9519, .EICALL), (0x9419, .EIJMP), (0x95D8, .ELPM),
       (0x95F8, .ESPM), (0x9509, .ICALL), (0x9409, .IJMP), (0x95C8, .LPM), (0x0000, .NOP),
       (0x9508, .RET), (0x9518, .RETI), (0x9588, .SLEEP), (0x95E8, .SPM), (0x95A8, .WDR)] },
  -- opcodes with two 5-bit register (Rd and Rr) operands
  { form := .rd5rr5
    mask := maskRd5 ||| maskRr5
    arg1 := getRd5
    arg2 := getRr5
    cases :=
      [(0x1C00, .ADC), (0x0C00, .ADD), (0x2000, .AND), (0x1400, .CP), (0x0400, .CPC),
       (0x1000, .CPSE), (0x2400, .EOR), (0x2C00, .MOV), (0x9C00, .MUL), (0x2800, .OR),
       (0x0800, .SBC), (0x1800, .SUB)] },
  -- opcode with a single register (Rd) as operand
  { form := .rd5
    mask := maskRd5
    arg1 := getRd5
    arg2 := fun _ => -1
    cases :=
      [(0x9405, .ASR), (0x9400, .COM), (0x940A, .DEC), (0x9006, .ELPM_Z),
       (0x9007, .ELPM_Z_incr), (0x9403, .INC), (0x9000, .LDS), (0x900C, .LD_X),
       (0x900E, .LD_X_decr), (0x900D, .LD_X_incr), (0x900A, .LD_Y_decr),
       (0x9009, .LD_Y_incr), (0x9002, .LD_Z_decr), (0x9001, .LD_Z_incr), (0x9004, .LPM_Z),
       (0x9005, .LPM_Z_incr), (0x9406, .LSR), (0x9401, .NEG), (0x900F, .POP),
       (0x920F, .PUSH), (0x9407, .ROR), (0x9200, .STS), (0x920C, .ST_X),
       (0x920E, .ST_X_decr), (0x920D, .ST_X_incr), (0x920A, .ST_Y_decr),
       (0x9209, .ST_Y_incr), (0x9202, .ST_Z_decr), (0x9201, .ST_Z_incr), (0x9402, .SWAP)] },
  -- opcodes with a register (Rd) and a constant data (K) as operands
  { form := .rd4K8
    mask := maskRd4 ||| maskK8
    arg1 := getRd4
    arg2 := getK8
    cases :=
      [(0x7000, .ANDI), (0x3000, .CPI), (0xE000, .LDI), (0x6000, .ORI), (0x4000, .SBCI),
       (0x5000, .SUBI)] },
  -- opcodes with a register (Rd) and a register bit number (b) as operands
  { form := .rd5bit
    mask := maskRd5 ||| maskRegBit
    arg1 := getRd5
    arg2 := getRegBit
    cases :=
      [(0xF800, .BLD), (0xFA00, .BST), (0xFC00, .SBRC), (0xFE00, .SBRS)] },
  -- opcodes with a relative 7-bit address (k) and a register bit number (b) as operands
  { form := .bitk7
    mask := maskk7 ||| maskRegBit
    arg1 := getRegBit
    arg2 := fun opcode => nBitUnsignedToSigned (getk7 opcode) 7
    cases :=
      [(0xF400, .BRBC), (0xF000, .BRBS)] },
  -- opcodes with a 6-bit address displacement (q) and a register (Rd) as operands
  { form := .rd5q
    mask := maskRd5 ||| maskQDispl
    arg1 := getRd5
    arg2 := getQ
    cases :=
      [(0x8008, .LDD_Y), (0x8000, .LDD_Z), (0x8208, .STD_Y), (0x8200, .STD_Z)] },
  -- opcodes with a absolute 22-bit address (k) operand
  { form := .k22
    mask := maskk22
    arg1 := getk22
    arg2 := fun _ => -1
    cases :=
      [(0x940E, .CALL), (0x940C, .JMP)] },
  -- opcode with a sreg bit select (s) operand
  { form := .sregBit
    mask := maskSregBit
    arg1 := getSregBit
    arg2 := fun _ => -1
    cases :=
      [(0x9488, .BCLR), (0x9408, .BSET)] },
  -- opcodes with a 6-bit constant (K) and a register (Rd) as operands
  { form := .rd2K6
    mask := maskK6 ||| maskRd2
    arg1 := getRd2
    arg2 := getK6
    cases :=
      [(0x9600, .ADIW), (0x9700, .SBIW)] },
  -- opcodes with a 5-bit IO Addr (A) and register bit number (b) as operands
  { form := .a5bit
    mask := maskA5 ||| maskRegBit
    arg1 := getA5
    arg2 := getRegBit
    cases :=
      [(0x9800, .CBI), (0x9A00, .SBI), (0x9900, .SBIC), (0x9B00, .SBIS)] },
  -- opcodes with a 6-bit IO Addr (A) and register (Rd) as operands
  { form := .rd5a6
    mask := maskA6 ||| maskRd5
    arg1 := getRd5
    arg2 := getA6
    cases :=
      [(0xB000, .IN), (0xB800, .OUT)] },
  -- opcodes with a relative 12-bit address (k) operand
  { form := .k12
    mask := maskk12
    arg1 := fun opcode => nBitUnsignedToSigned (getk12 opcode) 12
    arg2 := fun _ => -1
    cases :=
      [(0xD000, .RCALL), (0xC000, .RJMP)] },
  -- opcodes with two 4-bit register (Rd and Rr) operands
  { form := .rd4rr4
    mask := maskRd4 ||| maskRr4
    arg1 := getRd4
    arg2 := getRr4
    cases :=
      [(0x0100, .MOVW), (0x0200, .MULS)] },
  -- opcodes with two 3-bit register (Rd and Rr) operands
  { form := .rd3rr3
    mask := maskRd3 ||| maskRr3
    arg1 := getRd3
    arg2 := getRr3
    cases :=
      [(0x0300, .MULSU), (0x0308, .FMUL), (0x0380, .FMULS), (0x0388, .FMULSU)] }]

/-- `lookup_opcode` -/
def lookupOpcode (opcode : Word) : OpcodeInfo :=
  (decodeTables.findSome? fun table => table.lookup opcode).getD
    { func := .UNKNOWN, arg1 := -1, arg2 := -1 }

/-- `decode_opcode` -/
def decodeOpcode (opcode : Word) : OpcodeInfo :=
  lookupOpcode opcode

end SimulAvr
