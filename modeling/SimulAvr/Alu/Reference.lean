import SimulAvr.Lib.Carry
import SimulAvr.Core
import SimulAvr.Decoder.Lookup

/-!
# The integer reference of the arithmetic and logic instructions

What the instruction set says of the instructions that work on the registers only, in
terms of integers: the registers written and the integers whose residues they receive,
the bits of SREG with the arithmetic facts they record, and the number of clocks.  The
bits of SREG that an instruction does not list, and all registers it does not write, are
unchanged.
-/

namespace SimulAvr

open Carry (Fits)

/-- Values for bits of SREG, by the number of the bit. -/
abbrev Flags : Type :=
  List (Nat × Bool)

namespace Flags

/-- The bit `i` of a status register after the flags are written to it. -/
def bit (flags : Flags) (sreg : Byte) (i : Nat) : Bool :=
  (flags.lookup i).getD (sreg.getLsbD i)

/-- The status register after the flags are written to it. -/
def apply (flags : Flags) (sreg : Byte) : Byte :=
  BitVec.ofBoolListLE [flags.bit sreg 0, flags.bit sreg 1, flags.bit sreg 2,
    flags.bit sreg 3, flags.bit sreg 4, flags.bit sreg 5, flags.bit sreg 6,
    flags.bit sreg 7]

end Flags

/-- The effect of an instruction on the registers. -/
structure AluEffect where
  /-- The registers written, with the integers whose residues modulo `2 ^ 8` they
  receive, in the order of the writes. -/
  regs : List (Fin 32 × Int)
  flags : Flags
  clocks : Int

section

variable {δ : Type}

/-- The registers after an effect. -/
def AluEffect.gpwr (effect : AluEffect) (gpwr : Fin 32 → Byte) : Fin 32 → Byte :=
  effect.regs.foldl (fun gpwr write => Function.update gpwr write.1 (.ofInt 8 write.2)) gpwr

/-- The core after an effect that has sent the messages `msgs`, with PC at `pc`: the
registers and flags of the effect are written, and nothing else changes. -/
def AluEffect.applyAt (effect : AluEffect) (pc : Int) (c : AvrCore δ)
    (msgs : List DisplayMsg) : AvrCore δ :=
  { c with
    gpwr := effect.gpwr c.gpwr
    sreg := effect.flags.apply c.sreg
    pc := pc
    instCKS := effect.clocks
    display := c.display ++ msgs }

/-- The core after an effect, with PC counted up by one word modulo `PC_max`. -/
def AluEffect.apply (effect : AluEffect) (c : AvrCore δ) (msgs : List DisplayMsg) :
    AvrCore δ :=
  effect.applyAt ((c.pc + 1) % c.pcMax) c msgs

end

/-! ### The arithmetic of the flags -/

namespace Reference

/-- N, V, S and Z for a result of `w` bits with residue `value`, where `V` is the signed
overflow. -/
def resultFlags (w : Nat) (value : Int) (V : Bool) : Flags :=
  let N : Bool := 2 ^ (w - 1) ≤ value % 2 ^ w
  [(SREG.N, N), (SREG.V, V), (SREG.S, N ^^ V), (SREG.Z, value % 2 ^ w = 0)]

/-- The flags of an operation on `w` bits with integer result `value` on the unsigned
operands and `signed` on the signed operands. -/
def intFlags (w : Nat) (value signed : Int) : Flags :=
  resultFlags w value (¬ Fits w signed)

/-- The flags of a shift to the right with result `value` that shifts out `C`; V is the
exclusive or of N and C after the shift. -/
def shiftRightFlags (value : Int) (C : Bool) : Flags :=
  let N : Bool := 2 ^ 7 ≤ value % 2 ^ 8
  (SREG.C, C) :: resultFlags 8 value (N ^^ C)

/-- An addition with carry in on register `d`. -/
def add (d : Fin 32) (ua ub sa sb c : Int) : AluEffect where
  regs := [(d, ua + ub + c)]
  flags := (SREG.C, decide (2 ^ 8 ≤ ua + ub + c)) ::
    (SREG.H, decide (2 ^ 4 ≤ ua % 2 ^ 4 + ub % 2 ^ 4 + c)) ::
    intFlags 8 (ua + ub + c) (sa + sb + c)
  clocks := 1

/-- The flags of a subtraction with borrow in; the borrow leaves the difference
negative. -/
def subFlags (ua ub sa sb c : Int) : Flags :=
  (SREG.C, decide (ua - ub - c < 0)) ::
    (SREG.H, decide (ua % 2 ^ 4 - ub % 2 ^ 4 - c < 0)) ::
    intFlags 8 (ua - ub - c) (sa - sb - c)

/-- The flags of a subtraction with borrow in that may only clear Z. -/
def sbcFlags (Z : Bool) (ua ub sa sb c : Int) : Flags :=
  (SREG.Z, Z && decide ((ua - ub - c) % 2 ^ 8 = 0)) :: subFlags ua ub sa sb c

/-- A logical operation with result `value`, which cannot overflow. -/
def logic (d : Fin 32) (value : Nat) : AluEffect where
  regs := [(d, value)]
  flags := resultFlags 8 value false
  clocks := 1

/-- A multiplication with product `p`, shifted to the left by `k`. -/
def mul (p : Int) (k : Nat) : AluEffect where
  regs := [(1, (p * 2 ^ k) / 2 ^ 8), (0, p * 2 ^ k)]
  flags := [(SREG.Z, decide ((p * 2 ^ k) % 2 ^ 16 = 0)),
    (SREG.C, decide (p / 2 ^ 15 % 2 = 1))]
  clocks := 2

end Reference

/-! ### The instructions -/

/-- The instructions that work on the registers only. -/
def aluOpcodes : List OpcodeName :=
  [.ADD, .ADC, .SUB, .SUBI, .SBC, .SBCI, .CP, .CPC, .CPI, .AND, .ANDI, .OR, .ORI, .EOR,
   .COM, .NEG, .INC, .DEC, .LSR, .ROR, .ASR, .SWAP, .MOV, .MOVW, .LDI, .ADIW, .SBIW, .MUL,
   .MULS, .MULSU, .FMUL, .FMULS, .FMULSU, .BSET, .BCLR, .BST, .BLD]

section

variable {δ : Type}

open Reference

/-- The effect of an instruction on a core, by its operands. -/
def aluReference (func : OpcodeName) (arg1 arg2 : Int) (c : AvrCore δ) : AluEffect :=
  let d : Fin 32 := .ofNat 32 arg1.toNat
  let r : Fin 32 := .ofNat 32 arg2.toNat
  let u (i : Fin 32) : Int := (c.gpwr i).toNat
  let s (i : Fin 32) : Int := (c.gpwr i).toInt
  let uw : Int := u (d + 1) * 2 ^ 8 + u d
  let sw : Int := s (d + 1) * 2 ^ 8 + u d
  -- the constant operand as an unsigned and a signed byte
  let uK : Int := arg2
  let sK : Int := if arg2 < 2 ^ 7 then arg2 else arg2 - 2 ^ 8
  let C : Int := (c.sreg.getLsbD SREG.C).toNat
  let Z : Bool := c.sreg.getLsbD SREG.Z
  match func with
  | .ADD => add d (u d) (u r) (s d) (s r) 0
  | .ADC => add d (u d) (u r) (s d) (s r) C
  | .SUB =>
    { regs := [(d, u d - u r)], flags := subFlags (u d) (u r) (s d) (s r) 0, clocks := 1 }
  | .SUBI => { regs := [(d, u d - uK)], flags := subFlags (u d) uK (s d) sK 0, clocks := 1 }
  | .SBC =>
    { regs := [(d, u d - u r - C)]
      flags := sbcFlags Z (u d) (u r) (s d) (s r) C
      clocks := 1 }
  | .SBCI =>
    { regs := [(d, u d - uK - C)], flags := sbcFlags Z (u d) uK (s d) sK C, clocks := 1 }
  | .CP => { regs := [], flags := subFlags (u d) (u r) (s d) (s r) 0, clocks := 1 }
  | .CPC => { regs := [], flags := sbcFlags Z (u d) (u r) (s d) (s r) C, clocks := 1 }
  | .CPI => { regs := [], flags := subFlags (u d) uK (s d) sK 0, clocks := 1 }
  | .AND => logic d ((u d).toNat &&& (u r).toNat)
  | .ANDI => logic d ((u d).toNat &&& uK.toNat)
  | .OR => logic d ((u d).toNat ||| (u r).toNat)
  | .ORI => logic d ((u d).toNat ||| uK.toNat)
  | .EOR => logic d ((u d).toNat ^^^ (u r).toNat)
  | .COM =>
    -- the complement is the difference of -1 and the operand, which always borrows
    { regs := [(d, -1 - u d)]
      flags := (SREG.C, decide (-1 - u d < 0)) :: intFlags 8 (-1 - u d) (-1 - s d)
      clocks := 1 }
  | .NEG => { regs := [(d, 0 - u d)], flags := subFlags 0 (u d) 0 (s d) 0, clocks := 1 }
  | .INC => { regs := [(d, u d + 1)], flags := intFlags 8 (u d + 1) (s d + 1), clocks := 1 }
  | .DEC => { regs := [(d, u d - 1)], flags := intFlags 8 (u d - 1) (s d - 1), clocks := 1 }
  | .LSR =>
    { regs := [(d, u d / 2)]
      flags := shiftRightFlags (u d / 2) (u d % 2 = 1)
      clocks := 1 }
  | .ROR =>
    { regs := [(d, u d / 2 + C * 2 ^ 7)]
      flags := shiftRightFlags (u d / 2 + C * 2 ^ 7) (u d % 2 = 1)
      clocks := 1 }
  | .ASR =>
    { regs := [(d, s d / 2)]
      flags := shiftRightFlags (s d / 2) (u d % 2 = 1)
      clocks := 1 }
  | .SWAP => { regs := [(d, u d % 2 ^ 4 * 2 ^ 4 + u d / 2 ^ 4)], flags := [], clocks := 1 }
  | .MOV => { regs := [(d, u r)], flags := [], clocks := 1 }
  | .MOVW =>
    let d : Fin 32 := .ofNat 32 ((arg1 - 16) * 2).toNat
    let r : Fin 32 := .ofNat 32 ((arg2 - 16) * 2).toNat
    { regs := [(d, u r), (d + 1, u (r + 1))], flags := [], clocks := 1 }
  | .LDI => { regs := [(d, uK)], flags := [], clocks := 1 }
  | .ADIW =>
    { regs := [(d, uw + uK), (d + 1, (uw + uK) / 2 ^ 8)]
      flags := (SREG.C, decide (2 ^ 16 ≤ uw + uK)) :: intFlags 16 (uw + uK) (sw + uK)
      clocks := 2 }
  | .SBIW =>
    { regs := [(d, uw - uK), (d + 1, (uw - uK) / 2 ^ 8)]
      flags := (SREG.C, decide (uw - uK < 0)) :: intFlags 16 (uw - uK) (sw - uK)
      clocks := 2 }
  | .MUL => mul (u d * u r) 0
  | .MULS => mul (s d * s r) 0
  | .MULSU => mul (s d * u r) 0
  | .FMUL => mul (u d * u r) 1
  | .FMULS => mul (s d * s r) 1
  | .FMULSU => mul (s d * u r) 1
  | .BSET => { regs := [], flags := [(arg1.toNat, true)], clocks := 1 }
  | .BCLR => { regs := [], flags := [(arg1.toNat, false)], clocks := 1 }
  | .BST => { regs := [], flags := [(SREG.T, (c.gpwr d).getLsbD arg2.toNat)], clocks := 1 }
  | .BLD =>
    let b : Int := u d / 2 ^ arg2.toNat % 2
    let T : Int := (c.sreg.getLsbD SREG.T).toNat
    { regs := [(d, u d + (T - b) * 2 ^ arg2.toNat)], flags := [], clocks := 1 }
  | _ => { regs := [], flags := [], clocks := 0 }

end

end SimulAvr
