import Mathlib.Algebra.Ring.Int.Defs
import Mathlib.Algebra.Ring.Nat
import Mathlib.Logic.Function.Basic
import Mathlib.Tactic.Common

/-!
# Bytes, words, errors and messages

The machine integers of the simulator, the errors that end a run, the messages sent to
the display process, and the bits of the status register.
-/

namespace SimulAvr

/-- A value of type `uint8_t`. -/
abbrev Byte : Type := BitVec 8

/-- A value of type `uint16_t`. -/
abbrev Word : Type := BitVec 16

/-- The registers are numbered by literals. -/
instance registers_neZero : NeZero 32 := ⟨by decide⟩

/-- The ends of a run of the simulator other than a return.  A call of `avr_error`
prints its arguments and exits; the other constructors mark the places at which the C
program accesses memory outside the object it means to access. -/
inductive AvrError where
  /-- `avr_error (fmt, args)` -/
  | message (fmt : String) (args : List Int)
  /-- An index of the array `mem->cell` outside `0 .. xram_end`. -/
  | cellOutOfBounds (addr : Int)
  /-- An index of the array `gpwr->reg` outside `0 .. 31`. -/
  | registerOutOfBounds (reg : Int)
  /-- `found->vector` where `dlist_lookup` has returned `NULL`. -/
  | nullVector
  deriving DecidableEq

/-- The messages that the core sends to the display process. -/
inductive DisplayMsg where
  | clock (clock : Int)
  | pc (val : Int)
  | reg (reg : Int) (val : Byte)
  | ioReg (reg : Int) (val : Byte)
  | flash (addr : Int) (vals : List Word)
  | sram (addr : Int) (vals : List Byte)
  deriving DecidableEq

/-- `StateType` -/
inductive StateType where
  /-- normal running -/
  | running
  /-- stopped, not running -/
  | stopped
  /-- at a break point -/
  | breakPt
  /-- one of the sleep modes -/
  | sleep
  deriving DecidableEq

/-! ### The bits of SREG -/

namespace SREG

abbrev C : Nat := 0
abbrev Z : Nat := 1
abbrev N : Nat := 2
abbrev V : Nat := 3
abbrev S : Nat := 4
abbrev H : Nat := 5
abbrev T : Nat := 6
abbrev I : Nat := 7

end SREG

/-- `IO_REG_ADDR_BEGIN` -/
abbrev ioRegAddrBegin : Int := 0x20

/-- `SREG_IO_REG` -/
abbrev sregIoReg : Int := 0x3f

/-- `SPL_IO_REG` -/
abbrev splIoReg : Int := 0x3d

/-- `SPH_IO_REG` -/
abbrev sphIoReg : Int := 0x3e

/-- `RAMPZ_IO_REG` -/
abbrev rampzIoReg : Int := 0x3b

/-! ### Bits of a byte -/

/-- Set a bit in `src` if `val`, clear it otherwise. -/
def setBitInByte (src : Byte) (bit : Nat) (val : Bool) : Byte :=
  (src &&& ~~~(1#8 <<< bit)) ||| ((if val then 1#8 else 0#8) <<< bit)

/-- `setBitInByte` changes the bit `bit` and no other. -/
theorem getLsbD_setBitInByte
    (src : Byte) {bit : Nat} (hbit : bit < 8) (val : Bool) (i : Nat) :
  (setBitInByte src bit val).getLsbD i = if i = bit then val else src.getLsbD i
  := by
  by_cases hi : i < 8
  · by_cases heq : i = bit
    · subst heq
      cases val <;> simp [setBitInByte, hi]
    · rw [if_neg heq]
      by_cases hlt : i < bit
      · cases val <;> simp [setBitInByte, hi, hlt]
      · have hsub : i - bit ≠ 0 := by omega
        cases val <;> simp [setBitInByte, hi, hlt, hsub]
  · have hne : i ≠ bit := by omega
    rw [if_neg hne, BitVec.getLsbD_of_ge _ _ (by omega), BitVec.getLsbD_of_ge _ _ (by omega)]

/-- Two bytes with the same eight bits are equal. -/
theorem byte_ext
    {x y : Byte} (h : ∀ i < 8, x.getLsbD i = y.getLsbD i) :
  x = y
  := BitVec.eq_of_getLsbD_eq h

/-- Setting a bit to the value it has changes nothing. -/
theorem setBitInByte_self
    (src : Byte) {bit : Nat} (hbit : bit < 8) :
  setBitInByte src bit (src.getLsbD bit) = src
  := by
  apply byte_ext
  intro i _
  rw [getLsbD_setBitInByte _ hbit]
  split
  · next heq => rw [heq]
  · rfl

end SimulAvr
