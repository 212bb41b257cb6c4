import SimulAvr.Decoder.Programs
import SimulAvr.MultiPrecision

/-!
# Word-immediate instructions

SBIW subtracts a constant from a register pair as SUBI and SBCI do byte by byte, and ADIW adds
one as ADD and ADC do, from registers with the constant and zero: the two sequences leave the
same registers and the same bits of SREG, apart from the half carry and, for the addition, the
test for zero (`word_immediate_eq_bytes`).
-/

namespace SimulAvr

open Carry (Fits)

/-! ### The instructions -/

/-- The low register of a pair: R24, R26, R28 or R30. -/
def pairLow (d : BitVec 2) : BitVec 5 :=
  0b11#2 ++ d ++ 0#1

/-- The high register of a pair. -/
def pairHigh (d : BitVec 2) : BitVec 5 :=
  0b11#2 ++ d ++ 1#1

namespace Instr

/-- `ADIW Rd, K` -/
def adiw (d : BitVec 2) (K : BitVec 6) : Instr where
  func := .ADIW
  operands := .rd2K6 d K
  known := nofun
  form := rfl
  words := ⟨nofun, fun h => absurd h (by decide)⟩

/-- `SBIW Rd, K` -/
def sbiw (d : BitVec 2) (K : BitVec 6) : Instr where
  func := .SBIW
  operands := .rd2K6 d K
  known := nofun
  form := rfl
  words := ⟨nofun, fun h => absurd h (by decide)⟩

/-- `SUBI Rd, K`, for an upper register by the low bits of its number -/
def subi (d : BitVec 4) (K : BitVec 8) : Instr where
  func := .SUBI
  operands := .rd4K8 d K
  known := nofun
  form := rfl
  words := ⟨nofun, fun h => absurd h (by decide)⟩

/-- `SBCI Rd, K`, for an upper register by the low bits of its number -/
def sbci (d : BitVec 4) (K : BitVec 8) : Instr where
  func := .SBCI
  operands := .rd4K8 d K
  known := nofun
  form := rfl
  words := ⟨nofun, fun h => absurd h (by decide)⟩

/-- `ADD Rd, Rr` -/
def add (d r : BitVec 5) : Instr where
  func := .ADD
  operands := .rd5rr5 d r
  known := nofun
  form := rfl
  words := ⟨nofun, fun h => absurd h (by decide)⟩

/-- `ADC Rd, Rr` -/
def adc (d r : BitVec 5) : Instr where
  func := .ADC
  operands := .rd5rr5 d r
  known := nofun
  form := rfl
  words := ⟨nofun, fun h => absurd h (by decide)⟩

end Instr

/-- A register, by the five bits of its number -/
def AvrCore.register {δ : Type} (c : AvrCore δ) (r : BitVec 5) : Byte :=
  c.gpwr r.toFin

section

variable {δ : Type} [IoDevices δ]

/-- Execute instructions one after the other. -/
def execAll : List Instr → CoreM δ Unit
  | [] => return ()
  | i :: is => do
    let _ ← execOpcode i.first
    execAll is

/-- The instructions `p` and the instructions `q` complete in the core `c` with the same working
registers, and the same values of `bits` in SREG. -/
def SameEffect (bits : List Nat) (p q : List Instr) (c : AvrCore δ) : Prop :=
  ∃ c₁ c₂, (execAll p).run c = .ok ((), c₁) ∧ (execAll q).run c = .ok ((), c₂) ∧
    c₁.gpwr = c₂.gpwr ∧ ∀ bit ∈ bits, c₁.sreg.getLsbD bit = c₂.sreg.getLsbD bit

omit [IoDevices δ] in
/-- The registers and SREG of `c'` are those that the reference gives the instruction in `c`. -/
structure Instr.Effects (i : Instr) (c c' : AvrCore δ) : Prop where
  gpwr : c'.gpwr = (aluReference i.func i.operands.arg1 i.operands.arg2 c).gpwr c.gpwr
  sreg : c'.sreg = (aluReference i.func i.operands.arg1 i.operands.arg2 c).flags.apply c.sreg

/-- An instruction that works on the registers only completes, and the rest goes on. -/
theorem execAll_cons
    (c : AvrCore δ) (i : Instr) (hfunc : i.func ∈ aluOpcodes) :
  ∃ c', i.Effects c c' ∧ ∀ is, (execAll (i :: is)).run c = (execAll is).run c'
  := by
  have hdecode : decodeOpcode i.first = i.info := decode_encode i
  have hargs := lookupOpcode_admits i.first
  rw [show lookupOpcode i.first = i.info from hdecode] at hargs
  obtain ⟨msgs, hrun⟩ := handler_alu c hfunc hargs i.first
  refine ⟨(aluReference i.func i.operands.arg1 i.operands.arg2 c).applyAt
    (AvrCore.adjustPCToMax c.pcMax (c.pc + 1)) c msgs, ⟨rfl, rfl⟩, ?_⟩
  intro is
  rw [execAll]
  apply Program.run_bind_of_ok
  rw [execOpcode, hdecode]
  apply hrun

/-- The effects of one instruction and those of two, of which each works on the registers
only. -/
theorem sameEffect_of_effects
    {bits : List Nat} {i j k : Instr} {c : AvrCore δ} (hi : i.func ∈ aluOpcodes)
    (hj : j.func ∈ aluOpcodes) (hk : k.func ∈ aluOpcodes)
    (h : ∀ c₁ c' c₂, i.Effects c c₁ → j.Effects c c' → k.Effects c' c₂ →
      c₁.gpwr = c₂.gpwr ∧ ∀ bit ∈ bits, c₁.sreg.getLsbD bit = c₂.sreg.getLsbD bit) :
  SameEffect bits [i] [j, k] c
  := by
  obtain ⟨c₁, heffects₁, hrun₁⟩ := execAll_cons c i hi
  obtain ⟨c', heffects', hrun'⟩ := execAll_cons c j hj
  obtain ⟨c₂, heffects₂, hrun₂⟩ := execAll_cons c' k hk
  refine ⟨c₁, c₂, ?_, ?_, h c₁ c' c₂ heffects₁ heffects' heffects₂⟩
  · rw [hrun₁]
    rfl
  · rw [hrun', hrun₂]
    rfl

end

/-! ### The numbers of the registers -/

section

variable (d : BitVec 2)

theorem pair_registers :
  (.ofNat 32 (24 + 2 * d.toNat : Int).toNat : Fin 32) = (pairLow d).toFin ∧
    (pairLow d).toFin + 1 = (pairHigh d).toFin ∧
    (16 + ((pairLow d).setWidth 4).toNat : Int) = 24 + 2 * d.toNat ∧
    (.ofNat 32 (16 + ((pairHigh d).setWidth 4).toNat : Int).toNat : Fin 32) = (pairHigh d).toFin
  := by
  revert d
  decide

theorem pair_ne :
  (pairLow d).toFin ≠ (pairHigh d).toFin
  := by
  revert d
  decide

end

theorem ofNat_toNat_toFin
    (r : BitVec 5) :
  (.ofNat 32 (r.toNat : Int).toNat : Fin 32) = r.toFin
  := by
  apply Fin.ext
  rw [Int.toNat_natCast, Fin.val_ofNat, Nat.mod_eq_of_lt r.isLt]
  rfl

section Effects

variable {δ : Type} {c c' : AvrCore δ} {d : BitVec 2}

theorem Instr.Effects.sbiw
    {K : BitVec 6} (h : (Instr.sbiw d K).Effects c c') :
  let u : Int := (c.register (pairHigh d)).toNat * 2 ^ 8 + (c.register (pairLow d)).toNat
  let s : Int := (c.register (pairHigh d)).toInt * 2 ^ 8 + (c.register (pairLow d)).toNat
  c'.gpwr = Function.update (Function.update c.gpwr (pairLow d).toFin (.ofInt 8 (u - K.toNat)))
      (pairHigh d).toFin (.ofInt 8 ((u - K.toNat) / 2 ^ 8)) ∧
    c'.sreg = Flags.apply ((SREG.C, decide (u - K.toNat < 0)) ::
      Reference.intFlags 16 (u - K.toNat) (s - K.toNat)) c.sreg
  := by
  obtain ⟨hgpwr, hsreg⟩ := h
  obtain ⟨hlow, hhigh, -, -⟩ := pair_registers d
  simp only [Instr.sbiw, Operands.arg1, Operands.arg2, aluReference, hlow, hhigh] at hgpwr hsreg
  exact ⟨hgpwr, hsreg⟩

theorem Instr.Effects.adiw
    {K : BitVec 6} (h : (Instr.adiw d K).Effects c c') :
  let u : Int := (c.register (pairHigh d)).toNat * 2 ^ 8 + (c.register (pairLow d)).toNat
  let s : Int := (c.register (pairHigh d)).toInt * 2 ^ 8 + (c.register (pairLow d)).toNat
  c'.gpwr = Function.update (Function.update c.gpwr (pairLow d).toFin (.ofInt 8 (u + K.toNat)))
      (pairHigh d).toFin (.ofInt 8 ((u + K.toNat) / 2 ^ 8)) ∧
    c'.sreg = Flags.apply ((SREG.C, decide (2 ^ 16 ≤ u + K.toNat)) ::
      Reference.intFlags 16 (u + K.toNat) (s + K.toNat)) c.sreg
  := by
  obtain ⟨hgpwr, hsreg⟩ := h
  obtain ⟨hlow, hhigh, -, -⟩ := pair_registers d
  simp only [Instr.adiw, Operands.arg1, Operands.arg2, aluReference, hlow, hhigh] at hgpwr hsreg
  exact ⟨hgpwr, hsreg⟩

theorem Instr.Effects.subi
    {K : BitVec 8} (hK : K.toNat < 64)
    (h : (Instr.subi ((pairLow d).setWidth 4) K).Effects c c') :
  let u : Int := (c.register (pairLow d)).toNat
  c'.gpwr = Function.update c.gpwr (pairLow d).toFin (.ofInt 8 (u - K.toNat)) ∧
    c'.sreg = (Reference.subFlags u K.toNat (c.register (pairLow d)).toInt K.toNat 0).apply c.sreg
  := by
  obtain ⟨hgpwr, hsreg⟩ := h
  obtain ⟨hlow, -, hlow', -⟩ := pair_registers d
  have hsmall : (K.toNat : Int) < 2 ^ 7 := by omega
  change c'.gpwr = (aluReference .SUBI _ K.toNat c).gpwr c.gpwr at hgpwr
  change c'.sreg = (aluReference .SUBI _ K.toNat c).flags.apply c.sreg at hsreg
  simp only [Instr.subi, Operands.arg1, aluReference, hlow', hlow, if_pos hsmall] at hgpwr hsreg
  exact ⟨hgpwr, hsreg⟩

theorem Instr.Effects.sbci
    (h : (Instr.sbci ((pairHigh d).setWidth 4) 0).Effects c c') :
  let u : Int := (c.register (pairHigh d)).toNat
  let C : Int := (c.sreg.getLsbD SREG.C).toNat
  c'.gpwr = Function.update c.gpwr (pairHigh d).toFin (.ofInt 8 (u - 0 - C)) ∧
    c'.sreg = (Reference.sbcFlags (c.sreg.getLsbD SREG.Z) u 0 (c.register (pairHigh d)).toInt 0
      C).apply c.sreg
  := by
  obtain ⟨hgpwr, hsreg⟩ := h
  obtain ⟨-, -, -, hhigh⟩ := pair_registers d
  simp only [Instr.sbci, Operands.arg1, Operands.arg2, aluReference, hhigh] at hgpwr hsreg
  exact ⟨hgpwr, hsreg⟩

theorem Instr.Effects.add
    {r s : BitVec 5} (h : (Instr.add r s).Effects c c') :
  let effect := Reference.add r.toFin (c.register r).toNat (c.register s).toNat
    (c.register r).toInt (c.register s).toInt 0
  c'.gpwr = effect.gpwr c.gpwr ∧ c'.sreg = effect.flags.apply c.sreg
  := by
  obtain ⟨hgpwr, hsreg⟩ := h
  simp only [Instr.add, Operands.arg1, Operands.arg2, aluReference, ofNat_toNat_toFin]
    at hgpwr hsreg
  exact ⟨hgpwr, hsreg⟩

theorem Instr.Effects.adc
    {r s : BitVec 5} (h : (Instr.adc r s).Effects c c') :
  let effect := Reference.add r.toFin (c.register r).toNat (c.register s).toNat
    (c.register r).toInt (c.register s).toInt (c.sreg.getLsbD SREG.C).toNat
  c'.gpwr = effect.gpwr c.gpwr ∧ c'.sreg = effect.flags.apply c.sreg
  := by
  obtain ⟨hgpwr, hsreg⟩ := h
  simp only [Instr.adc, Operands.arg1, Operands.arg2, aluReference, ofNat_toNat_toFin]
    at hgpwr hsreg
  exact ⟨hgpwr, hsreg⟩

end Effects

/-! ### The arithmetic of a pair -/

section

variable (hi lo : Byte) {K : Int} (hK : 0 ≤ K ∧ K < 64)

/-- Bytes of the same residue. -/
theorem ofInt_byte_congr
    {v w : Int} (h : v % 2 ^ 8 = w % 2 ^ 8) :
  BitVec.ofInt 8 v = .ofInt 8 w
  := by
  apply BitVec.eq_of_toInt_eq
  rw [BitVec.toInt_ofInt, BitVec.toInt_ofInt, Int.bmod_def, Int.bmod_def]
  simp only [show ((2 ^ 8 : Nat) : Int) = 2 ^ 8 by norm_num, h]

include hK

/-- The bytes of a difference of a pair and a constant, and its flags, by the borrow of the low
byte. -/
theorem sub_pair :
  let b : Int := (decide ((lo.toNat : Int) - K - 0 < 0)).toNat
  let u : Int := hi.toNat * 2 ^ 8 + lo.toNat - K
  u / 2 ^ 8 = hi.toNat - 0 - b ∧ u % 2 ^ 8 = (lo.toNat - K - 0) % 2 ^ 8 ∧
    (u < 0 ↔ (hi.toNat : Int) - 0 - b < 0) ∧
    (2 ^ 15 ≤ u % 2 ^ 16 ↔ 2 ^ 7 ≤ ((hi.toNat : Int) - 0 - b) % 2 ^ 8) ∧
    (Fits 16 (hi.toInt * 2 ^ 8 + lo.toNat - K) ↔ Fits 8 (hi.toInt - 0 - b)) ∧
    (u % 2 ^ 16 = 0 ↔ (lo.toNat - K - 0) % 2 ^ 8 = 0 ∧ ((hi.toNat : Int) - 0 - b) % 2 ^ 8 = 0)
  := by
  have hlo := lo.isLt
  have hhi := hi.isLt
  have hint := BitVec.toInt_eq_toNat_cond hi
  simp only [Fits]
  rcases Decidable.em ((lo.toNat : Int) - K - 0 < 0) with hborrow | hborrow
  · rw [decide_eq_true hborrow, Bool.toNat_true]
    split at hint <;> omega
  · rw [decide_eq_false hborrow, Bool.toNat_false]
    split at hint <;> omega

/-- The bytes of a sum of a pair and a constant, and its flags, by the carry of the low byte. -/
theorem add_pair :
  let b : Int := (decide (2 ^ 8 ≤ (lo.toNat : Int) + K + 0)).toNat
  let u : Int := hi.toNat * 2 ^ 8 + lo.toNat + K
  u / 2 ^ 8 = hi.toNat + 0 + b ∧ u % 2 ^ 8 = (lo.toNat + K + 0) % 2 ^ 8 ∧
    (2 ^ 16 ≤ u ↔ 2 ^ 8 ≤ (hi.toNat : Int) + 0 + b) ∧
    (2 ^ 15 ≤ u % 2 ^ 16 ↔ 2 ^ 7 ≤ ((hi.toNat : Int) + 0 + b) % 2 ^ 8) ∧
    (Fits 16 (hi.toInt * 2 ^ 8 + lo.toNat + K) ↔ Fits 8 (hi.toInt + 0 + b))
  := by
  have hlo := lo.isLt
  have hhi := hi.isLt
  have hint := BitVec.toInt_eq_toNat_cond hi
  simp only [Fits]
  rcases Decidable.em (2 ^ 8 ≤ (lo.toNat : Int) + K + 0) with hcarry | hcarry
  · rw [decide_eq_true hcarry, Bool.toNat_true]
    split at hint <;> omega
  · rw [decide_eq_false hcarry, Bool.toNat_false]
    split at hint <;> omega

end

/-! ### The two sequences -/

/-- A bit of the status register that is no flag of the reference. -/
theorem getLsbD_of_no_flag
    {flags : Flags} {sreg sreg' : Byte} (h : sreg' = flags.apply sreg) {i : Nat} (hi : i < 8)
    (hv : flags.lookup i = none) :
  sreg'.getLsbD i = sreg.getLsbD i
  := by
  rw [h, Flags.getLsbD_apply _ _ hi, Flags.bit, hv, Option.getD_none]

section

variable {δ : Type} [IoDevices δ]

theorem sbiw_sameEffect
    (c : AvrCore δ) (d : BitVec 2) (K : BitVec 6) :
  SameEffect [SREG.C, SREG.Z, SREG.N, SREG.V, SREG.S, SREG.T, SREG.I] [.sbiw d K]
    [.subi ((pairLow d).setWidth 4) (K.setWidth 8), .sbci ((pairHigh d).setWidth 4) 0] c
  := by
  have halu : ∀ func ∈ [OpcodeName.SBIW, .SUBI, .SBCI], func ∈ aluOpcodes := by decide
  apply sameEffect_of_effects (halu .SBIW (by decide)) (halu .SUBI (by decide))
    (halu .SBCI (by decide))
  intro c₁ c' c₂ h₁ h' h₂
  have hK : (K.setWidth 8).toNat = K.toNat := by
    rw [BitVec.toNat_setWidth, Nat.mod_eq_of_lt]
    have := K.isLt
    omega
  obtain ⟨hgpwr₁, hsreg₁⟩ := h₁.sbiw
  obtain ⟨hgpwr', hsreg'⟩ := h'.subi (by have := K.isLt; omega)
  obtain ⟨hgpwr₂, hsreg₂⟩ := h₂.sbci
  rw [hK] at hgpwr' hsreg'
  have hhigh : c'.register (pairHigh d) = c.register (pairHigh d) := by
    rw [AvrCore.register, hgpwr', Function.update_of_ne (pair_ne d).symm]
    rfl
  have hC : c'.sreg.getLsbD SREG.C
      = decide (((c.register (pairLow d)).toNat : Int) - K.toNat - 0 < 0) :=
    getLsbD_of_flags hsreg' (by decide) rfl
  have hZ : c'.sreg.getLsbD SREG.Z
      = decide ((((c.register (pairLow d)).toNat : Int) - K.toNat - 0) % 2 ^ 8 = 0) :=
    getLsbD_of_flags hsreg' (by decide) rfl
  rw [hhigh, hC] at hgpwr₂
  rw [hhigh, hC, hZ] at hsreg₂
  obtain ⟨hdiv, hmod, hcarry, hneg, hfits, hzero⟩ := sub_pair (c.register (pairHigh d))
    (c.register (pairLow d)) (K := K.toNat) (by have := K.isLt; omega)
  constructor
  · rw [hgpwr₁, hgpwr₂, hgpwr', hdiv, ofInt_byte_congr (hmod.trans (by rw [Int.sub_zero]))]
  · intro bit hbit
    simp only [List.mem_cons, List.not_mem_nil, or_false] at hbit
    rcases hbit with rfl | rfl | rfl | rfl | rfl | rfl | rfl
    · rw [getLsbD_of_flags hsreg₁ (by decide) rfl, getLsbD_of_flags hsreg₂ (by decide) rfl]
      apply decide_eq_decide.mpr hcarry
    · rw [getLsbD_of_flags hsreg₁ (by decide) rfl, getLsbD_of_flags hsreg₂ (by decide) rfl]
      rw [← Bool.decide_and]
      apply decide_eq_decide.mpr hzero
    · rw [getLsbD_of_flags hsreg₁ (by decide) rfl, getLsbD_of_flags hsreg₂ (by decide) rfl]
      apply decide_eq_decide.mpr hneg
    · rw [getLsbD_of_flags hsreg₁ (by decide) rfl, getLsbD_of_flags hsreg₂ (by decide) rfl]
      apply decide_eq_decide.mpr (not_congr hfits)
    · rw [getLsbD_of_flags hsreg₁ (by decide) rfl, getLsbD_of_flags hsreg₂ (by decide) rfl]
      apply congrArg₂ xor (decide_eq_decide.mpr hneg) (decide_eq_decide.mpr (not_congr hfits))
    · rw [getLsbD_of_no_flag hsreg₁ (by decide) rfl, getLsbD_of_no_flag hsreg₂ (by decide) rfl,
        getLsbD_of_no_flag hsreg' (by decide) rfl]
    · rw [getLsbD_of_no_flag hsreg₁ (by decide) rfl, getLsbD_of_no_flag hsreg₂ (by decide) rfl,
        getLsbD_of_no_flag hsreg' (by decide) rfl]

/-- The addition of a constant to a pair, from registers `a` with the constant and `b` with
zero, of which `b` is not the one that the first addition changes. -/
theorem adiw_sameEffect
    (c : AvrCore δ) (d : BitVec 2) {K : BitVec 6} {a b : BitVec 5}
    (ha : c.register a = K.setWidth 8) (hb : c.register b = 0) (hne : b ≠ pairLow d) :
  SameEffect [SREG.C, SREG.N, SREG.V, SREG.S, SREG.T, SREG.I] [.adiw d K]
    [.add (pairLow d) a, .adc (pairHigh d) b] c
  := by
  have halu : ∀ func ∈ [OpcodeName.ADIW, .ADD, .ADC], func ∈ aluOpcodes := by decide
  apply sameEffect_of_effects (halu .ADIW (by decide)) (halu .ADD (by decide))
    (halu .ADC (by decide))
  intro c₁ c' c₂ h₁ h' h₂
  have hK : (K.setWidth 8).toNat = K.toNat := by
    rw [BitVec.toNat_setWidth, Nat.mod_eq_of_lt]
    have := K.isLt
    omega
  obtain ⟨hgpwr₁, hsreg₁⟩ := h₁.adiw
  obtain ⟨hgpwr', hsreg'⟩ := h'.add
  obtain ⟨hgpwr₂, hsreg₂⟩ := h₂.adc
  rw [ha, hK] at hgpwr' hsreg'
  have hhigh : c'.register (pairHigh d) = c.register (pairHigh d) := by
    rw [AvrCore.register, hgpwr']
    apply Function.update_of_ne (pair_ne d).symm
  have hzero : c'.register b = 0 := by
    rw [AvrCore.register, hgpwr', ← hb]
    apply Function.update_of_ne
    intro heq
    apply hne (BitVec.eq_of_toFin_eq heq)
  have hC : c'.sreg.getLsbD SREG.C
      = decide (2 ^ 8 ≤ ((c.register (pairLow d)).toNat : Int) + K.toNat + 0) :=
    getLsbD_of_flags hsreg' (by decide) rfl
  rw [hhigh, hzero, hC] at hgpwr₂ hsreg₂
  obtain ⟨hdiv, hmod, hcarry, hneg, hfits⟩ := add_pair (c.register (pairHigh d))
    (c.register (pairLow d)) (K := K.toNat) (by have := K.isLt; omega)
  constructor
  · rw [hgpwr₁, hgpwr₂, hgpwr', hdiv, ofInt_byte_congr hmod]
    rfl
  · intro bit hbit
    simp only [List.mem_cons, List.not_mem_nil, or_false] at hbit
    rcases hbit with rfl | rfl | rfl | rfl | rfl | rfl
    · rw [getLsbD_of_flags hsreg₁ (by decide) rfl, getLsbD_of_flags hsreg₂ (by decide) rfl]
      apply decide_eq_decide.mpr hcarry
    · rw [getLsbD_of_flags hsreg₁ (by decide) rfl, getLsbD_of_flags hsreg₂ (by decide) rfl]
      apply decide_eq_decide.mpr hneg
    · rw [getLsbD_of_flags hsreg₁ (by decide) rfl, getLsbD_of_flags hsreg₂ (by decide) rfl]
      apply decide_eq_decide.mpr (not_congr hfits)
    · rw [getLsbD_of_flags hsreg₁ (by decide) rfl, getLsbD_of_flags hsreg₂ (by decide) rfl]
      apply congrArg₂ xor (decide_eq_decide.mpr hneg) (decide_eq_decide.mpr (not_congr hfits))
    · rw [getLsbD_of_no_flag hsreg₁ (by decide) rfl, getLsbD_of_no_flag hsreg₂ (by decide) rfl,
        getLsbD_of_no_flag hsreg' (by decide) rfl]
    · rw [getLsbD_of_no_flag hsreg₁ (by decide) rfl, getLsbD_of_no_flag hsreg₂ (by decide) rfl,
        getLsbD_of_no_flag hsreg' (by decide) rfl]

/-- SBIW is SUBI and SBCI byte by byte, and ADIW is ADD and ADC of registers that hold the
constant and zero. -/
theorem word_immediate_eq_bytes
    (c : AvrCore δ) (d : BitVec 2) (K : BitVec 6) :
  SameEffect [SREG.C, SREG.Z, SREG.N, SREG.V, SREG.S, SREG.T, SREG.I] [.sbiw d K]
      [.subi ((pairLow d).setWidth 4) (K.setWidth 8), .sbci ((pairHigh d).setWidth 4) 0] c ∧
    ∀ a b : BitVec 5, c.register a = K.setWidth 8 → c.register b = 0 → b ≠ pairLow d →
      SameEffect [SREG.C, SREG.N, SREG.V, SREG.S, SREG.T, SREG.I] [.adiw d K]
        [.add (pairLow d) a, .adc (pairHigh d) b] c
  := by
  constructor
  · apply sbiw_sameEffect
  · intro a b ha hb hne
    apply adiw_sameEffect c d ha hb hne

end

/-- The addition of 63 to the pair R25:R24 with the value 255, from R16 and R17. -/
theorem word_immediate_eq_bytes_carry :
  SameEffect [SREG.C, SREG.N, SREG.V, SREG.S, SREG.T, SREG.I] [.adiw 0 63]
    [.add 24 16, .adc 25 17]
    { AvrCore.at90s2313 with gpwr := fun r => if r = 16 then 63 else if r = 24 then 255 else 0 }
  := (word_immediate_eq_bytes _ 0 63).2 16 17 (by decide) (by decide) (by decide)

end SimulAvr
