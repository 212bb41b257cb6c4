import SimulAvr.Alu.Refinement
import SimulAvr.Lib.Limbs

/-!
# Multi-precision arithmetic

A number of `n` bytes is added by ADD and `n - 1` times ADC, subtracted by SUB or SUBI
and `n - 1` times SBC or SBCI, and compared by CP or CPI and `n - 1` times CPC, with
other instructions in between that leave SREG alone.  After such a chain, the bytes
produced and the flags are those of the numbers of `n` bytes, for every `n`.
-/

namespace SimulAvr

open Carry (Fits)
open Limbs (value signed Exact)

section

variable {δ : Type}

/-! ### Chains of instructions -/

/-- The register that an instruction reads first, and writes. -/
def OpcodeInfo.destination (opi : OpcodeInfo) : Fin 32 :=
  .ofNat 32 opi.arg1.toNat

/-- The two bytes on which an addition, subtraction or comparison works. -/
def OpcodeInfo.operands (opi : OpcodeInfo) (c : AvrCore δ) : Byte × Byte :=
  (c.gpwr opi.destination,
    if opi.func ∈ rdKOpcodes then .ofInt 8 opi.arg2 else c.gpwr (.ofNat 32 opi.arg2.toNat))

section

variable {opi : OpcodeInfo} {c : AvrCore δ} {x y : Byte}

/-- The operands of an instruction with two registers. -/
theorem OpcodeInfo.operands_of_registers
    (hfunc : opi.func ∉ rdKOpcodes) (h : opi.operands c = (x, y)) :
  x = c.gpwr opi.destination ∧ y = c.gpwr (.ofNat 32 opi.arg2.toNat)
  := by
  rw [operands, if_neg hfunc] at h
  obtain ⟨hx, hy⟩ := Prod.mk.inj h
  exact ⟨hx.symm, hy.symm⟩

/-- The operands of an instruction with a constant. -/
theorem OpcodeInfo.operands_of_constant
    (hfunc : opi.func ∈ rdKOpcodes)
    (hadmits : opi.func.form.Admits opi.arg1 opi.arg2) (h : opi.operands c = (x, y)) :
  x = c.gpwr opi.destination ∧ opi.arg2 = y.toNat ∧
    (if opi.arg2 < 2 ^ 7 then opi.arg2 else opi.arg2 - 2 ^ 8) = y.toInt
  := by
  have hform : ∀ func ∈ rdKOpcodes, func.form = .rd4K8 := by decide +kernel
  rw [hform _ hfunc] at hadmits
  obtain ⟨-, hK⟩ := hadmits
  rw [operands, if_pos hfunc] at h
  obtain ⟨hx, rfl⟩ := Prod.mk.inj h
  exact ⟨hx.symm, (toNat_ofInt_byte hK).symm, (toInt_ofInt_byte hK).symm⟩

/-- The flags of a subtraction without borrow in. -/
theorem sub_reference
    (hfunc : opi.func ∈ [OpcodeName.SUB, .SUBI, .CP, .CPI])
    (hadmits : opi.func.form.Admits opi.arg1 opi.arg2) (h : opi.operands c = (x, y)) :
  (aluReference opi.func opi.arg1 opi.arg2 c).flags
    = Reference.subFlags x.toNat y.toNat x.toInt y.toInt 0
  := by
  obtain ⟨func, arg1, arg2⟩ := opi
  simp only [List.mem_cons, List.not_mem_nil, or_false] at hfunc
  rcases hfunc with rfl | rfl | rfl | rfl
  · obtain ⟨rfl, rfl⟩ := OpcodeInfo.operands_of_registers (by simp [rdKOpcodes]) h
    rfl
  · obtain ⟨rfl, hnat, hint⟩ := OpcodeInfo.operands_of_constant (by simp [rdKOpcodes]) hadmits h
    rw [← hnat, ← hint]
    rfl
  · obtain ⟨rfl, rfl⟩ := OpcodeInfo.operands_of_registers (by simp [rdKOpcodes]) h
    rfl
  · obtain ⟨rfl, hnat, hint⟩ := OpcodeInfo.operands_of_constant (by simp [rdKOpcodes]) hadmits h
    rw [← hnat, ← hint]
    rfl

/-- The flags of a subtraction with borrow in. -/
theorem sbc_reference
    (hfunc : opi.func ∈ [OpcodeName.SBC, .SBCI, .CPC])
    (hadmits : opi.func.form.Admits opi.arg1 opi.arg2) (h : opi.operands c = (x, y)) :
  (aluReference opi.func opi.arg1 opi.arg2 c).flags
    = Reference.sbcFlags (c.sreg.getLsbD SREG.Z) x.toNat y.toNat x.toInt y.toInt
        (c.sreg.getLsbD SREG.C).toNat
  := by
  obtain ⟨func, arg1, arg2⟩ := opi
  simp only [List.mem_cons, List.not_mem_nil, or_false] at hfunc
  rcases hfunc with rfl | rfl | rfl
  · obtain ⟨rfl, rfl⟩ := OpcodeInfo.operands_of_registers (by simp [rdKOpcodes]) h
    rfl
  · obtain ⟨rfl, hnat, hint⟩ := OpcodeInfo.operands_of_constant (by simp [rdKOpcodes]) hadmits h
    rw [← hnat, ← hint]
    rfl
  · obtain ⟨rfl, rfl⟩ := OpcodeInfo.operands_of_registers (by simp [rdKOpcodes]) h
    rfl

end

variable [IoDevices δ]

/-- One instruction of a chain: the core `c` executes an instruction among `funcs` on the
bytes `x` and `y`, which leaves `z` in its first register. -/
def Link (funcs : List OpcodeName) (x y z : Byte) (c c' : AvrCore δ) : Prop :=
  ∃ opcode ret,
    (decodeOpcode opcode).func ∈ funcs ∧
    (decodeOpcode opcode).operands c = (x, y) ∧
    (execOpcode opcode).run c = .ok (ret, c') ∧
    c'.gpwr (decodeOpcode opcode).destination = z

/-- A chain of instructions from the core `c₀`: one instruction among `first`, and then
any number of instructions among `rest`, each one after a change of the core that
satisfies `I` and leaves SREG alone.  The lists are the first operands, the second
operands and the bytes left in the first registers, in the order of the instructions. -/
inductive Chain (I : AvrCore δ → AvrCore δ → Prop) (first rest : List OpcodeName)
    (c₀ : AvrCore δ) : List Byte → List Byte → List Byte → AvrCore δ → Prop
  | first {x y z : Byte} {c : AvrCore δ} (h : Link first x y z c₀ c) :
      Chain I first rest c₀ [x] [y] [z] c
  | next {a b r : List Byte} {c c' c'' : AvrCore δ} {x y z : Byte}
      (h : Chain I first rest c₀ a b r c) (hI : I c c') (hsreg : c'.sreg = c.sreg)
      (hlink : Link rest x y z c' c'') :
      Chain I first rest c₀ (a ++ [x]) (b ++ [y]) (r ++ [z]) c''

/-! ### One instruction -/

/-- An addition of the bytes `x` and `y` with carry in, by its result and the status
register after it. -/
structure AddDigit (cin : Bool) (x y z sreg : Byte) : Prop where
  result : z = .ofInt 8 (x.toNat + y.toNat + cin.toNat)
  carry : sreg.getLsbD SREG.C = decide ((2 : Int) ^ 8 ≤ x.toNat + y.toNat + cin.toNat)
  overflow : sreg.getLsbD SREG.V = decide (¬ Fits 8 (x.toInt + y.toInt + cin.toNat))

/-- A subtraction of the byte `y` from `x` with borrow in and previous bit Z, by the
status register after it. -/
structure SubDigit (cin Z : Bool) (x y sreg : Byte) : Prop where
  carry : sreg.getLsbD SREG.C = decide ((x.toNat : Int) - y.toNat - cin.toNat < 0)
  overflow : sreg.getLsbD SREG.V = decide (¬ Fits 8 (x.toInt - y.toInt - cin.toNat))
  sign : sreg.getLsbD SREG.S
    = (decide (2 ^ 7 ≤ ((x.toNat : Int) - y.toNat - cin.toNat) % 2 ^ 8)
      ^^ decide (¬ Fits 8 (x.toInt - y.toInt - cin.toNat)))
  zero : sreg.getLsbD SREG.Z
    = (Z && decide (((x.toNat : Int) - y.toNat - cin.toNat) % 2 ^ 8 = 0))

variable {funcs : List OpcodeName} {x y z : Byte} {c c' : AvrCore δ}

/-- The effect of an instruction of a chain is that of the reference. -/
theorem Link.reference
    (hfuncs : ∀ func ∈ funcs, func ∈ aluOpcodes) (h : Link funcs x y z c c') :
  ∃ opi : OpcodeInfo, opi.func ∈ funcs ∧ opi.func.form.Admits opi.arg1 opi.arg2 ∧
    opi.operands c = (x, y) ∧
    c'.sreg = (aluReference opi.func opi.arg1 opi.arg2 c).flags.apply c.sreg ∧
    c'.gpwr = (aluReference opi.func opi.arg1 opi.arg2 c).gpwr c.gpwr ∧
    c'.gpwr opi.destination = z
  := by
  obtain ⟨opcode, ret, hfunc, hoperands, hrun, hz⟩ := h
  have hadmits := lookupOpcode_admits opcode
  obtain ⟨msgs, hrun'⟩ := handler_alu c (hfuncs _ hfunc) hadmits opcode
  rw [show (execOpcode opcode).run c = _ from hrun'] at hrun
  cases hrun
  use decodeOpcode opcode
  exact ⟨hfunc, hadmits, hoperands, rfl, rfl, hz⟩

/-- A flag of the reference, in the status register. -/
theorem getLsbD_of_flags
    {flags : Flags} {sreg sreg' : Byte} (h : sreg' = flags.apply sreg) {i : Nat} (hi : i < 8)
    {v : Bool} (hv : flags.lookup i = some v) :
  sreg'.getLsbD i = v
  := by
  rw [h, Flags.getLsbD_apply _ _ hi, Flags.bit, hv, Option.getD_some]

/-- The flags and the result of an addition in the reference. -/
theorem addDigit_of_reference
    (cin : Bool) {d : Fin 32} {sreg sreg' : Byte} {gpwr gpwr' : Fin 32 → Byte}
    (hsreg : sreg' = (Reference.add d x.toNat y.toNat x.toInt y.toInt cin.toNat).flags.apply sreg)
    (hgpwr : gpwr' = (Reference.add d x.toNat y.toNat x.toInt y.toInt cin.toNat).gpwr gpwr)
    (hz : gpwr' d = z) :
  AddDigit cin x y z sreg'
  := by
  constructor
  · rw [← hz, hgpwr]
    apply Function.update_self
  · apply getLsbD_of_flags hsreg (by decide) rfl
  · apply getLsbD_of_flags hsreg (by decide) rfl

theorem Link.add
    (h : Link [.ADD] x y z c c') :
  AddDigit false x y z c'.sreg
  := by
  obtain ⟨⟨func, arg1, arg2⟩, hfunc, -, hoperands, hsreg, hgpwr, hz⟩ :=
    h.reference (by decide)
  obtain rfl := List.mem_singleton.mp hfunc
  obtain ⟨rfl, rfl⟩ := OpcodeInfo.operands_of_registers (by simp [rdKOpcodes]) hoperands
  apply addDigit_of_reference false hsreg hgpwr hz

theorem Link.adc
    (h : Link [.ADC] x y z c c') :
  AddDigit (c.sreg.getLsbD SREG.C) x y z c'.sreg
  := by
  obtain ⟨⟨func, arg1, arg2⟩, hfunc, -, hoperands, hsreg, hgpwr, hz⟩ :=
    h.reference (by decide)
  obtain rfl := List.mem_singleton.mp hfunc
  obtain ⟨rfl, rfl⟩ := OpcodeInfo.operands_of_registers (by simp [rdKOpcodes]) hoperands
  apply addDigit_of_reference (c.sreg.getLsbD SREG.C) hsreg hgpwr hz

theorem Link.subFamily
    (h : Link funcs x y z c c') (hfuncs : ∀ func ∈ funcs, func ∈ [.SUB, .SUBI, .CP, .CPI]) :
  SubDigit false true x y c'.sreg
  := by
  have halu : ∀ func ∈ [OpcodeName.SUB, .SUBI, .CP, .CPI], func ∈ aluOpcodes := by decide
  obtain ⟨opi, hfunc, hadmits, hoperands, hsreg, -, -⟩ :=
    h.reference (fun func hfunc => halu _ (hfuncs _ hfunc))
  rw [sub_reference (hfuncs _ hfunc) hadmits hoperands] at hsreg
  constructor
  · apply getLsbD_of_flags hsreg (by decide) rfl
  · apply getLsbD_of_flags hsreg (by decide) rfl
  · apply getLsbD_of_flags hsreg (by decide) rfl
  · rw [Bool.true_and]
    apply getLsbD_of_flags hsreg (by decide) rfl

theorem Link.sbcFamily
    (h : Link funcs x y z c c') (hfuncs : ∀ func ∈ funcs, func ∈ [.SBC, .SBCI, .CPC]) :
  SubDigit (c.sreg.getLsbD SREG.C) (c.sreg.getLsbD SREG.Z) x y c'.sreg
  := by
  have halu : ∀ func ∈ [OpcodeName.SBC, .SBCI, .CPC], func ∈ aluOpcodes := by decide
  obtain ⟨opi, hfunc, hadmits, hoperands, hsreg, -, -⟩ :=
    h.reference (fun func hfunc => halu _ (hfuncs _ hfunc))
  rw [sbc_reference (hfuncs _ hfunc) hadmits hoperands] at hsreg
  constructor
  · apply getLsbD_of_flags hsreg (by decide) rfl
  · apply getLsbD_of_flags hsreg (by decide) rfl
  · apply getLsbD_of_flags hsreg (by decide) rfl
  · apply getLsbD_of_flags hsreg (by decide) rfl

/-- The result of a subtraction without borrow in. -/
theorem Link.sub_result
    (h : Link funcs x y z c c') (hfuncs : ∀ func ∈ funcs, func ∈ [.SUB, .SUBI]) :
  z = .ofInt 8 (x.toNat - y.toNat)
  := by
  have halu : ∀ func ∈ [OpcodeName.SUB, .SUBI], func ∈ aluOpcodes := by decide
  obtain ⟨⟨func, arg1, arg2⟩, hfunc, hadmits, hoperands, -, hgpwr, hz⟩ :=
    h.reference (fun func hfunc => halu _ (hfuncs _ hfunc))
  have hfunc := hfuncs _ hfunc
  simp only [List.mem_cons, List.not_mem_nil, or_false] at hfunc
  rw [← hz, hgpwr]
  rcases hfunc with rfl | rfl
  · obtain ⟨rfl, rfl⟩ := OpcodeInfo.operands_of_registers (by simp [rdKOpcodes]) hoperands
    apply Function.update_self
  · obtain ⟨rfl, hnat, -⟩ :=
      OpcodeInfo.operands_of_constant (by simp [rdKOpcodes]) hadmits hoperands
    rw [← hnat]
    apply Function.update_self

/-- The result of a subtraction with borrow in. -/
theorem Link.sbc_result
    (h : Link funcs x y z c c') (hfuncs : ∀ func ∈ funcs, func ∈ [.SBC, .SBCI]) :
  z = .ofInt 8 (x.toNat - y.toNat - (c.sreg.getLsbD SREG.C).toNat)
  := by
  have halu : ∀ func ∈ [OpcodeName.SBC, .SBCI], func ∈ aluOpcodes := by decide
  obtain ⟨⟨func, arg1, arg2⟩, hfunc, hadmits, hoperands, -, hgpwr, hz⟩ :=
    h.reference (fun func hfunc => halu _ (hfuncs _ hfunc))
  have hfunc := hfuncs _ hfunc
  simp only [List.mem_cons, List.not_mem_nil, or_false] at hfunc
  rw [← hz, hgpwr]
  rcases hfunc with rfl | rfl
  · obtain ⟨rfl, rfl⟩ := OpcodeInfo.operands_of_registers (by simp [rdKOpcodes]) hoperands
    apply Function.update_self
  · obtain ⟨rfl, hnat, -⟩ :=
      OpcodeInfo.operands_of_constant (by simp [rdKOpcodes]) hadmits hoperands
    rw [← hnat]
    apply Function.update_self

/-- Comparisons leave the registers. -/
theorem Link.compare_gpwr
    (h : Link funcs x y z c c') (hfuncs : ∀ func ∈ funcs, func ∈ [.CP, .CPI, .CPC]) :
  c'.gpwr = c.gpwr
  := by
  have halu : ∀ func ∈ [OpcodeName.CP, .CPI, .CPC], func ∈ aluOpcodes := by decide
  obtain ⟨⟨func, arg1, arg2⟩, hfunc, -, -, -, hgpwr, -⟩ :=
    h.reference (fun func hfunc => halu _ (hfuncs _ hfunc))
  have hfunc := hfuncs _ hfunc
  simp only [List.mem_cons, List.not_mem_nil, or_false] at hfunc
  rcases hfunc with rfl | rfl | rfl <;> exact hgpwr

/-! ### Chains -/

/-- The words `r` and the flags after an addition of the numbers `a` and `b`. -/
structure AddState (a b r : List Byte) (sreg : Byte) : Prop where
  exact : Exact 1 a b r (sreg.getLsbD SREG.C)
  overflow : sreg.getLsbD SREG.V = decide (¬ Fits (8 * r.length) (signed a + signed b))

/-- The words `r` and the flags after a subtraction or a comparison of the numbers `a`
and `b`. -/
structure SubState (a b r : List Byte) (sreg : Byte) : Prop where
  exact : Exact (-1) a b r (sreg.getLsbD SREG.C)
  overflow : sreg.getLsbD SREG.V = decide (¬ Fits (8 * r.length) (signed a - signed b))
  sign : sreg.getLsbD SREG.S = decide (signed a < signed b)
  zero : sreg.getLsbD SREG.Z = decide (value r = 0)

section

variable {a b r : List Byte} {cin : Bool} {sreg : Byte}

/-- One more addition. -/
theorem AddState.concat
    (h : Exact 1 a b r cin) (hd : AddDigit cin x y z sreg) :
  AddState (a ++ [x]) (b ++ [y]) (r ++ [z]) sreg
  := by
  have hx := x.isLt
  have hy := y.isLt
  have hc := Bool.toNat_lt cin
  constructor
  · apply h.concat
    have hdigit := Limbs.digit_add hd.result hd.carry (by omega)
    linarith
  · have hfits := h.fits_concat (by omega : 0 < 8) x y
    rw [one_mul, one_mul, ← Int.add_assoc] at hfits
    rw [hd.overflow, List.length_append, List.length_singleton, decide_eq_decide, hfits]

/-- One more subtraction. -/
theorem SubState.concat
    {Z : Bool} (h : Exact (-1) a b r cin) (hZ : Z = decide (value r = 0))
    (hd : SubDigit cin Z x y sreg) (hz : z = .ofInt 8 (x.toNat - y.toNat - cin.toNat)) :
  SubState (a ++ [x]) (b ++ [y]) (r ++ [z]) sreg
  := by
  have hx := x.isLt
  have hy := y.isLt
  have hc := Bool.toNat_lt cin
  constructor
  · apply h.concat
    have hdigit := Limbs.digit_sub hz hd.carry (by omega)
    linarith
  · have hfits := h.fits_concat (by omega : 0 < 8) x y
    have hsub (m n k : Int) : m + -1 * (n + k) = m - n - k := by ring
    have hsub' (m n : Int) : m + -1 * n = m - n := by ring
    rw [hsub, hsub'] at hfits
    rw [hd.overflow, List.length_append, List.length_singleton, decide_eq_decide, hfits]
  · have hlt := h.signed_lt_iff (by omega : 0 < 8) x y
    have hxi := BitVec.toInt_eq_toNat_cond x
    have hyi := BitVec.toInt_eq_toNat_cond y
    have hmod : ((x.toNat : Int) - y.toNat - cin.toNat) % 2 ^ 8
        = (x.toInt - y.toInt - cin.toNat) % 2 ^ 8 := by
      rw [hxi, hyi]
      split <;> split <;> omega
    have hbound : -2 ^ 8 ≤ x.toInt - y.toInt - cin.toNat
        ∧ x.toInt - y.toInt - cin.toNat < 2 ^ 8 := by
      rw [hxi, hyi]
      split <;> split <;> omega
    have hsign := Carry.sign_xor_overflow (by omega : 0 < 8) hbound
    rw [hd.sign, hmod, decide_eq_decide.mpr hlt, ← hsign]
  · have hres := Carry.toNat_eq_emod hz
    rw [hd.zero, hZ, Limbs.value_concat, ← hres, ← Bool.decide_and, decide_eq_decide]
    simp

end

section

variable {I : AvrCore δ → AvrCore δ → Prop} {first rest : List OpcodeName} {c₀ : AvrCore δ}
  {a b r : List Byte}

/-- The state after a chain of additions. -/
theorem Chain.add
    (h : Chain I [.ADD] [.ADC] c₀ a b r c) :
  AddState a b r c.sreg
  := by
  induction h with
  | first h =>
    apply AddState.concat Exact.nil h.add
  | next h hI hsreg hlink ih =>
    have hd := hlink.adc
    rw [hsreg] at hd
    apply AddState.concat ih.exact hd

/-- The state after a chain of subtractions. -/
theorem Chain.sub
    (h : Chain I [.SUB, .SUBI] [.SBC, .SBCI] c₀ a b r c) :
  SubState a b r c.sreg
  := by
  induction h with
  | first h =>
    have hz := h.sub_result (by decide)
    rw [← Int.sub_zero (_ - _)] at hz
    apply SubState.concat Exact.nil _ (h.subFamily (by decide)) hz
    rfl
  | next h hI hsreg hlink ih =>
    have hd := hlink.sbcFamily (by decide)
    have hz := hlink.sbc_result (by decide)
    rw [hsreg] at hd hz
    apply SubState.concat ih.exact ih.zero hd hz

/-- The state after a chain of comparisons is that after the subtraction. -/
theorem Chain.compare
    (h : Chain I [.CP, .CPI] [.CPC] c₀ a b r c) :
  ∃ d, SubState a b d c.sreg
  := by
  induction h with
  | first h =>
    refine ⟨_, SubState.concat Exact.nil ?_ (h.subFamily (by decide)) rfl⟩
    rfl
  | next h hI hsreg hlink ih =>
    obtain ⟨d, ih⟩ := ih
    have hd := hlink.sbcFamily (by decide)
    rw [hsreg] at hd
    refine ⟨_, SubState.concat ih.exact ih.zero hd rfl⟩

/-- A chain of comparisons leaves the registers that the instructions in between
leave. -/
theorem Chain.compare_gpwr
    (h : Chain I [.CP, .CPI] [.CPC] c₀ a b r c) (hI : ∀ c c', I c c' → c'.gpwr = c.gpwr) :
  c.gpwr = c₀.gpwr
  := by
  induction h with
  | first h => apply h.compare_gpwr (by decide)
  | next h hIc hsreg hlink ih => rw [hlink.compare_gpwr (by decide), hI _ _ hIc, ih]

end

/-! ### The numbers of a chain -/

/-- The words `r` and the flags after an addition of the numbers `a` and `b`. -/
structure AddResult (a b r : List Byte) (sreg : Byte) : Prop where
  value_eq : value r = (value a + value b) % 2 ^ (8 * r.length)
  carry : sreg.getLsbD SREG.C = decide (2 ^ (8 * r.length) ≤ value a + value b)
  overflow : sreg.getLsbD SREG.V = decide (¬ Fits (8 * r.length) (signed a + signed b))

/-- The words `r` and the flags after a subtraction of the number `b` from `a`. -/
structure SubResult (a b r : List Byte) (sreg : Byte) : Prop where
  value_eq : (value r : Int) = ((value a : Int) - value b) % 2 ^ (8 * r.length)
  carry : sreg.getLsbD SREG.C = decide (value a < value b)
  overflow : sreg.getLsbD SREG.V = decide (¬ Fits (8 * r.length) (signed a - signed b))
  zero : sreg.getLsbD SREG.Z = decide (value r = 0)

/-- The flags after a comparison of the numbers `a` and `b`. -/
structure CompareResult (a b : List Byte) (sreg : Byte) : Prop where
  carry : sreg.getLsbD SREG.C = decide (value a < value b)
  sign : sreg.getLsbD SREG.S = decide (signed a < signed b)
  zero : sreg.getLsbD SREG.Z = decide (value a = value b)

section

variable {a b r : List Byte} {sreg : Byte}

theorem AddState.result
    (h : AddState a b r sreg) :
  AddResult a b r sreg
  := by
  constructor
  · have hmod := h.exact.value_mod
    rw [one_mul] at hmod
    exact_mod_cast hmod
  · apply h.exact.carry_add
  · apply h.overflow

theorem SubState.result
    (h : SubState a b r sreg) :
  SubResult a b r sreg
  := by
  constructor
  · rw [h.exact.value_mod]
    congr 1
    ring
  · apply h.exact.borrow_sub
  · apply h.overflow
  · apply h.zero

theorem SubState.compare
    (h : SubState a b r sreg) :
  CompareResult a b sreg
  := by
  constructor
  · apply h.exact.borrow_sub
  · apply h.sign
  · rw [h.zero, decide_eq_decide]
    apply h.exact.value_eq_zero_iff

end

/-! ### Branches -/

/-- The core after a branch by `k`. -/
def AvrCore.branch (c : AvrCore δ) (taken : Bool) (k : Int) : AvrCore δ :=
  if taken then { c.pcIncr (k + 1) with instCKS := 2 } else { c.pcIncr 1 with instCKS := 1 }

omit [IoDevices δ] in
theorem branchIf_run
    (name : OpcodeName) (val : Bool) (bit : Nat) (k : Int) :
  (branchIf name val bit k).run c
    = .ok (.opcode name, c.branch (decide (c.sreg.getLsbD bit = val)) k)
  := by
  simp only [branchIf, AvrCore.branch, StateT.run_bind, run_avrCoreSregGetBit,
    Program.ok_bind, Int.toNat_natCast, AvrCore.sregGetBit]
  by_cases h : c.sreg.getLsbD bit = val
  · simp [h]
  · simp [h, nextInst]

/-- The six branches on C, S and Z decide the comparison of the numbers `a` and `b`. -/
structure BranchesDecide (a b : List Byte) (c : AvrCore δ) : Prop where
  brlo (k : Int) : (avrOpBRBS SREG.C k).run c
    = .ok (.opcode .BRBS, c.branch (decide (value a < value b)) k)
  brsh (k : Int) : (avrOpBRBC SREG.C k).run c
    = .ok (.opcode .BRBC, c.branch (decide (value b ≤ value a)) k)
  brlt (k : Int) : (avrOpBRBS SREG.S k).run c
    = .ok (.opcode .BRBS, c.branch (decide (signed a < signed b)) k)
  brge (k : Int) : (avrOpBRBC SREG.S k).run c
    = .ok (.opcode .BRBC, c.branch (decide (signed b ≤ signed a)) k)
  breq (k : Int) : (avrOpBRBS SREG.Z k).run c
    = .ok (.opcode .BRBS, c.branch (decide (value a = value b)) k)
  brne (k : Int) : (avrOpBRBC SREG.Z k).run c
    = .ok (.opcode .BRBC, c.branch (decide (value a ≠ value b)) k)

omit [IoDevices δ] in
theorem CompareResult.branchesDecide
    {a b : List Byte} {c : AvrCore δ} (h : CompareResult a b c.sreg) :
  BranchesDecide a b c
  where
  brlo k := by rw [avrOpBRBS, branchIf_run, h.carry]; simp
  brsh k := by rw [avrOpBRBC, branchIf_run, h.carry]; simp
  brlt k := by rw [avrOpBRBS, branchIf_run, h.sign]; simp
  brge k := by rw [avrOpBRBC, branchIf_run, h.sign]; simp
  breq k := by rw [avrOpBRBS, branchIf_run, h.zero]; simp
  brne k := by rw [avrOpBRBC, branchIf_run, h.zero]; simp

/-! ### Exactness -/

/-- Chains of additions, subtractions and comparisons are exact for numbers of any
length. -/
theorem multi_precision_exact
    (I : AvrCore δ → AvrCore δ → Prop) (c₀ c : AvrCore δ) (a b r : List Byte) :
  (Chain I [.ADD] [.ADC] c₀ a b r c → AddResult a b r c.sreg) ∧
    (Chain I [.SUB, .SUBI] [.SBC, .SBCI] c₀ a b r c → SubResult a b r c.sreg) ∧
    (Chain I [.CP, .CPI] [.CPC] c₀ a b r c →
      CompareResult a b c.sreg ∧
      ((∀ c c', I c c' → c'.gpwr = c.gpwr) → c.gpwr = c₀.gpwr) ∧
      ∀ c' : AvrCore δ, c'.sreg = c.sreg → BranchesDecide a b c')
  := by
  refine ⟨?_, ?_, ?_⟩
  · intro h
    apply h.add.result
  · intro h
    apply h.sub.result
  · intro h
    obtain ⟨d, hd⟩ := h.compare
    refine ⟨hd.compare, ?_, ?_⟩
    · apply h.compare_gpwr
    · intro c' hsreg
      apply CompareResult.branchesDecide
      rw [hsreg]
      apply hd.compare

/-- Every instruction word of a chain can be executed on every core. -/
theorem link_exists
    (funcs : List OpcodeName) (opcode : Word) (x y : Byte) (c : AvrCore δ)
    (hfunc : (decodeOpcode opcode).func ∈ funcs)
    (halu : (decodeOpcode opcode).func ∈ aluOpcodes)
    (hoperands : (decodeOpcode opcode).operands c = (x, y)) :
  ∃ c', Link funcs x y (c'.gpwr (decodeOpcode opcode).destination) c c' ∧
    c'.gpwr = (aluReference (decodeOpcode opcode).func (decodeOpcode opcode).arg1
      (decodeOpcode opcode).arg2 c).gpwr c.gpwr
  := by
  obtain ⟨msgs, hrun⟩ := handler_alu c halu (lookupOpcode_admits opcode) opcode
  exact ⟨_, ⟨opcode, _, hfunc, hoperands, hrun, rfl⟩, rfl⟩

/-- The sum of two numbers of two bytes with all bits set. -/
theorem multi_precision_exact_add :
  ∃ c₀ c : AvrCore Unit, ∃ r,
    Chain Eq [.ADD] [.ADC] c₀ [0xff, 0xff] [0xff, 0xff] r c ∧
      AddResult [0xff, 0xff] [0xff, 0xff] r c.sreg
  := by
  let c₀ : AvrCore Unit := { AvrCore.construct defnAt90s2313 () with gpwr := fun _ => 0xff }
  have hadd : decodeOpcode 0x0c01 = ⟨.ADD, 0, 1⟩ := by decide +kernel
  have hadc : decodeOpcode 0x1c23 = ⟨.ADC, 2, 3⟩ := by decide +kernel
  obtain ⟨c₁, hlink₁, hgpwr₁⟩ := link_exists [.ADD] 0x0c01 0xff 0xff c₀
    (by rw [hadd]; decide) (by rw [hadd]; decide) (by rw [hadd]; decide)
  have hoperands : (decodeOpcode 0x1c23).operands c₁ = (0xff, 0xff) := by
    rw [hadc, OpcodeInfo.operands, hgpwr₁, hadd]
    decide +kernel
  obtain ⟨c₂, hlink₂, -⟩ := link_exists [.ADC] 0x1c23 0xff 0xff c₁
    (by rw [hadc]; decide) (by rw [hadc]; decide) hoperands
  have hchain := Chain.next (Chain.first hlink₁) rfl rfl hlink₂
  obtain ⟨hresult, -, -⟩ := multi_precision_exact Eq c₀ c₂ _ _ _
  exact ⟨c₀, c₂, _, hchain, hresult hchain⟩

end

end SimulAvr
