import SimulAvr.Lib.IntBits
import SimulAvr.Regress.OpcodeTest

/-!
# Rules for the test cases of the opcodes

A test case sets some registers and has the target execute one instruction.  It is correct where
the instruction has an effect on the view with these registers, of which the checks of the test
case find nothing wrong.
-/

namespace SimulAvr

open Exchange

/-! ### Registers -/

/-- `self.setup_regs[reg] = val` -/
def Regs.set (regs : Regs) (reg : Fin 35) (val : Nat) : Regs :=
  Function.update regs reg val

namespace Reg

theorem R_inj
    {i j : Fin 32} :
  R i = R j ↔ i = j
  := Fin.castLE_inj

theorem R_ne_SREG
    (i : Fin 32) :
  R i ≠ SREG
  := Fin.ne_of_lt i.isLt

theorem R_ne_PC
    (i : Fin 32) :
  R i ≠ PC
  := Fin.ne_of_lt (Nat.lt_add_right 2 i.isLt)

/-- The other register of a pair -/
theorem ne_succ :
  ∀ r : Fin 32, r ≠ r + 1
  := by
  decide

end Reg

namespace Regs

variable {regs : Regs} {reg reg' : Fin 35}

theorem set_self
    (regs : Regs) (reg : Fin 35) (val : Nat) :
  regs.set reg val reg = val
  := by
  rw [set, Function.update_self]

theorem set_of_ne
    (h : reg' ≠ reg) (regs : Regs) (val : Nat) :
  regs.set reg val reg' = regs reg'
  := by
  rw [set, Function.update_of_ne h]

theorem Valid.setR
    (h : regs.Valid) (i : Fin 32) {val : Nat} (hval : val < 2 ^ 8) :
  (regs.set (Reg.R i) val).Valid
  := by
  constructor
  · intro reg
    by_cases hreg : reg = Reg.R i
    · have hsp : Reg.R i < Reg.SP := Nat.lt_succ_of_lt i.isLt
      rw [hreg, set_self, regSize, if_pos hsp]
      exact hval
    · rw [set_of_ne hreg]
      apply h.bound
  · rw [set_of_ne (Reg.R_ne_PC i).symm]
    exact h.even

theorem Valid.setSreg
    (h : regs.Valid) {val : Nat} (hval : val < 2 ^ 8) :
  (regs.set Reg.SREG val).Valid
  := by
  constructor
  · intro reg
    by_cases hreg : reg = Reg.SREG
    · rw [hreg, set_self]
      exact hval
    · rw [set_of_ne hreg]
      apply h.bound
  · rw [set_of_ne (by decide)]
    exact h.even

end Regs

namespace Cpu

/-- The view has the registers that it is given. -/
theorem regs_withRegs
    (m : Cpu) {r : Regs} (h : r.Valid) :
  (m.withRegs r).regs = r
  := by
  funext reg
  obtain ⟨i, rfl⟩ | rfl | rfl | rfl := register_cases reg
  · rw [regs_gpwr, withRegs, BitVec.toNat_ofNat]
    exact Nat.mod_eq_of_lt (h.gpwr_lt i)
  · change (BitVec.ofNat 8 (r Reg.SREG)).toNat = r Reg.SREG
    rw [BitVec.toNat_ofNat]
    exact Nat.mod_eq_of_lt (h.bound Reg.SREG)
  · change (BitVec.ofNat 16 (r Reg.SP)).toNat = r Reg.SP
    rw [BitVec.toNat_ofNat]
    exact Nat.mod_eq_of_lt (h.bound Reg.SP)
  · have heven := h.even
    change r Reg.PC / 2 * 2 = r Reg.PC
    omega

end Cpu

/-- The view has the registers that `setup` sets. -/
theorem gpwr_of_regs
    {m : Cpu} {regs : Regs} (h : m.regs = regs) {i : Fin 32} {val : Byte}
    (hval : regs (Reg.R i) = val.toNat) :
  m.gpwr i = val
  := by
  apply BitVec.eq_of_toNat_eq
  rw [← Cpu.regs_gpwr, h, hval]

theorem sreg_of_regs
    {m : Cpu} {regs : Regs} (h : m.regs = regs) {val : Byte} (hval : regs Reg.SREG = val.toNat) :
  m.sreg = val
  := by
  apply BitVec.eq_of_toNat_eq
  rw [← hval, ← h]
  rfl

theorem pc_of_regs
    {m : Cpu} {regs : Regs} (h : m.regs = regs) {a : Nat} (hval : regs Reg.PC = a * 2) :
  m.pc = a
  := by
  rw [← h] at hval
  exact Nat.eq_of_mul_eq_mul_right (by decide) hval

/-! ### Raw opcodes -/

/-- `head | (Rd << 4) | ((Rr & 0x10) << 5) | (Rr & 0xf)` -/
def rawRdRr (head : Nat) (Rd Rr : Fin 32) : Nat :=
  head ||| (Rd.val <<< 4) ||| ((Rr.val &&& 0x10) <<< 5) ||| (Rr.val &&& 0xf)

/-- `head | (Rd << 4)` -/
def rawRd (head : Nat) (Rd : Fin 32) : Nat :=
  head ||| (Rd.val <<< 4)

/-- `head | ((Rd - 16) << 4) | ((Vk & 0xf0) << 4) | (Vk & 0xf)` -/
def rawRdK (head : Nat) (Rd : Fin 32) (Vk : Byte) : Nat :=
  head ||| ((Rd.val - 16) <<< 4) ||| ((Vk.toNat &&& 0xf0) <<< 4) ||| (Vk.toNat &&& 0xf)

theorem toNat_first
    (i : Instr) :
  i.first.toNat = i.func.head.toNat ||| i.operands.bits1.toNat ||| i.operands.bits2.toNat
  := by
  rw [Instr.first, BitVec.toNat_or, BitVec.toNat_or]

theorem toNat_bits_rd5 :
  ∀ d : Fin 32, (Operands.rd5 (.ofFin d)).bits1.toNat = d.val <<< 4
  := by
  decide

theorem toNat_bits_rr5 :
  ∀ r : Fin 32, (Operands.rd5rr5 0 (.ofFin r)).bits2.toNat
    = ((r.val &&& 0x10) <<< 5) ||| (r.val &&& 0xf)
  := by
  decide

theorem toNat_bits_rd4 :
  ∀ d : Fin 32, 16 ≤ d.val →
    (Operands.rd4K8 (.ofNat 4 (d.val - 16)) 0).bits1.toNat = (d.val - 16) <<< 4
  := by
  decide

theorem toNat_bits_K8 :
  ∀ K : Byte, (Operands.rd4K8 0 K).bits2.toNat = ((K.toNat &&& 0xf0) <<< 4) ||| (K.toNat &&& 0xf)
  := by
  decide +kernel

theorem packWord_toNat
    (w : Word) :
  packWord w.toNat = some (imageBytes [w])
  := by
  have hlow : BitVec.ofNat 8 (w.toNat / 2 ^ (8 * 0)) = w.extractLsb' 0 8 := by
    apply BitVec.eq_of_toNat_eq
    rw [BitVec.toNat_ofNat, BitVec.extractLsb'_toNat, Nat.shiftRight_eq_div_pow]
  have hhigh : BitVec.ofNat 8 (w.toNat / 2 ^ (8 * 1)) = w.extractLsb' 8 8 := by
    apply BitVec.eq_of_toNat_eq
    rw [BitVec.toNat_ofNat, BitVec.extractLsb'_toNat, Nat.shiftRight_eq_div_pow]
  rw [packWord, if_pos w.isLt]
  change some [BitVec.ofNat 8 _, BitVec.ofNat 8 _] = some [_, _]
  rw [hlow, hhigh]

section

variable {t : OpcodeTest} {i : Instr}

theorem commonBuildOpcode_first
    (ht : t.opcode32 = false) (hi : i.operands.second = none) :
  t.commonBuildOpcode i.first.toNat = some (imageBytes i.encode)
  := by
  rw [OpcodeTest.commonBuildOpcode, ht, if_neg Bool.false_ne_true, packWord_toNat, i.encode_eq, hi]
  rfl

/-! ### Correct test cases -/

variable {δ : Type} [IoDevices δ] {Q : δ → Prop} {flash : Flash} {m m' : Cpu} {r : Regs}

/-- The core executes the instruction that is in the flash. -/
theorem takesTo_of_exec
    (hQ : QuietDevices Q) (hwords : flash.HoldsAt m.pc i.encode)
    (hexec : m.exec at90s8515 [] i.func i.operands.arg1 i.operands.arg2 i.operands.second = some m') :
  TakesTo flash (OnIo Q) m m'
  := by
  intro st c h
  have hnil : flash.HoldsAt 0 (encodeProgram []) := by
    intro n word hword
    contradiction
  obtain ⟨name, c', hstep, h'⟩ := h.step_handler hQ.onIo hwords
    (h.fetched.handler at90s8515_plain hnil (admits_operands i) (fun _ => holdsAt_second hwords) i.first
      hexec)
  exact ⟨_, c', hstep, nofun, h'⟩

namespace OpcodeTest

/-- `setup` only sets registers. -/
theorem prepares_of_ret
    {raw : Nat} (hsetup : t.setup m.regs = .ret (r, raw))
    (hopcode : t.commonBuildOpcode raw = some (imageBytes i.encode)) (hvalid : r.Valid)
    (hroom : r Reg.PC / 2 + i.encode.length ≤ 4096) :
  t.Prepares Q m r i.encode m.sram none
  := by
  refine ⟨hvalid, ?_, ?_, hroom, ⟨raw, hopcode, ?_⟩, nofun⟩
  · rw [i.encode_eq]
    exact List.cons_ne_nil _ _
  · rw [length_encode]
    split <;> decide
  · intro cellName st c h
    refine ⟨c, ?_, h, nofun⟩
    rw [hsetup]
    exact .pure c _

/-- A test case of an instruction that has an effect on the view -/
theorem Correct.of_exec
    (hQ : QuietDevices Q) (i : Instr)
    (h : ∀ m : Cpu, m.pc = 0 → (t.stack = true → m.sp = .ofNat 16 spVal) →
      ∃ r sram, t.Prepares Q m r i.encode sram none ∧
        ∃ m', ({ m with sram := sram }.withRegs r).exec at90s8515 [] i.func i.operands.arg1
          i.operands.arg2 i.operands.second = some m' ∧ t.Accepts Q r m') :
  t.Correct Q
  := by
  intro m hpc hsp
  obtain ⟨r, sram, hprep, m', hexec, hv⟩ := h m hpc hsp
  refine ⟨r, i.encode, sram, none, hprep, ?_⟩
  intro flash hwords _
  exact ⟨m', takesTo_of_exec hQ hwords hexec, hv⟩

/-- The checks find nothing wrong where only registers have changed that the test case lists. -/
theorem accepts_of_kept
    (hm : m.regs = r) (hpc : m'.pc < 4096)
    (hanalyze : ∀ cellName flash st (c : AvrCore (WithEEprom δ)),
      Shows at90s8515 flash st (OnIo Q) 0 c m' → Performs cellName c (t.analyzeResults r m'.regs) c ())
    (hnext : t.isPcChecked = false → m'.pc = m.pc + 1)
    (hgpwr : ∀ j, Reg.R j ∉ t.regChanged → m'.gpwr j = m.gpwr j)
    (hsreg : Reg.SREG ∉ t.regChanged → m'.sreg = m.sreg)
    (hsp : Reg.SP ∉ t.regChanged → m'.sp = m.sp) :
  t.Accepts Q r m'
  := by
  subst hm
  refine ⟨hpc, hanalyze, ?_, ?_⟩
  · intro hchecked
    rw [hnext hchecked]
    change (m.pc + 1) * 2 = m.pc * 2 + 2
    omega
  · intro reg hlt hreg
    obtain ⟨j, rfl⟩ | rfl | rfl | rfl := register_cases reg
    · rw [Cpu.regs_gpwr, Cpu.regs_gpwr, hgpwr j hreg]
    · exact congrArg BitVec.toNat (hsreg hreg)
    · exact congrArg BitVec.toNat (hsp hreg)
    · exact absurd hlt (by decide)

/-- A test case whose `setup` only sets registers -/
theorem correct_of_ret
    (hQ : QuietDevices Q) {raw : Nat} {sets : Regs → Regs}
    (hsetup : ∀ regs, t.setup regs = .ret (sets regs, raw))
    (hopcode : t.commonBuildOpcode raw = some (imageBytes i.encode))
    (hsets : ∀ regs : Regs, regs.Valid → regs Reg.PC = 0 →
      (sets regs).Valid ∧ sets regs Reg.PC / 2 + i.encode.length ≤ 4096)
    (heffect : ∀ (m : Cpu) (regs : Regs), m.regs = sets regs → regs.Valid → regs Reg.PC = 0 →
      (t.stack = true → regs Reg.SP = spVal) →
        ∃ m', m.exec at90s8515 [] i.func i.operands.arg1 i.operands.arg2 i.operands.second = some m' ∧
          t.Accepts Q m.regs m') :
  t.Correct Q
  := by
  apply Correct.of_exec hQ i
  intro m hpc hsp
  have hrpc : m.regs Reg.PC = 0 := by
    change m.pc * 2 = 0
    rw [hpc]
  have hrsp : t.stack = true → m.regs Reg.SP = spVal := by
    intro hstack
    change m.sp.toNat = spVal
    rw [hsp hstack]
    rfl
  have hmvalid := m.regs_valid (by omega)
  obtain ⟨hvalid, hroom⟩ := hsets m.regs hmvalid hrpc
  have hregs := m.regs_withRegs hvalid
  refine ⟨sets m.regs, m.sram, prepares_of_ret (hsetup m.regs) hopcode hvalid hroom, ?_⟩
  have heffect' := heffect (m.withRegs (sets m.regs)) m.regs hregs hmvalid hrpc hrsp
  rw [hregs] at heffect'
  exact heffect'

end OpcodeTest

end

end SimulAvr
