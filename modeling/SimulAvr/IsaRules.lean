import SimulAvr.Alu.Refinement
import SimulAvr.Isa
import Mathlib.Tactic.IntervalCases

/-!
# Rules for the instructions of a program

What single instructions do to the programmer's view, under the address at which they stand in the
program, and the rules for the loops that the assembler tests are made of: the head of a loop
compares a counter with zero, leaves the loop, or counts down.
-/

namespace SimulAvr

open MachineLogic

/-! ### Instructions -/

namespace Instr

/-- `nop` -/
def nop : Instr where
  func := .NOP
  operands := .none
  known := nofun
  form := rfl
  words := ⟨nofun, fun h => absurd h (by decide)⟩

/-- `ldi Rd, K` for one of the registers from R16 on -/
def ldi (d : BitVec 4) (K : Byte) : Instr where
  func := .LDI
  operands := .rd4K8 d K
  known := nofun
  form := rfl
  words := ⟨nofun, fun h => absurd h (by decide)⟩

/-- `cpi Rd, K` -/
def cpi (d : BitVec 4) (K : Byte) : Instr where
  func := .CPI
  operands := .rd4K8 d K
  known := nofun
  form := rfl
  words := ⟨nofun, fun h => absurd h (by decide)⟩

/-- `dec Rd` -/
def dec (d : BitVec 5) : Instr where
  func := .DEC
  operands := .rd5 d
  known := nofun
  form := rfl
  words := ⟨nofun, fun h => absurd h (by decide)⟩

/-- `breq k` -/
def breq (k : BitVec 7) : Instr where
  func := .BRBS
  operands := .bitk7 1 k
  known := nofun
  form := rfl
  words := ⟨nofun, fun h => absurd h (by decide)⟩

/-- `rjmp k` -/
def rjmp (k : BitVec 12) : Instr where
  func := .RJMP
  operands := .k12 k
  known := by decide
  form := rfl
  words := ⟨nofun, fun h => absurd h (by decide)⟩

/-- `rcall k` -/
def rcall (k : BitVec 12) : Instr where
  func := .RCALL
  operands := .k12 k
  known := nofun
  form := rfl
  words := ⟨nofun, fun h => absurd h (by decide)⟩

/-- `ret` -/
def ret : Instr where
  func := .RET
  operands := .none
  known := nofun
  form := rfl
  words := ⟨nofun, fun h => absurd h (by decide)⟩

/-- `push Rd` -/
def push (d : BitVec 5) : Instr where
  func := .PUSH
  operands := .rd5 d
  known := nofun
  form := rfl
  words := ⟨nofun, fun h => absurd h (by decide)⟩

/-- `out A, Rd` -/
def out (A : BitVec 6) (d : BitVec 5) : Instr where
  func := .OUT
  operands := .rd5a6 d A
  known := nofun
  form := rfl
  words := ⟨nofun, fun h => absurd h (by decide)⟩

/-- `break` -/
def brk : Instr where
  func := .BREAK
  operands := .none
  known := nofun
  form := rfl
  words := ⟨nofun, fun h => absurd h (by decide)⟩

end Instr

namespace Cpu

/-- The view with the program counter at `t` and `n` more clocks -/
def after (m : Cpu) (t n : Nat) : Cpu :=
  { m with pc := t, clocks := m.clocks + n }

variable {l : Layout} {prog : List Instr} {m m' : Cpu} {i : Instr}

theorem goto_eq
    {t : Int} {n a : Nat} (ht : t = a) (h : (a : Int) < l.pcMax) :
  m.goto l t n = some (m.after a n)
  := by
  subst ht
  rw [goto, if_pos ⟨Int.natCast_nonneg _, h⟩]
  rfl

theorem reg_eq
    (m : Cpu) {d : BitVec 5} {r : Fin 32} (hr : d.toNat = r.val) :
  m.reg d.toNat = m.gpwr r
  := by
  rw [hr, reg, ofNat_toNat_register]

/-- The number of one of the registers from R16 on -/
theorem ofNat_upper
    {d : BitVec 4} {r : Fin 32} (hr : r.val = 16 + d.toNat) :
  Fin.ofNat 32 ((16 : Int) + d.toNat).toNat = r
  := by
  apply Fin.ext
  rw [hr, Fin.val_ofNat]
  have := d.isLt
  omega

/-! ### One instruction -/

section

variable {a : Nat} (hpc : m.pc = a)

include hpc

theorem step_at
    (hi : instrAt prog a = some i) :
  m.step l prog = m.exec l prog i.func i.operands.arg1 i.operands.arg2 i.operands.second
  := by
  rw [step, hpc, hi]
  rfl

theorem step_rjmp
    {k : BitVec 12} (hi : instrAt prog a = some (.rjmp k)) {t : Nat} (ht : a + k.toInt + 1 = t)
    (hmax : (t : Int) < l.pcMax) :
  m.step l prog = some (m.after t 2)
  := by
  rw [step_at hpc hi]
  apply goto_eq _ hmax
  rw [hpc]
  exact ht

theorem step_alu
    (hi : instrAt prog a = some i) (hfunc : i.func ∈ aluOpcodes)
    (hmax : ((a + 1 : Nat) : Int) < l.pcMax) :
  let effect := aluReference i.func i.operands.arg1 i.operands.arg2 m.registers
  m.step l prog = some ({ m with
    gpwr := effect.gpwr m.gpwr, sreg := effect.flags.apply m.sreg }.after (a + 1)
      effect.clocks.toNat)
  := by
  rw [step_at hpc hi]
  unfold exec
  rw [if_pos hfunc]
  apply goto_eq _ hmax
  rw [hpc]
  rfl

theorem step_ldi
    {d : BitVec 4} {K : Byte} {r : Fin 32} (hi : instrAt prog a = some (.ldi d K))
    (hr : r.val = 16 + d.toNat) (hmax : ((a + 1 : Nat) : Int) < l.pcMax) :
  m.step l prog = some ({ m with gpwr := Function.update m.gpwr r K }.after (a + 1) 1)
  := by
  have hreg := ofNat_upper hr
  have hK : BitVec.ofInt 8 K.toNat = K := by
    rw [BitVec.ofInt_natCast, BitVec.ofNat_toNat, BitVec.setWidth_eq]
  rw [step_alu hpc hi (by decide : OpcodeName.LDI ∈ aluOpcodes) hmax, ← hreg]
  change some (Cpu.after { m with
    gpwr := Function.update m.gpwr _ (.ofInt 8 K.toNat), sreg := Flags.apply [] m.sreg } _ 1) = _
  rw [hK, Flags.apply_nil]
  rfl

theorem step_push
    {d : BitVec 5} {r : Fin 32} (hi : instrAt prog a = some (.push d)) (hr : d.toNat = r.val)
    (hsp : l.IsSram m.sp) (hmax : ((a + 1 : Nat) : Int) < l.pcMax) :
  m.step l prog = some ({ m with
    sram := Function.update m.sram m.sp (m.gpwr r), sp := m.sp - 1 }.after (a + 1) 2)
  := by
  rw [← reg_eq m hr]
  rw [step_at hpc hi]
  change (m.push l (m.reg d.toNat) >>= _) = _
  rw [push, store, if_pos hsp]
  apply goto_eq _ hmax
  rw [hpc]
  rfl

end

/-! ### The head of a loop -/

/-- Flags that are no more than the six lower ones leave T and I. -/
theorem apply_and_upper
    {flags : Flags} (h : ∀ flag ∈ flags, flag.1 < 6) (sreg : Byte) :
  flags.apply sreg &&& 0xc0 = sreg &&& 0xc0
  := by
  apply byte_ext
  intro i hi
  rw [BitVec.getLsbD_and, BitVec.getLsbD_and, Flags.getLsbD_apply _ _ hi, Flags.bit]
  by_cases hlow : i < 6
  · have hmask : (0xc0 : Byte).getLsbD i = false := by
      interval_cases i <;> rfl
    rw [hmask, Bool.and_false, Bool.and_false]
  · have hlookup : flags.lookup i = none := by
      rw [List.lookup_eq_none_iff]
      intro flag hflag
      have := h flag hflag
      rw [bne_iff_ne]
      omega
    rw [hlookup]
    rfl

/-- The flags of the comparison of zero with zero -/
theorem subFlags_zero :
  ∀ sreg : Byte, (Reference.subFlags 0 0 0 0 0).apply sreg = sreg &&& 0xc0 ||| 0x02
  := by
  decide +kernel

variable {a done : Nat} {r : Fin 32}

/-- The comparison with zero, by which Z tells whether the counter is zero -/
theorem step_cpi_zero
    {d : BitVec 4} (hr : r.val = 16 + d.toNat) (hi : instrAt prog a = some (.cpi d 0))
    (hmax : ((a + 1 : Nat) : Int) < l.pcMax) (hpc : m.pc = a) :
  ∃ sreg, sreg &&& 0xc0 = m.sreg &&& 0xc0 ∧ (sreg.getLsbD 1 = true ↔ m.gpwr r = 0) ∧
    (m.gpwr r = 0 → sreg = m.sreg &&& 0xc0 ||| 0x02) ∧
    m.step l prog = some ({ m with sreg := sreg }.after (a + 1) 1)
  := by
  have hreg := ofNat_upper hr
  have hstep := step_alu hpc hi (by decide : OpcodeName.CPI ∈ aluOpcodes) hmax
  refine ⟨(Reference.subFlags (m.gpwr r).toNat 0 (m.gpwr r).toInt 0 0).apply m.sreg, ?_, ?_, ?_, ?_⟩
  · apply apply_and_upper
    simp [Reference.subFlags, Reference.intFlags, Reference.resultFlags, SREG.C, SREG.H, SREG.N,
      SREG.V, SREG.S, SREG.Z]
  · have hlt := (m.gpwr r).isLt
    rw [Flags.getLsbD_apply _ _ (by decide)]
    change decide (((m.gpwr r).toNat - 0 - 0 : Int) % 2 ^ 8 = 0) = true ↔ _
    rw [decide_eq_true_iff, ← BitVec.toNat_inj]
    change _ ↔ (m.gpwr r).toNat = 0
    omega
  · intro hzero
    rw [hzero]
    apply subFlags_zero
  · rw [← hreg]
    exact hstep

theorem step_breq_taken
    {k : BitVec 7} (hi : instrAt prog a = some (.breq k)) (ht : (a : Int) + k.toInt + 1 = done)
    (hmax : (done : Int) < l.pcMax) (hpc : m.pc = a) (hZ : m.sreg.getLsbD 1 = true) :
  m.step l prog = some (m.after done 2)
  := by
  rw [step_at hpc hi]
  change (if m.sreg.getLsbD 1 = true then m.goto l (m.pc + k.toInt + 1) 2 else _) = _
  rw [if_pos hZ]
  apply goto_eq _ hmax
  rw [hpc]
  exact ht

theorem step_breq_not_taken
    {k : BitVec 7} (hi : instrAt prog a = some (.breq k))
    (hmax : ((a + 1 : Nat) : Int) < l.pcMax) (hpc : m.pc = a) (hZ : ¬ m.sreg.getLsbD 1 = true) :
  m.step l prog = some (m.after (a + 1) 1)
  := by
  rw [step_at hpc hi]
  change (if m.sreg.getLsbD 1 = true then _ else m.next l 1) = _
  rw [if_neg hZ]
  apply goto_eq _ hmax
  rw [hpc]
  rfl

theorem step_dec
    {d : BitVec 5} (hr : d.toNat = r.val) (hi : instrAt prog a = some (.dec d))
    (hmax : ((a + 1 : Nat) : Int) < l.pcMax) (hpc : m.pc = a) :
  ∃ sreg, sreg &&& 0xc0 = m.sreg &&& 0xc0 ∧
    m.step l prog = some ({ m with
      gpwr := Function.update m.gpwr r (m.gpwr r - 1), sreg := sreg }.after (a + 1) 1)
  := by
  have hreg : Fin.ofNat 32 ((d.toNat : Int)).toNat = r := by
    rw [hr]
    exact ofNat_toNat_register r
  have hval : BitVec.ofInt 8 ((m.gpwr r).toNat - 1) = m.gpwr r - 1 := by
    have hlt := (m.gpwr r).isLt
    apply BitVec.eq_of_toNat_eq
    rw [BitVec.toNat_ofInt, BitVec.toNat_sub]
    change ((((m.gpwr r).toNat : Int) - 1) % (2 ^ 8 : Nat)).toNat
      = (2 ^ 8 - 1 + (m.gpwr r).toNat) % 2 ^ 8
    omega
  have hstep := step_alu hpc hi (by decide : OpcodeName.DEC ∈ aluOpcodes) hmax
  refine ⟨(Reference.intFlags 8 ((m.gpwr r).toNat - 1) ((m.gpwr r).toInt - 1)).apply m.sreg, ?_, ?_⟩
  · apply apply_and_upper
    simp [Reference.intFlags, Reference.resultFlags, SREG.N, SREG.V, SREG.S, SREG.Z]
  · rw [← hval, ← hreg]
    exact hstep

/-- The code at the head of a loop: `cpi Rd, 0`, `breq k` and `dec Rd` -/
structure LoopHead (prog : List Instr) (a : Nat) (r : Fin 32) (done : Nat) : Prop where
  code : ∃ d d' k, r.val = 16 + d.toNat ∧ d'.toNat = r.val ∧ ((a + 1 : Nat) : Int) + k.toInt + 1 = done ∧
    instrAt prog a = some (.cpi d 0) ∧ instrAt prog (a + 1) = some (.breq k) ∧
    instrAt prog (a + 2) = some (.dec d')

/-- A round begins. -/
theorem LoopHead.next
    (h : LoopHead prog a r done) (hmax : ((a + 3 : Nat) : Int) < l.pcMax) (hpc : m.pc = a)
    (hne : m.gpwr r ≠ 0) :
  ∃ sreg, sreg &&& 0xc0 = m.sreg &&& 0xc0 ∧
    steps (step l prog) 3 m = some ({ m with
      gpwr := Function.update m.gpwr r (m.gpwr r - 1), sreg := sreg }.after (a + 3) 3)
  := by
  obtain ⟨d, d', k, hd, hd', -, hcpi, hbreq, hdec⟩ := h.code
  obtain ⟨sreg₁, hupper₁, hZ, -, hstep₁⟩ := step_cpi_zero (l := l) hd hcpi (by omega) hpc
  have hstep₂ := step_breq_not_taken (l := l) (m := { m with sreg := sreg₁ }.after (a + 1) 1) hbreq
    (by omega) rfl (mt hZ.mp hne)
  obtain ⟨sreg₃, hupper₃, hstep₃⟩ := step_dec (l := l)
    (m := ({ m with sreg := sreg₁ }.after (a + 1) 1).after (a + 2) 1) hd' hdec (by omega) rfl
  refine ⟨sreg₃, hupper₃.trans hupper₁, ?_⟩
  rw [steps_succ hstep₁, steps_succ hstep₂, steps_succ hstep₃]
  rfl

/-- The loop ends. -/
theorem LoopHead.exit
    (h : LoopHead prog a r done) (hmax : ((a + 1 : Nat) : Int) < l.pcMax)
    (hdone : (done : Int) < l.pcMax) (hpc : m.pc = a) (hzero : m.gpwr r = 0) :
  steps (step l prog) 2 m = some ({ m with sreg := m.sreg &&& 0xc0 ||| 0x02 }.after done 3)
  := by
  obtain ⟨d, d', k, hd, hd', hk, hcpi, hbreq, hdec⟩ := h.code
  obtain ⟨sreg₁, -, hZ, hsreg, hstep₁⟩ := step_cpi_zero hd hcpi hmax hpc
  have hstep₂ := step_breq_taken (l := l) (m := { m with sreg := sreg₁ }.after (a + 1) 1) hbreq hk
    hdone rfl (hZ.mpr hzero)
  rw [steps_succ hstep₁, steps_succ hstep₂, hsreg hzero]
  rfl

/-- The counter of the next round -/
theorem ofNat_succ_sub
    {n : Nat} (hn : n + 1 < 256) :
  BitVec.ofNat 8 (n + 1) ≠ 0 ∧ BitVec.ofNat 8 (n + 1) - 1 = .ofNat 8 n
  := by
  constructor
  · rw [ne_eq, ← BitVec.toNat_inj, BitVec.toNat_ofNat]
    change ¬ (n + 1) % 2 ^ 8 = 0
    omega
  · rw [BitVec.ofNat_add]
    exact BitVec.add_sub_cancel _ _

/-- A loop with nothing but its head and a jump back to it -/
theorem LoopHead.delay
    (h : LoopHead prog a r done) {k : BitVec 12} (hi : instrAt prog (a + 3) = some (.rjmp k))
    (hback : ((a + 3 : Nat) : Int) + k.toInt + 1 = a) (hmax : ((a + 3 : Nat) : Int) < l.pcMax)
    (hdone : (done : Int) < l.pcMax) {n : Nat} (hn : n < 256) (hpc : m.pc = a)
    (hcounter : m.gpwr r = .ofNat 8 n) :
  steps (step l prog) (4 * n + 2) m = some ({ m with
    gpwr := Function.update m.gpwr r 0, sreg := m.sreg &&& 0xc0 ||| 0x02 }.after done (5 * n + 3))
  := by
  induction n generalizing m with
  | zero =>
    have hgpwr : Function.update m.gpwr r 0 = m.gpwr := by
      rw [Function.update_eq_self_iff]
      exact hcounter.symm
    rw [hgpwr]
    exact h.exit (by omega) hdone hpc hcounter
  | succ n ih =>
    obtain ⟨hne, hpred⟩ := ofNat_succ_sub hn
    rw [← hcounter] at hne hpred
    obtain ⟨sreg, hupper, hhead⟩ := h.next hmax hpc hne
    let m₁ := { m with
      gpwr := Function.update m.gpwr r (m.gpwr r - 1), sreg := sreg }.after (a + 3) 3
    have hjump : step l prog m₁ = some (m₁.after a 2) := step_rjmp rfl hi hback (by omega)
    have hround : steps (step l prog) 4 m = some (m₁.after a 2) :=
      (steps_add (n := 1) hhead).trans (steps_succ hjump)
    have hcount : 4 * (n + 1) + 2 = 4 + (4 * n + 2) := by omega
    have hrest := ih (m := m₁.after a 2) (by omega) rfl
      ((Function.update_self _ _ _).trans hpred)
    rw [hcount, steps_add hround, hrest]
    congr 1
    apply Cpu.ext
    · rfl
    · exact Function.update_idem _ _ _
    · change sreg &&& 0xc0 ||| 0x02 = _
      rw [hupper]
      rfl
    · rfl
    · rfl
    · change m.clocks + 3 + 2 + (5 * n + 3) = m.clocks + (5 * (n + 1) + 3)
      omega

/-! ### Calls -/

theorem step_rcall
    {k : BitVec 12} (hi : instrAt prog a = some (.rcall k)) (ht : (a : Int) + k.toInt + 1 = done)
    (hmax : (done : Int) < l.pcMax) (hpc : m.pc = a) (hsp : l.IsSram m.sp)
    (hsp' : l.IsSram (m.sp - 1)) :
  m.step l prog = some ({ m with
    sram := Function.update
      (Function.update m.sram m.sp ((BitVec.ofNat 16 (a + 1)).extractLsb' 0 8)) (m.sp - 1)
      ((BitVec.ofNat 16 (a + 1)).extractLsb' 8 8),
    sp := m.sp - 2 }.after done 3)
  := by
  rw [step_at hpc hi]
  change (m.pushWord l (.ofNat 16 (m.pc + 1)) >>= _) = _
  rw [pushWord, store, if_pos hsp, hpc]
  change (store l _ (m.sp - 1) _ >>= _) >>= _ = _
  rw [store, if_pos hsp']
  apply goto_eq _ hmax
  rw [← ht, ← hpc]
  rfl

theorem step_ret
    (hi : instrAt prog a = some .ret) (hpc : m.pc = a) (hdone : done < 2 ^ 16)
    (hmax : (done : Int) < l.pcMax) (hsp : l.IsSram (m.sp + 1)) (hsp' : l.IsSram (m.sp + 2))
    (hhigh : m.sram (m.sp + 1) = (BitVec.ofNat 16 done).extractLsb' 8 8)
    (hlow : m.sram (m.sp + 2) = (BitVec.ofNat 16 done).extractLsb' 0 8) :
  m.step l prog = some ({ m with sp := m.sp + 2 }.after done 4)
  := by
  have hload : m.load l (m.sp + 1) = some ((BitVec.ofNat 16 done).extractLsb' 8 8) := by
    rw [load, if_pos hsp, hhigh]
  have hload' : m.load l (m.sp + 2) = some ((BitVec.ofNat 16 done).extractLsb' 0 8) := by
    rw [load, if_pos hsp', hlow]
  have hpop : m.popWord l = some (.ofNat 16 done, { m with sp := m.sp + 2 }) := by
    rw [popWord, hload]
    change (m.load l (m.sp + 2) >>= _) = _
    rw [hload']
    change some (_ ++ _, _) = _
    rw [extractLsb'_append_self]
  rw [step_at hpc hi]
  change (m.popWord l >>= fun r => r.2.goto l r.1.toNat 4) = _
  rw [hpop]
  apply goto_eq _ hmax
  rw [BitVec.toNat_ofNat, Nat.mod_eq_of_lt hdone]

/-! ### The stack pointer -/

theorem step_out_spl
    {d : BitVec 5} (hr : d.toNat = r.val) (hi : instrAt prog a = some (.out 0x3d d))
    (hmax : ((a + 1 : Nat) : Int) < l.pcMax) (hpc : m.pc = a) :
  m.step l prog = some ({ m with sp := m.sp.extractLsb' 8 8 ++ m.gpwr r }.after (a + 1) 1)
  := by
  rw [step_at hpc hi, ← reg_eq m hr]
  apply goto_eq _ hmax
  rw [hpc]
  rfl

theorem step_out_sph
    {d : BitVec 5} (hr : d.toNat = r.val) (hi : instrAt prog a = some (.out 0x3e d))
    (hmax : ((a + 1 : Nat) : Int) < l.pcMax) (hpc : m.pc = a) :
  m.step l prog = some ({ m with sp := m.gpwr r ++ m.sp.extractLsb' 0 8 }.after (a + 1) 1)
  := by
  rw [step_at hpc hi, ← reg_eq m hr]
  apply goto_eq _ hmax
  rw [hpc]
  rfl

end Cpu

end SimulAvr
