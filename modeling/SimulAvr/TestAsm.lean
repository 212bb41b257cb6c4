import SimulAvr.IsaRules
import SimulAvr.ProgramRuns

/-!
# The assembler tests

The programs of `test_asm/test_8515` that count, with their counters as parameters: `test_stack.asm`
pushes the values of a counter onto the stack, and `test_cntr.asm` calls in a loop a subroutine that
is itself a loop.  For every value of the counters the simulator comes to the end of the program, in
the number of clocks that the instructions take, with the memory and the registers that the comments
of the tests expect.
-/

namespace SimulAvr

open MachineLogic Cpu

/-! ### The device -/

/-- The layout of an at90s8515 -/
def at90s8515 : Layout :=
  (AvrCore.construct defnAt90s8515 Peripherals.at90s8515).layout

theorem at90s8515_plain :
  at90s8515.Plain
  := by
  constructor <;> decide +kernel

theorem at90s8515_pcMax :
  at90s8515.pcMax = 4096
  := by
  decide +kernel

theorem at90s8515_isSram
    {a : Word} (h : 0x60 ≤ a.toNat ∧ a.toNat < 0x260) :
  at90s8515.IsSram a
  := by
  have hcell : defnAt90s8515.cell a.toNat = { vdev := some .sram, rdMask := 0xff, wrMask := 0xff } := by
    apply if_pos
    change (0x60 : Int) ≤ a.toNat ∧ (a.toNat : Int) < 0x60 + 512
    omega
  refine ⟨hcell, ?_, ?_, ?_⟩
  · change (a.toNat : Int) ≤ 0xffff
    omega
  · change (0x60 : Int) ≤ a.toNat
    omega
  · change (a.toNat : Int) < 0x60 + 512
    omega

/-! ### The beginning of the tests -/

/-- The interrupt vectors, of which that of the reset jumps to `MAIN`, and the instructions from
there on that set the stack pointer to `RAMEND` and a counter to `K` -/
def testStart (K : Byte) : List Instr :=
  .rjmp 12 :: List.replicate 12 .nop ++
    [.ldi 0 0x5f, .out 0x3d 16, .ldi 0 0x02, .out 0x3e 16, .ldi 0 K]

/-- `test_stack.asm`, which counts from `K`, up to its last instruction -/
def testStackLoop (K : Byte) : List Instr :=
  testStart K ++ [.push 16, .cpi 0 0, .breq 2, .dec 16, .rjmp (-5)]

def testStack (K : Byte) : List Instr :=
  testStackLoop K ++ [.nop]

/-- `test_cntr.asm`, of which the outer loop counts from `A` and the inner one from `B`, up to its last
instruction -/
def testCntrLoop (A B : Byte) : List Instr :=
  testStart A ++ [.cpi 0 0, .breq 9, .dec 16, .rcall 1, .rjmp (-5),
    .ldi 1 B, .cpi 1 0, .breq 2, .dec 17, .rjmp (-4), .ret]

def testCntr (A B : Byte) : List Instr :=
  testCntrLoop A B ++ [.nop]

/-- The view at the end of `testStart` -/
def Cpu.started (m : Cpu) (K : Byte) : Cpu :=
  { m with
    pc := 18, gpwr := Function.update m.gpwr 16 K, sp := 0x25f, clocks := m.clocks + 7 }

theorem start_run
    {m : Cpu} (hpc : m.pc = 0) (K : Byte) (rest : List Instr) :
  steps (step at90s8515 (testStart K ++ rest)) 6 m = some (m.started K)
  := by
  have hmax := at90s8515_pcMax
  let m₁ := m.after 13 2
  let m₂ := { m₁ with gpwr := Function.update m.gpwr 16 0x5f }.after 14 1
  let m₃ := { m₂ with sp := m.sp.extractLsb' 8 8 ++ (0x5f : Byte) }.after 15 1
  let m₄ := { m₃ with gpwr := Function.update m₂.gpwr 16 0x02 }.after 16 1
  let m₅ := { m₄ with sp := 0x25f }.after 17 1
  have h₁ : step at90s8515 (testStart K ++ rest) m = some m₁ :=
    step_rjmp (a := 0) (k := 12) (t := 13) hpc rfl (by decide) (by omega)
  have h₂ : step at90s8515 (testStart K ++ rest) m₁ = some m₂ :=
    step_ldi (a := 13) rfl (d := 0) rfl (by decide) (by omega)
  have h₃ : step at90s8515 (testStart K ++ rest) m₂ = some m₃ :=
    step_out_spl (a := 14) (d := 16) (r := 16) (by decide) rfl (by omega) rfl
  have h₄ : step at90s8515 (testStart K ++ rest) m₃ = some m₄ :=
    step_ldi (a := 15) rfl (d := 0) rfl (by decide) (by omega)
  have h₅ : step at90s8515 (testStart K ++ rest) m₄ = some m₅ := by
    have hlow : (m.sp.extractLsb' 8 8 ++ (0x5f : Byte)).extractLsb' 0 8 = 0x5f :=
      BitVec.extractLsb'_append_eq_right
    rw [step_out_sph (a := 16) (d := 16) (r := 16) (by decide) rfl (by omega) rfl]
    change some (Cpu.after { m₄ with
      sp := (0x02 : Byte) ++ (m.sp.extractLsb' 8 8 ++ (0x5f : Byte)).extractLsb' 0 8 } 17 1) = _
    rw [hlow]
    rfl
  have h₆ : step at90s8515 (testStart K ++ rest) m₅
      = some ({ m₅ with gpwr := Function.update m₄.gpwr 16 K }.after 18 1) :=
    step_ldi (a := 17) rfl (d := 0) rfl (by decide) (by omega)
  have hgpwr : Function.update (Function.update (Function.update m.gpwr 16 0x5f) 16 0x02) 16 K
      = Function.update m.gpwr 16 K := by
    rw [Function.update_idem, Function.update_idem]
  rw [steps_succ h₁, steps_succ h₂, steps_succ h₃, steps_succ h₄, steps_succ h₅, steps_succ h₆,
    Cpu.started, ← hgpwr]
  rfl

/-! ### Pushing numbers onto the stack -/

/-- The `n` bytes from `top` down are `K, K - 1, …`, and the others as in `old`. -/
structure Pushed (top : Word) (old : Word → Byte) (K n : Nat) (sram : Word → Byte) : Prop where
  pushed : ∀ i < n, sram (top - .ofNat 16 i) = .ofNat 8 (K - i)
  others : ∀ a, (∀ i < n, a ≠ top - .ofNat 16 i) → sram a = old a

theorem Pushed.push
    {top : Word} {old sram : Word → Byte} {K n : Nat} (h : Pushed top old K n sram)
    (hn : n < 2 ^ 16) :
  Pushed top old K (n + 1) (Function.update sram (top - .ofNat 16 n) (.ofNat 8 (K - n)))
  := by
  constructor
  · intro i hi
    by_cases hin : i = n
    · rw [hin, Function.update_self]
    · rw [Function.update_of_ne (stack_address_ne top (by omega) hn hin), h.pushed i (by omega)]
  · intro a ha
    rw [Function.update_of_ne (ha n (by omega)), h.others a (fun i hi => ha i (by omega))]

/-- The loop of `testStackLoop` with `k` numbers to push before the last one, from the state `m₀` with
the counter at `K` -/
structure Pushing (m₀ : Cpu) (K k : Nat) (m : Cpu) : Prop where
  le : k ≤ K
  pc : m.pc = 18
  gpwr : m.gpwr = Function.update m₀.gpwr 16 (.ofNat 8 k)
  sreg : m.sreg &&& 0xc0 = m₀.sreg &&& 0xc0
  sp : m.sp = m₀.sp - .ofNat 16 (K - k)
  sram : Pushed m₀.sp m₀.sram K (K - k) m.sram
  clocks : m.clocks + 7 * k = m₀.clocks + 7 * K

variable {m m₀ : Cpu} {K : Byte} {k : Nat}

/-- The push of the counter -/
theorem Pushing.push
    (h : Pushing m₀ K.toNat k m) (hsram : ∀ i ≤ K.toNat, at90s8515.IsSram (m₀.sp - .ofNat 16 i))
    (last : Instr) :
  ∃ m', step at90s8515 (testStackLoop K ++ [last]) m = some m' ∧ m'.pc = 19 ∧ m'.gpwr = m.gpwr ∧
    m'.sreg = m.sreg ∧ m'.sp = m₀.sp - .ofNat 16 (K.toNat - k + 1) ∧
    Pushed m₀.sp m₀.sram K.toNat (K.toNat - k + 1) m'.sram ∧ m'.clocks = m.clocks + 2
  := by
  have hmax := at90s8515_pcMax
  have hlt := K.isLt
  have hle := h.le
  have hpush := h.sram.push (by omega)
  have hsp := hsram (K.toNat - k) (by omega)
  rw [← h.sp] at hsp hpush
  have hval : m.gpwr 16 = .ofNat 8 (K.toNat - (K.toNat - k)) := by
    rw [h.gpwr, Function.update_self, Nat.sub_sub_self hle]
  rw [← hval] at hpush
  refine ⟨_, step_push (a := 18) h.pc (d := 16) (r := 16) rfl rfl hsp (by omega), rfl, rfl, rfl, ?_,
    hpush, rfl⟩
  change m.sp - 1 = _
  rw [h.sp, BitVec.sub_sub, BitVec.ofNat_add]
  rfl

/-- The head of the loop of `testStack` -/
theorem testStack_head
    (K : Byte) (last : Instr) :
  LoopHead (testStackLoop K ++ [last]) 19 16 23
  := ⟨0, 16, 2, by decide, by decide, by decide, rfl, rfl, rfl⟩

/-- A round of the loop -/
theorem pushing_round
    (hsram : ∀ i ≤ K.toNat, at90s8515.IsSram (m₀.sp - .ofNat 16 i)) (last : Instr) (k : Nat) :
  Leads (step at90s8515 (testStackLoop K ++ [last])) 5 (Pushing m₀ K.toNat (k + 1)) (Pushing m₀ K.toNat k)
  := by
  intro m h
  have hmax := at90s8515_pcMax
  have hlt := K.isLt
  have hle := h.le
  obtain ⟨m₁, h₁, hpc₁, hgpwr₁, hsreg₁, hsp₁, hsram₁, hclocks₁⟩ := h.push hsram last
  have hcounter : m₁.gpwr 16 = .ofNat 8 (k + 1) := by
    rw [hgpwr₁, h.gpwr, Function.update_self]
  obtain ⟨hne, hpred⟩ := ofNat_succ_sub (n := k) (by omega)
  rw [← hcounter] at hne hpred
  obtain ⟨sreg, hupper, h₂⟩ := (testStack_head K last).next (l := at90s8515) (by omega) hpc₁ hne
  have h₃ := @step_rjmp at90s8515 (testStackLoop K ++ [last])
    ({ m₁ with
      gpwr := Function.update m₁.gpwr 16 (m₁.gpwr 16 - 1), sreg := sreg }.after 22 3)
    22 rfl (-5) rfl 18 (by decide) (by omega)
  have hrest : K.toNat - k = K.toNat - (k + 1) + 1 := by omega
  refine ⟨_, steps_trans (steps_one h₁) (steps_trans h₂ (steps_one h₃)), ?_⟩
  constructor
  · omega
  · rfl
  · change Function.update m₁.gpwr 16 (m₁.gpwr 16 - 1) = _
    rw [hpred, hgpwr₁, h.gpwr, Function.update_idem]
  · rw [← h.sreg, ← hsreg₁, ← hupper]
    rfl
  · rw [hrest, ← hsp₁]
    rfl
  · rw [hrest]
    exact hsram₁
  · have hclocks := h.clocks
    change m₁.clocks + 3 + 2 + 7 * k = _
    omega

/-- What `testStack` leaves where it began in the state `m₀`, after `ck` clocks -/
structure StackTested (m₀ : Cpu) (K : Byte) (ck : Nat) (m : Cpu) : Prop where
  pc : m.pc = 23
  gpwr : m.gpwr = Function.update m₀.gpwr 16 0
  sreg : m.sreg = m₀.sreg &&& 0xc0 ||| 0x02
  sp : m.sp = 0x25f - .ofNat 16 (K.toNat + 1)
  sram : Pushed 0x25f m₀.sram K.toNat (K.toNat + 1) m.sram
  clocks : m.clocks = m₀.clocks + ck

/-- The end of the loop -/
theorem pushing_end
    (hsp : m₀.sp = 0x25f) (hsram : ∀ i ≤ K.toNat, at90s8515.IsSram (m₀.sp - .ofNat 16 i))
    (last : Instr) :
  Leads (step at90s8515 (testStackLoop K ++ [last])) 3 (Pushing m₀ K.toNat 0)
    (StackTested m₀ K (7 * K.toNat + 5))
  := by
  intro m h
  have hmax := at90s8515_pcMax
  obtain ⟨m₁, h₁, hpc₁, hgpwr₁, hsreg₁, hsp₁, hsram₁, hclocks₁⟩ := h.push hsram last
  rw [h.gpwr] at hgpwr₁
  have hzero : m₁.gpwr 16 = 0 := by
    rw [hgpwr₁, Function.update_self]
    rfl
  have h₂ := (testStack_head K last).exit (l := at90s8515) (by omega) (by omega) hpc₁ hzero
  refine ⟨_, steps_trans (steps_one h₁) h₂, ?_⟩
  constructor
  · rfl
  · exact hgpwr₁
  · change m₁.sreg &&& 0xc0 ||| 0x02 = _
    rw [hsreg₁, h.sreg]
  · rw [← hsp]
    exact hsp₁
  · rw [← hsp]
    exact hsram₁
  · have hclocks := h.clocks
    change m₁.clocks + 3 = _
    omega

/-- The addresses below the end of the SRAM -/
theorem stack_isSram
    {i : Nat} (hi : i < 512) :
  at90s8515.IsSram (0x25f - .ofNat 16 i)
  := by
  apply at90s8515_isSram
  rw [BitVec.toNat_sub, BitVec.toNat_ofNat]
  change 0x60 ≤ (2 ^ 16 - i % 2 ^ 16 + 0x25f) % 2 ^ 16 ∧ (2 ^ 16 - i % 2 ^ 16 + 0x25f) % 2 ^ 16 < 0x260
  omega

theorem Pushing.start
    (hpc : m₀.pc = 18) (hgpwr : m₀.gpwr 16 = K) :
  Pushing m₀ K.toNat K.toNat m₀
  := by
  constructor
  · exact Nat.le_refl _
  · exact hpc
  · rw [BitVec.ofNat_toNat, BitVec.setWidth_eq, ← hgpwr, Function.update_eq_self]
  · rfl
  · rw [Nat.sub_self]
    exact (BitVec.sub_zero _).symm
  · rw [Nat.sub_self]
    exact ⟨fun i hi => absurd hi (Nat.not_lt_zero i), fun a _ => rfl⟩
  · rfl

/-- The program from its beginning to its end -/
theorem testStack_leads
    (m₀ : Cpu) (K : Byte) (last : Instr) :
  Leads (step at90s8515 (testStackLoop K ++ [last])) (9 + 5 * K.toNat) (fun m => m = m₀ ∧ m.pc = 0)
    (StackTested m₀ K (7 * K.toNat + 12))
  := by
  rintro m ⟨rfl, hpc⟩
  have hlt := K.isLt
  have hsram : ∀ i ≤ K.toNat, at90s8515.IsSram ((m.started K).sp - .ofNat 16 i) :=
    fun i hi => stack_isSram (by omega)
  have hbegin : Pushing (m.started K) K.toNat K.toNat (m.started K) :=
    .start rfl rfl
  have hloop := Leads.loop (pushing_round hsram last) K.toNat
  obtain ⟨m', hrun, h'⟩ := (hloop.trans (pushing_end rfl hsram last)) _ hbegin
  refine ⟨m', ?_, h'.pc, ?_, h'.sreg, h'.sp, h'.sram, ?_⟩
  · have hcount : 9 + 5 * K.toNat = 6 + (K.toNat * 5 + 3) := by omega
    rw [hcount]
    exact (steps_add (start_run hpc K _)).trans hrun
  · rw [h'.gpwr]
    exact Function.update_idem _ _ _
  · rw [h'.clocks]
    change m.clocks + 7 + _ = _
    omega

/-! ### Calling a subroutine in a loop -/

variable {A B : Byte}

/-- The heads of the loops of `testCntr` -/
theorem testCntr_outer
    (A B : Byte) (last : Instr) :
  LoopHead (testCntrLoop A B ++ [last]) 18 16 29
  := ⟨0, 16, 9, by decide, by decide, by decide, rfl, rfl, rfl⟩

theorem testCntr_inner
    (A B : Byte) (last : Instr) :
  LoopHead (testCntrLoop A B ++ [last]) 24 17 28
  := ⟨1, 17, 2, by decide, by decide, by decide, rfl, rfl, rfl⟩

/-- The subroutine counts down and returns. -/
theorem inner_run
    (last : Instr) (hpc : m.pc = 23) {t : Nat} (ht : t < 4096)
    (hsp : at90s8515.IsSram (m.sp + 1)) (hsp' : at90s8515.IsSram (m.sp + 2))
    (hhigh : m.sram (m.sp + 1) = (BitVec.ofNat 16 t).extractLsb' 8 8)
    (hlow : m.sram (m.sp + 2) = (BitVec.ofNat 16 t).extractLsb' 0 8) :
  steps (step at90s8515 (testCntrLoop A B ++ [last])) (4 * B.toNat + 4) m = some ({ m with
    gpwr := Function.update m.gpwr 17 0, sreg := m.sreg &&& 0xc0 ||| 0x02,
    sp := m.sp + 2 }.after t (5 * B.toNat + 8))
  := by
  have hmax := at90s8515_pcMax
  let m₁ := { m with gpwr := Function.update m.gpwr 17 B }.after 24 1
  let m₂ := { m₁ with
    gpwr := Function.update m₁.gpwr 17 0,
    sreg := m₁.sreg &&& 0xc0 ||| 0x02 }.after 28 (5 * B.toNat + 3)
  have hcounter : m₁.gpwr 17 = .ofNat 8 B.toNat := by
    rw [BitVec.ofNat_toNat, BitVec.setWidth_eq]
    rfl
  have h₁ : step at90s8515 (testCntrLoop A B ++ [last]) m = some m₁ :=
    step_ldi (a := 23) hpc (d := 1) rfl rfl (by omega)
  have h₂ : steps (step at90s8515 (testCntrLoop A B ++ [last])) (4 * B.toNat + 2) m₁ = some m₂ :=
    (testCntr_inner A B last).delay (k := -4) rfl (by decide) (by omega) (by omega) B.isLt rfl hcounter
  have h₃ : step at90s8515 (testCntrLoop A B ++ [last]) m₂ = some ({ m₂ with sp := m.sp + 2 }.after t 4) :=
    step_ret (a := 28) rfl rfl (by omega) (by omega) hsp hsp' hhigh hlow
  have hcount : 4 * B.toNat + 4 = 1 + (4 * B.toNat + 2 + 1) := by omega
  rw [hcount]
  apply (steps_trans (steps_one h₁) (steps_trans h₂ (steps_one h₃))).trans
  apply congrArg some
  apply Cpu.ext
  · rfl
  · exact Function.update_idem _ _ _
  · rfl
  · rfl
  · rfl
  · change m.clocks + 1 + (5 * B.toNat + 3) + 4 = m.clocks + (5 * B.toNat + 8)
    omega

/-- The outer loop with `k` calls left, from the state `m₀` with the counter at `A` -/
structure Calling (m₀ : Cpu) (A B : Byte) (k : Nat) (m : Cpu) : Prop where
  le : k ≤ A.toNat
  pc : m.pc = 18
  counter : m.gpwr 16 = .ofNat 8 k
  inner : m.gpwr 17 = if k = A.toNat then m₀.gpwr 17 else 0
  gpwr : ∀ r, r ≠ 16 → r ≠ 17 → m.gpwr r = m₀.gpwr r
  sreg : m.sreg &&& 0xc0 = m₀.sreg &&& 0xc0
  sp : m.sp = 0x25f
  sram : ∀ a, a ≠ 0x25f → a ≠ 0x25e → m.sram a = m₀.sram a
  clocks : m.clocks + (5 * B.toNat + 16) * k = m₀.clocks + (5 * B.toNat + 16) * A.toNat

theorem upper_of_flags :
  ∀ sreg : Byte, (sreg &&& 0xc0 ||| 0x02) &&& 0xc0 = sreg &&& 0xc0
  := by
  decide +kernel

/-- A round of the outer loop -/
theorem calling_round
    (m₀ : Cpu) (last : Instr) (k : Nat) :
  Leads (step at90s8515 (testCntrLoop A B ++ [last])) (4 * B.toNat + 9) (Calling m₀ A B (k + 1)) (Calling m₀ A B k)
  := by
  intro m h
  have hmax := at90s8515_pcMax
  have hlt := A.isLt
  have hle := h.le
  obtain ⟨hne, hpred⟩ := ofNat_succ_sub (n := k) (by omega)
  rw [← h.counter] at hne hpred
  obtain ⟨sreg, hupper, h₁⟩ := (testCntr_outer A B last).next (l := at90s8515) (by omega) h.pc hne
  let m₁ := { m with gpwr := Function.update m.gpwr 16 (m.gpwr 16 - 1), sreg := sreg }.after 21 3
  let m₂ := { m₁ with
    sram := Function.update
      (Function.update m.sram m.sp ((BitVec.ofNat 16 22).extractLsb' 0 8)) (m.sp - 1)
      ((BitVec.ofNat 16 22).extractLsb' 8 8),
    sp := m.sp - 2 }.after 23 3
  have hsp₁ : m₂.sp + 1 = 0x25e := by
    change m.sp - 2 + 1 = _
    rw [h.sp]
    rfl
  have hsp₂ : m₂.sp + 2 = 0x25f := by
    change m.sp - 2 + 2 = _
    rw [h.sp]
    rfl
  have hsram : at90s8515.IsSram 0x25f ∧ at90s8515.IsSram 0x25e :=
    ⟨at90s8515_isSram (by decide), at90s8515_isSram (by decide)⟩
  have h₂ : step at90s8515 (testCntrLoop A B ++ [last]) m₁ = some m₂ := by
    apply step_rcall (a := 21) (k := 1) rfl (by decide) (by omega) rfl
    · change at90s8515.IsSram m.sp
      rw [h.sp]
      exact hsram.1
    · change at90s8515.IsSram (m.sp - 1)
      rw [h.sp]
      exact hsram.2
  have hreturn : m₂.sram 0x25e = (BitVec.ofNat 16 22).extractLsb' 8 8
      ∧ m₂.sram 0x25f = (BitVec.ofNat 16 22).extractLsb' 0 8 := by
    change Function.update _ (m.sp - 1) _ _ = _ ∧ Function.update _ (m.sp - 1) _ _ = _
    rw [h.sp]
    exact ⟨rfl, rfl⟩
  rw [← hsp₁, ← hsp₂] at hreturn hsram
  have h₃ := inner_run (A := A) (B := B) (m := m₂) (t := 22) last rfl (by decide) hsram.2 hsram.1
    hreturn.1 hreturn.2
  let m₃ := { m₂ with
    gpwr := Function.update m₂.gpwr 17 0, sreg := m₂.sreg &&& 0xc0 ||| 0x02,
    sp := m₂.sp + 2 }.after 22 (5 * B.toNat + 8)
  have h₄ : step at90s8515 (testCntrLoop A B ++ [last]) m₃ = some (m₃.after 18 2) :=
    step_rjmp (a := 22) (k := -5) (t := 18) rfl rfl (by decide) (by omega)
  have hcount : 4 * B.toNat + 9 = 3 + (1 + (4 * B.toNat + 4 + 1)) := by omega
  rw [hcount]
  refine ⟨_, steps_trans h₁ (steps_trans (steps_one h₂) (steps_trans h₃ (steps_one h₄))), ?_⟩
  constructor
  · omega
  · rfl
  · exact hpred
  · rw [if_neg (by omega)]
    rfl
  · intro r hr hr'
    change Function.update (Function.update m.gpwr 16 _) 17 _ r = _
    rw [Function.update_of_ne hr', Function.update_of_ne hr, h.gpwr r hr hr']
  · rw [← h.sreg, ← hupper]
    change (sreg &&& 0xc0 ||| 0x02) &&& 0xc0 = _
    apply upper_of_flags
  · exact hsp₂
  · intro a ha ha'
    have hlast : (0x25f : Word) - 1 = 0x25e := rfl
    change Function.update (Function.update m.sram m.sp _) (m.sp - 1) _ a = _
    rw [h.sp, hlast, Function.update_of_ne ha', Function.update_of_ne ha, h.sram a ha ha']
  · have hclocks := h.clocks
    change m.clocks + 3 + 3 + (5 * B.toNat + 8) + 2 + _ = _
    rw [← hclocks, Nat.mul_succ]
    omega

/-- What `testCntr` leaves where it began in the state `m₀`, after `ck` clocks -/
structure CntrTested (m₀ : Cpu) (A : Byte) (ck : Nat) (m : Cpu) : Prop where
  pc : m.pc = 29
  outer : m.gpwr 16 = 0
  inner : m.gpwr 17 = if A = 0 then m₀.gpwr 17 else 0
  gpwr : ∀ r, r ≠ 16 → r ≠ 17 → m.gpwr r = m₀.gpwr r
  sreg : m.sreg = m₀.sreg &&& 0xc0 ||| 0x02
  sp : m.sp = 0x25f
  sram : ∀ a, a ≠ 0x25f → a ≠ 0x25e → m.sram a = m₀.sram a
  clocks : m.clocks = m₀.clocks + ck

theorem calling_end
    (m₀ : Cpu) (last : Instr) :
  Leads (step at90s8515 (testCntrLoop A B ++ [last])) 2 (Calling m₀ A B 0)
    (CntrTested m₀ A ((5 * B.toNat + 16) * A.toNat + 3))
  := by
  intro m h
  have hmax := at90s8515_pcMax
  refine ⟨_, (testCntr_outer A B last).exit (by omega) (by omega) h.pc h.counter, rfl,
    h.counter, ?_, h.gpwr, ?_, h.sp, h.sram, ?_⟩
  · have hzero : 0 = A.toNat ↔ A = 0 := by
      rw [eq_comm, ← BitVec.toNat_inj]
      rfl
    refine h.inner.trans ?_
    simp only [hzero]
  · rw [← h.sreg]
    rfl
  · have hclocks := h.clocks
    change m.clocks + 3 = _
    omega

/-- The program from its beginning to its end -/
theorem testCntr_leads
    (m₀ : Cpu) (A B : Byte) (last : Instr) :
  Leads (step at90s8515 (testCntrLoop A B ++ [last])) (8 + A.toNat * (4 * B.toNat + 9)) (fun m => m = m₀ ∧ m.pc = 0)
    (CntrTested m₀ A ((5 * B.toNat + 16) * A.toNat + 10))
  := by
  rintro m ⟨rfl, hpc⟩
  have hbegin : Calling (m.started A) A B A.toNat (m.started A) := by
    constructor
    · exact Nat.le_refl _
    · rfl
    · rw [BitVec.ofNat_toNat, BitVec.setWidth_eq]
      rfl
    · rw [if_pos rfl]
    · intro r _ _
      rfl
    · rfl
    · rfl
    · intro a _ _
      rfl
    · rfl
  have hloop := Leads.loop (calling_round (A := A) (B := B) (m.started A) last) A.toNat
  obtain ⟨m', hrun, h'⟩ := (hloop.trans (calling_end (m.started A) last)) _ hbegin
  have hcount : 8 + A.toNat * (4 * B.toNat + 9) = 6 + (A.toNat * (4 * B.toNat + 9) + 2) := by omega
  rw [hcount]
  refine ⟨m', steps_trans (start_run hpc A _) hrun, h'.pc, h'.outer, h'.inner, ?_, h'.sreg, h'.sp,
    h'.sram, ?_⟩
  · intro r hr hr'
    rw [h'.gpwr r hr hr']
    exact Function.update_of_ne hr _ _
  · rw [h'.clocks]
    change m.clocks + 7 + _ = _
    omega

/-! ### The tests on the simulator -/

section

variable {δ : Type} [IoDevices δ] {Q : δ → Prop} {c : AvrCore δ}

/-- An at90s8515 whose peripherals do nothing -/
structure IsAt90s8515 (c : AvrCore δ) (Q : δ → Prop) : Prop where
  layout : c.layout = at90s8515
  stack : c.stack = .mem
  dev : Q c.dev
  quiet : QuietDevices Q
  reset : ResetKeeps Q

theorem IsAt90s8515.runnable
    (h : IsAt90s8515 c Q) :
  c.Runnable Q
  := by
  have hmax : c.pcMax = 4096 := by
    rw [← at90s8515_pcMax, ← h.layout]
    rfl
  refine ⟨?_, by omega, h.dev, h.stack⟩
  rw [h.layout]
  exact at90s8515_plain

theorem at90s8515_sreg :
  at90s8515.mem.SregAttached
  := ⟨0x5f, by decide +kernel⟩

theorem at90s8515_gpwr :
  at90s8515.mem.Attached .gpwr
  := ⟨0, by decide +kernel⟩

/-- A program that comes to its last instruction stops at a breakpoint there. -/
theorem IsAt90s8515.stops
    (h : IsAt90s8515 c Q) {prog : List Instr} (hroom : (encodeProgram prog).length < 4096) {n : Nat}
    {R : Cpu → Cpu → Prop}
    (hleads : ∀ m₀, Leads (step at90s8515 (prog ++ [.brk])) n (fun m => m = m₀ ∧ m.pc = 0)
      (fun m => m.pc = (encodeProgram prog).length ∧ R m₀ m))
    (inst : Word) (occurred : List Bool) :
  ∃ m₀ m flash c', (runImage (imageBytes (encodeProgram (prog ++ [.nop]))) inst
      [2 * (encodeProgram prog).length] (List.replicate n false ++ false :: occurred)).run c
        = .ok (some n, c') ∧
    Shows at90s8515 flash .running Q 0 c' m ∧ R m₀ m ∧
    m₀.sram = c.sramByte ∧ m₀.clocks = c.ck ∧ m₀.sreg = 0 ∧ m₀.gpwr = fun _ => 0
  := by
  have hbase : c.flash.base = 0 := by
    change c.layout.flashBase = 0
    rw [h.layout]
    rfl
  have hsize : c.flash.size = 8192 := by
    change c.layout.flashSize = 8192
    rw [h.layout]
    rfl
  have hsreg : c.mem.SregAttached := by
    change c.layout.mem.SregAttached
    rw [h.layout]
    exact at90s8515_sreg
  have hgpwr : c.mem.Attached .gpwr := by
    change c.layout.mem.Attached .gpwr
    rw [h.layout]
    exact at90s8515_gpwr
  have hlength : (encodeProgram (prog ++ [.nop])).length = (encodeProgram prog).length + 1 := by
    rw [encodeProgram_append, List.length_append]
    rfl
  rw [← h.layout] at hleads
  obtain ⟨m₀, m, flash, c', hrun, h', hm, hsram, hclocks, hsreg₀, hgpwr₀⟩ :=
    runImage_stops h.runnable h.quiet h.reset hbase (show Instr.nop.operands.second = none from rfl)
      (by omega) hleads inst occurred
  rw [h.layout] at h'
  exact ⟨m₀, m, flash, c', hrun, h', hm, hsram, hclocks, hsreg₀ hsreg, hgpwr₀ hgpwr⟩

/-- The simulator with the image of `test_stack.asm` and a breakpoint at the last instruction stops
there: the bytes at the end of the SRAM count down to zero, the stack pointer is below them, and of
the flags only Z is set. -/
theorem test_stack
    (h : IsAt90s8515 c Q) (K : Byte) (inst : Word) (occurred : List Bool) :
  ∃ c', (runImage (imageBytes (encodeProgram (testStack K))) inst [2 * 23]
      (List.replicate (9 + 5 * K.toNat) false ++ false :: occurred)).run c
        = .ok (some (9 + 5 * K.toNat), c') ∧
    c'.pc = 23 ∧ c'.sreg = 0x02 ∧ c'.spGet = 0x25f - .ofNat 16 (K.toNat + 1) ∧
    (∀ i ≤ K.toNat, c'.sramByte (0x25f - .ofNat 16 i) = .ofNat 8 (K.toNat - i)) ∧
    (∀ a, at90s8515.IsSram a → (∀ i ≤ K.toNat, a ≠ 0x25f - .ofNat 16 i) →
      c'.sramByte a = c.sramByte a) ∧
    c'.ck = c.ck + (7 * K.toNat + 12)
  := by
  have hlt := K.isLt
  have hleads : ∀ m₀, Leads (step at90s8515 (testStackLoop K ++ [.brk])) (9 + 5 * K.toNat)
      (fun m => m = m₀ ∧ m.pc = 0)
      (fun m => m.pc = 23 ∧ StackTested m₀ K (7 * K.toNat + 12) m) :=
    fun m₀ => (testStack_leads m₀ K .brk).conseq (fun _ => id) fun m hm => ⟨hm.pc, hm⟩
  obtain ⟨m₀, m, flash, c', hrun, h', hm, hsram, hclocks, hsreg, -⟩ :=
    h.stops (show (encodeProgram (testStackLoop K)).length < 4096 from (by decide : 23 < 4096))
      hleads inst occurred
  refine ⟨c', hrun, ?_, ?_, ?_, ?_, ?_, ?_⟩
  · rw [h'.pc, hm.pc]
    rfl
  · rw [h'.sreg, hm.sreg, hsreg]
    rfl
  · rw [h'.sp, hm.sp]
  · intro i hi
    rw [h'.sram _ (stack_isSram (by omega)), hm.sram.pushed i (by omega)]
  · intro a ha hne
    rw [h'.sram a ha, hm.sram.others a (fun i hi => hne i (by omega)), hsram]
  · rw [← hclocks, ← hm.clocks]
    exact h'.clocks

/-- The same for `test_cntr.asm`, whose clocks are those of `A` calls of a subroutine that counts
from `B`. -/
theorem test_cntr
    (h : IsAt90s8515 c Q) (A B : Byte) (inst : Word) (occurred : List Bool) :
  ∃ c', (runImage (imageBytes (encodeProgram (testCntr A B))) inst [2 * 29]
      (List.replicate (8 + A.toNat * (4 * B.toNat + 9)) false ++ false :: occurred)).run c
        = .ok (some (8 + A.toNat * (4 * B.toNat + 9)), c') ∧
    c'.pc = 29 ∧ c'.gpwr 16 = 0 ∧ c'.gpwr 17 = 0 ∧ c'.sreg = 0x02 ∧ c'.spGet = 0x25f ∧
    (∀ a, at90s8515.IsSram a → a ≠ 0x25f → a ≠ 0x25e → c'.sramByte a = c.sramByte a) ∧
    c'.ck = c.ck + ((5 * B.toNat + 16) * A.toNat + 10)
  := by
  have hleads : ∀ m₀, Leads (step at90s8515 (testCntrLoop A B ++ [.brk]))
      (8 + A.toNat * (4 * B.toNat + 9)) (fun m => m = m₀ ∧ m.pc = 0)
      (fun m => m.pc = 29 ∧ CntrTested m₀ A ((5 * B.toNat + 16) * A.toNat + 10) m) :=
    fun m₀ => (testCntr_leads m₀ A B .brk).conseq (fun _ => id) fun m hm => ⟨hm.pc, hm⟩
  obtain ⟨m₀, m, flash, c', hrun, h', hm, hsram, hclocks, hsreg, hgpwr⟩ :=
    h.stops (show (encodeProgram (testCntrLoop A B)).length < 4096 from (by decide : 29 < 4096))
      hleads inst occurred
  refine ⟨c', hrun, ?_, ?_, ?_, ?_, ?_, ?_, ?_⟩
  · rw [h'.pc, hm.pc]
    rfl
  · rw [h'.gpwr, hm.outer]
  · -- the reset has cleared the inner counter, if no call has
    rw [h'.gpwr, hm.inner, hgpwr]
    split <;> rfl
  · rw [h'.sreg, hm.sreg, hsreg]
    rfl
  · rw [h'.sp, hm.sp]
  · intro a ha hne hne'
    rw [h'.sram a ha, hm.sram a hne hne', hsram]
  · rw [← hclocks, ← hm.clocks]
    exact h'.clocks

end

/-! ### A device after its construction -/

theorem construct_isAt90s8515 :
  IsAt90s8515 (AvrCore.construct defnAt90s8515 Peripherals.at90s8515) Peripherals.Quiet
  := ⟨rfl, rfl, Peripherals.at90s8515_quiet, quiet_peripherals, resetKeeps_peripherals⟩

/-- The counter of the source is 3, which leaves the bytes 0, 1, 2, 3 at the end of the SRAM. -/
theorem test_stack_three :
  ∃ c', (runImage (imageBytes (encodeProgram (testStack 3))) 0 [46]
      (List.replicate 24 false ++ [false])).run
        (AvrCore.construct defnAt90s8515 Peripherals.at90s8515)
        = .ok (some 24, c') ∧
    c'.sreg = 0x02 ∧ c'.spGet = 0x25b ∧
    c'.sramByte 0x25c = 0 ∧ c'.sramByte 0x25d = 1 ∧ c'.sramByte 0x25e = 2 ∧ c'.sramByte 0x25f = 3
  := by
  obtain ⟨c', hrun, -, hsreg, hsp, hsram, -, -⟩ := test_stack construct_isAt90s8515 3 0 []
  exact ⟨c', hrun, hsreg, hsp, hsram 3 (by decide), hsram 2 (by decide), hsram 1 (by decide),
    hsram 0 (by decide)⟩

/-- Both counters of the source are 255. -/
theorem test_cntr_source :
  ∃ c', (runImage (imageBytes (encodeProgram (testCntr 0xff 0xff))) 0 [58]
      (List.replicate 262403 false ++ [false])).run
        (AvrCore.construct defnAt90s8515 Peripherals.at90s8515)
        = .ok (some 262403, c') ∧ c'.spGet = 0x25f ∧ c'.ck = 329215
  := by
  obtain ⟨c', hrun, -, -, -, -, hsp, -, hck⟩ :=
    test_cntr construct_isAt90s8515 0xff 0xff 0 []
  exact ⟨c', hrun, hsp, hck⟩

end SimulAvr
