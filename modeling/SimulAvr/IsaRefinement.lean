import SimulAvr.Alu.Refinement
import SimulAvr.Interrupts
import SimulAvr.IsaRules
import SimulAvr.Peripherals.Dispatch
import SimulAvr.PointerWalks

/-!
# The simulator refines the programmer's view

A core shows a view where its registers, its program counter, its stack pointer and its SRAM are
those of the view, no interrupt is pending, and the callbacks do nothing.  Every instruction that
has an effect on the view has it on the core, and takes the clocks of the view
(`step_simulates`); so does every run of a program.
-/

namespace SimulAvr

open Program MachineLogic

section

variable {δ : Type} [IoDevices δ]

/-- The callbacks of peripherals with `Q` do nothing to the core. -/
structure QuietDevices (Q : δ → Prop) : Prop where
  clk : ∀ ck d, Q d → ∃ d', IoDevices.clkCbExec ck d = .ok (d', []) ∧ Q d'
  async : ∀ d, Q d → ∃ d', IoDevices.asyncCbExec d = .ok (d', []) ∧ Q d'

/-- The core shows the view, of which `k` clocks have not passed yet. -/
structure Shows (l : Layout) (flash : Flash) (st : StateType) (Q : δ → Prop) (k : Nat) (c : AvrCore δ) (m : Cpu) : Prop where
  layout : c.layout = l
  flash : c.flash = flash
  dev : Q c.dev
  pc : c.pc = m.pc
  gpwr : c.gpwr = m.gpwr
  sreg : c.sreg = m.sreg
  sp : c.spGet = m.sp
  sram : ∀ a, l.IsSram a → c.sramByte a = m.sram a
  stack : c.stack = .mem
  state : c.state = st
  awake : st ≠ .sleep
  pending : c.irqPending.entries = []
  clocks : c.ck + k = m.clocks

/-- The handler of an instruction does to the core what is done to the view, and leaves the clocks
that it takes. -/
def ShowsAfter (l : Layout) (flash : Flash) (st : StateType) (Q : δ → Prop) (x : CoreM δ OpRet) (c : AvrCore δ) (m' : Cpu) :
    Prop :=
  ∃ name c' k, name ≠ .RETI ∧ x.run c = .ok (.opcode name, c') ∧ c'.instCKS = (k : Nat)
    ∧ Shows l flash st Q k c' m'

variable {l : Layout} {flash : Flash} {st : StateType} {Q : δ → Prop} {c c₁ : AvrCore δ} {m m' : Cpu} {α : Type}

omit [IoDevices δ] in
/-- What a handler does first -/
theorem ShowsAfter.bind
    {x : CoreM δ α} {a : α} (hx : x.run c = .ok (a, c₁)) {f : α → CoreM δ OpRet}
    (h : ShowsAfter l flash st Q (f a) c₁ m') :
  ShowsAfter l flash st Q (x >>= f) c m'
  := by
  obtain ⟨name, c', k, hname, hrun, hks, hshows⟩ := h
  exact ⟨name, c', k, hname, (run_bind_of_ok hx).trans hrun, hks, hshows⟩

/-! ### The program counter -/

omit [IoDevices δ] in
theorem Shows.goto
    (h : Shows l flash st Q 0 c m) {t : Int} {n : Nat} (hgoto : m.goto l t n = some m')
    (display : List DisplayMsg) :
  Shows l flash st Q n { c with
    pc := AvrCore.adjustPCToMax c.pcMax t, instCKS := n, display := display } m'
  := by
  rw [Cpu.goto] at hgoto
  split at hgoto
  · next ht =>
    cases hgoto
    have hpc : AvrCore.adjustPCToMax c.pcMax t = t.toNat := by
      rw [← h.layout] at ht
      rw [Int.toNat_of_nonneg ht.1]
      exact AvrCore.adjustPCToMax_of_mem ht
    have hclocks : c.ck + n = m.clocks + n := by
      rw [← h.clocks]
      rfl
    exact ⟨h.layout, h.flash, h.dev, hpc, h.gpwr, h.sreg, h.sp, h.sram, h.stack, h.state, h.awake, h.pending,
      hclocks⟩
  · contradiction

omit [IoDevices δ] in
/-- The end of a handler that jumps -/
theorem Shows.jump
    (h : Shows l flash st Q 0 c m) {t : Int} {n : Nat} (hgoto : m.goto l t n = some m') {name : OpcodeName}
    (hname : name ≠ .RETI) {cks : Int} (hcks : cks = n) :
  ShowsAfter l flash st Q (do
    avrCorePCSet t
    avrCoreInstCKSSet cks
    return .opcode name) c m'
  := by
  subst hcks
  exact ⟨name, _, n, hname, rfl, rfl, h.goto hgoto _⟩

omit [IoDevices δ] in
/-- The end of a handler that moves the program counter -/
theorem Shows.incr
    (h : Shows l flash st Q 0 c m) {t k : Int} {n : Nat} (hgoto : m.goto l t n = some m')
    {name : OpcodeName} (hname : name ≠ .RETI) (ht : t = m.pc + k) {cks : Int} (hcks : cks = n) :
  ShowsAfter l flash st Q (do
    avrCorePCIncr k
    avrCoreInstCKSSet cks
    return .opcode name) c m'
  := by
  subst hcks
  rw [← h.pc] at ht
  subst ht
  exact ⟨name, _, n, hname, rfl, rfl, h.goto hgoto _⟩

/-! ### Registers -/

omit [IoDevices δ] in
theorem Shows.setReg
    (h : Shows l flash st Q 0 c m) (r : Fin 32) (val : Byte) :
  Shows l flash st Q 0 (c.gpwrSet r val) (m.setReg r.val val)
  := by
  have hgpwr : (c.gpwrSet r val).gpwr = (m.setReg r.val val).gpwr := by
    rw [Cpu.setReg, ofNat_toNat_register, ← h.gpwr]
    rfl
  exact ⟨h.layout, h.flash, h.dev, h.pc, hgpwr, h.sreg, h.sp, h.sram, h.stack, h.state, h.awake, h.pending,
    h.clocks⟩

omit [IoDevices δ] in
theorem Shows.run_gpwrGet
    (h : Shows l flash st Q 0 c m) (r : Fin 32) :
  (avrCoreGpwrGet r.val).run c = .ok (m.reg r.val, c)
  := by
  rw [run_avrCoreGpwrGet, Cpu.reg, ofNat_toNat_register, ← h.gpwr]

omit [IoDevices δ] in
theorem Shows.run_pointerGet
    (h : Shows l flash st Q 0 c m) {p : Fin 32} (hp : (p + 1).val = p.val + 1) :
  (pointerGet p.val).run c = .ok (m.pointer p, c)
  := by
  rw [SimulAvr.run_pointerGet p (p + 1) hp, Cpu.pointer, ← h.gpwr]

omit [IoDevices δ] in
/-- A new value of a pointer -/
theorem Shows.setPointer
    (h : Shows l flash st Q 0 c m) {p : Fin 32} (hp : (p + 1).val = p.val + 1) (X : Word) :
  ∃ c', (pointerSet p.val X).run c = .ok ((), c') ∧ Shows l flash st Q 0 c' (m.setPointer p X)
  := by
  have hnext : ((p.val : Int) + 1) = (p + 1).val := by omega
  refine ⟨(c.gpwrSet p (X.extractLsb' 0 8)).gpwrSet (p + 1) (X.extractLsb' 8 8), ?_, ?_⟩
  · rw [pointerSet, hnext, run_bind_of_ok (run_avrCoreGpwrSet c p _), run_avrCoreGpwrSet]
  · have hgpwr : ((c.gpwrSet p (X.extractLsb' 0 8)).gpwrSet (p + 1) (X.extractLsb' 8 8)).gpwr
        = (m.setPointer p X).gpwr := by
      rw [Cpu.setPointer, ← h.gpwr]
      rfl
    exact ⟨h.layout, h.flash, h.dev, h.pc, hgpwr, h.sreg, h.sp, h.sram, h.stack, h.state, h.awake, h.pending,
      h.clocks⟩

/-! ### Memory -/

theorem Shows.run_load
    (h : Shows l flash st Q 0 c m) {a : Word} {val : Byte} (hload : m.load l a = some val) :
  (memRead a.toNat).run c = .ok (val, c)
  := by
  rw [Cpu.load] at hload
  split at hload
  · next ha =>
    cases hload
    rw [← h.sram a ha]
    rw [← h.layout] at ha
    exact memRead_sram ha
  · contradiction

theorem Shows.run_store
    (h : Shows l flash st Q 0 c m) {a : Word} {val : Byte} (hstore : m.store l a val = some m') :
  ∃ c', (memWrite a.toNat val).run c = .ok ((), c') ∧ Shows l flash st Q 0 c' m'
  := by
  rw [Cpu.store] at hstore
  split at hstore
  · next ha =>
    cases hstore
    have ha' := ha
    rw [← h.layout] at ha'
    obtain ⟨display, hrun⟩ := memWrite_sram ha' val
    refine ⟨_, hrun, h.layout, h.flash, h.dev, h.pc, h.gpwr, h.sreg, h.sp, ?_, h.stack, h.state, h.awake,
      h.pending, h.clocks⟩
    intro b hb
    rw [sramByte_update]
    by_cases hab : b = a
    · rw [if_pos hab, hab]
      exact (Function.update_self a val m.sram).symm
    · rw [if_neg hab, h.sram b hb]
      exact (Function.update_of_ne hab val m.sram).symm
  · contradiction

omit [IoDevices δ] in
theorem Shows.spSet
    (h : Shows l flash st Q 0 c m) (val : Word) :
  Shows l flash st Q 0 (c.spSet val) { m with sp := val }
  := ⟨h.layout, h.flash, h.dev, h.pc, h.gpwr, h.sreg, spGet_spSet c val, h.sram, h.stack, h.state, h.awake,
    h.pending, h.clocks⟩

/-- A byte onto the stack -/
theorem Shows.run_push
    (h : Shows l flash st Q 0 c m) {val : Byte} (hpush : m.push l val = some m') :
  ∃ c', (avrCoreStackPush 1 (val.setWidth 32)).run c = .ok ((), c') ∧ Shows l flash st Q 0 c' m'
  := by
  obtain ⟨m₁, hstore, hm'⟩ := Option.bind_eq_some_iff.mp hpush
  cases hm'
  obtain ⟨c₁, hrun, h₁⟩ := h.run_store hstore
  refine ⟨_, ?_, h₁.spSet _⟩
  have hbyte : (val.setWidth 32).setWidth 8 = val := by
    apply BitVec.eq_of_toNat_eq
    have := val.isLt
    simp only [BitVec.toNat_setWidth]
    omega
  rw [avrCoreStackPush, run_bind_of_ok (run_gets _ c), h.stack]
  change (memPush 1 _).run c = _
  rw [memPush, run_bind_of_ok (run_gets _ c), run_bind_of_ok (run_avrErrorIf_neg (by decide) _ _ c),
    h.sp]
  change (memPushLoop 1 m.sp _ >>= _).run c = _
  rw [memPushLoop, hbyte, bind_assoc, run_bind_of_ok hrun]
  rfl

omit [IoDevices δ] in
/-- The bytes of an address -/
theorem address_bytes
    (n : Nat) :
  (BitVec.ofInt 32 n).setWidth 8 = (BitVec.ofNat 16 n).extractLsb' 0 8
    ∧ (BitVec.ofInt 32 n >>> 8).setWidth 8 = (BitVec.ofNat 16 n).extractLsb' 8 8
  := by
  rw [BitVec.ofInt_natCast]
  constructor
  · apply BitVec.eq_of_toNat_eq
    simp only [BitVec.toNat_setWidth, BitVec.toNat_ofNat, BitVec.extractLsb'_toNat, Nat.shiftRight_zero]
    omega
  · apply BitVec.eq_of_toNat_eq
    simp only [BitVec.toNat_setWidth, BitVec.toNat_ushiftRight, BitVec.toNat_ofNat,
      BitVec.extractLsb'_toNat, Nat.shiftRight_eq_div_pow]
    omega

/-- An address onto the stack -/
theorem Shows.run_pushWord
    (h : Shows l flash st Q 0 c m) {n : Nat} (hpush : m.pushWord l (.ofNat 16 n) = some m') :
  ∃ c', (avrCoreStackPush 2 (.ofInt 32 n)).run c = .ok ((), c') ∧ Shows l flash st Q 0 c' m'
  := by
  obtain ⟨m₁, hstore, hpush⟩ := Option.bind_eq_some_iff.mp hpush
  obtain ⟨m₂, hstore', hm'⟩ := Option.bind_eq_some_iff.mp hpush
  cases hm'
  obtain ⟨c₁, hrun, h₁⟩ := h.run_store hstore
  obtain ⟨c₂, hrun', h₂⟩ := h₁.run_store hstore'
  obtain ⟨hlow, hhigh⟩ := address_bytes n
  refine ⟨_, ?_, h₂.spSet _⟩
  rw [avrCoreStackPush, run_bind_of_ok (run_gets _ c), h.stack]
  change (memPush 2 _).run c = _
  rw [memPush, run_bind_of_ok (run_gets _ c), run_bind_of_ok (run_avrErrorIf_neg (by decide) _ _ c),
    h.sp]
  change (memPushLoop 2 m.sp _ >>= _).run c = _
  rw [memPushLoop, memPushLoop, hlow, hhigh, bind_assoc, run_bind_of_ok hrun, bind_assoc,
    run_bind_of_ok hrun']
  change Except.ok ((), c₂.spSet (m.sp - 1 - 1)) = _
  rw [BitVec.sub_sub]
  rfl

/-- A byte from the stack -/
theorem Shows.run_pop
    (h : Shows l flash st Q 0 c m) {val : Byte} (hpop : m.pop l = some (val, m')) :
  ∃ c', (avrCoreStackPop 1).run c = .ok (val.setWidth 32, c') ∧ Shows l flash st Q 0 c' m'
  := by
  obtain ⟨val, hload, hm'⟩ := Option.bind_eq_some_iff.mp hpop
  cases hm'
  refine ⟨_, ?_, h.spSet _⟩
  rw [avrCoreStackPop, run_bind_of_ok (run_gets _ c), h.stack]
  change (memPop 1).run c = _
  rw [memPop, run_bind_of_ok (run_gets _ c), run_bind_of_ok (run_avrErrorIf_neg (by decide) _ _ c),
    h.sp]
  change (memPopLoop 1 m.sp 0 >>= _).run c = _
  rw [memPopLoop, bind_assoc, run_bind_of_ok (h.run_load hload)]
  change Except.ok (0 ||| val.setWidth 32 <<< 0, c.spSet (m.sp + 1)) = _
  rw [BitVec.shiftLeft_zero]
  congr 2
  exact BitVec.zero_or

/-- A word from the stack -/
theorem Shows.run_popWord
    (h : Shows l flash st Q 0 c m) {val : Word} (hpop : m.popWord l = some (val, m')) :
  ∃ c', (avrCoreStackPop 2).run c = .ok (val.setWidth 32, c') ∧ Shows l flash st Q 0 c' m'
  := by
  obtain ⟨high, hload, hpop⟩ := Option.bind_eq_some_iff.mp hpop
  obtain ⟨low, hload', hm'⟩ := Option.bind_eq_some_iff.mp hpop
  cases hm'
  refine ⟨_, ?_, h.spSet _⟩
  have hsp : m.sp + 1 + 1 = m.sp + 2 := by
    rw [BitVec.add_assoc]
    rfl
  have hval : 0 ||| high.setWidth 32 <<< (1 * 8) ||| low.setWidth 32 <<< (0 * 8)
      = (high ++ low).setWidth 32 := by
    apply BitVec.eq_of_getLsbD_eq
    intro i hi
    simp only [BitVec.getLsbD_or, BitVec.getLsbD_shiftLeft, BitVec.getLsbD_setWidth,
      BitVec.getLsbD_append, Nat.one_mul, Nat.zero_mul, Nat.sub_zero]
    have hlast : i - 8 < 32 := by omega
    by_cases hlow : i < 8
    · simp [hlow, hi]
    · have hend : low.getLsbD i = false := BitVec.getLsbD_of_ge _ _ (by omega)
      simp [hlow, hi, hlast, hend]
  rw [avrCoreStackPop, run_bind_of_ok (run_gets _ c), h.stack]
  change (memPop 2).run c = _
  rw [memPop, run_bind_of_ok (run_gets _ c), run_bind_of_ok (run_avrErrorIf_neg (by decide) _ _ c),
    h.sp]
  change (memPopLoop 2 m.sp 0 >>= _).run c = _
  rw [memPopLoop, bind_assoc, run_bind_of_ok (h.run_load hload)]
  rw [memPopLoop, hsp, bind_assoc, run_bind_of_ok (h.run_load hload'), ← hval]
  rfl

/-! ### Branches, skips and jumps -/

omit [IoDevices δ] in
theorem Shows.nextInst
    (h : Shows l flash st Q 0 c m) {n : Nat} (hgoto : m.next l n = some m')
    {name : OpcodeName} (hname : name ≠ .RETI) {cks : Int} (hcks : cks = n) :
  ShowsAfter l flash st Q (nextInst name cks) c m'
  := h.incr hgoto hname rfl hcks

omit [IoDevices δ] in
theorem Shows.branchIf
    (h : Shows l flash st Q 0 c m) {bit k : Int} {val : Bool} (hexec : m.branch l bit k val = some m')
    {name : OpcodeName} (hname : name ≠ .RETI) :
  ShowsAfter l flash st Q (branchIf name val bit k) c m'
  := by
  apply ShowsAfter.bind (run_avrCoreSregGetBit c _)
  have hbit : c.sregGetBit bit.toNat = m.sreg.getLsbD bit.toNat := by
    rw [← h.sreg]
    rfl
  rw [hbit]
  rw [Cpu.branch] at hexec
  split at hexec
  · next hval =>
    rw [if_pos hval]
    apply h.incr hexec hname (by omega) rfl
  · next hval =>
    rw [if_neg hval]
    apply h.nextInst hexec hname rfl

omit [IoDevices δ] in
/-- The number of the words of the next instruction -/
theorem length_encode
    (i : Instr) :
  i.encode.length = if i.func ∈ twoWordOpcodes then 2 else 1
  := by
  have hwords := i.words
  rw [i.encode_eq, List.length_cons]
  cases hsecond : i.operands.second with
  | none =>
    rw [if_neg (by rw [← hwords, hsecond]; exact Bool.false_ne_true)]
    rfl
  | some word =>
    rw [if_pos (by rw [← hwords, hsecond]; rfl)]
    rfl

omit [IoDevices δ] in
theorem Shows.skipIf
    (h : Shows l flash st Q 0 c m) {i : Instr} {cond : Bool} (hexec : m.skip l (some i) cond = some m')
    {name : OpcodeName} (hname : name ≠ .RETI) :
  ShowsAfter l flash st Q
    (skipIf name cond (if decide (i.func ∈ twoWordOpcodes) then 3 else 2)) c m'
  := by
  have hwords : (if decide (i.func ∈ twoWordOpcodes) then 3 else 2 : Int) = 1 + i.encode.length := by
    rw [length_encode]
    by_cases htwo : i.func ∈ twoWordOpcodes
    · simp [htwo]
    · simp [htwo]
  rw [hwords, SimulAvr.skipIf]
  change (if cond = true then _ else _) = some m' at hexec
  split at hexec
  · next hcond =>
    rw [if_pos hcond]
    apply h.incr hexec hname (by omega) (by omega)
  · next hcond =>
    rw [if_neg hcond]
    apply h.nextInst hexec hname rfl

/-! ### The instructions of a program -/

/-- The instruction at an address of a program is in the flash. -/
theorem holdsAt_instrAt
    {prog : List Instr} {start addr : Nat} {i : Instr} (hi : instrAt prog addr = some i)
    (h : flash.HoldsAt start (encodeProgram prog)) :
  flash.HoldsAt (start + addr) i.encode
  := by
  induction prog generalizing start addr with
  | nil => contradiction
  | cons j prog ih =>
    rw [instrAt] at hi
    have hwords : flash.HoldsAt start (j.encode ++ encodeProgram prog) := h
    split at hi
    · next haddr =>
      cases hi
      rw [haddr]
      apply hwords.take
    · split at hi
      · contradiction
      · have hrest := ih hi hwords.drop
        rwa [Nat.add_assoc, Nat.add_sub_of_le (by omega)] at hrest

/-! ### Loads and stores through a pointer -/

omit [IoDevices δ] in
/-- A displacement that stays within the data space -/
theorem toNat_add_ofInt
    {X : Word} {q : Int} (hq : 0 ≤ q) (h : X.toNat + q < 2 ^ 16) :
  ((X + BitVec.ofInt 16 q).toNat : Int) = X.toNat + q
  := by
  obtain ⟨n, rfl⟩ := Int.eq_ofNat_of_zero_le hq
  rw [BitVec.ofInt_natCast, BitVec.toNat_add, BitVec.toNat_ofNat]
  omega

theorem Shows.ldDisp
    (h : Shows l flash st Q 0 c m) {p : Fin 32} (hp : (p + 1).val = p.val + 1) {r q : Int}
    (hr : 0 ≤ r ∧ r < 32) (hq : 0 ≤ q) (hexec : m.loadIndirect l p r q = some m')
    {name : OpcodeName} (hname : name ≠ .RETI) :
  ShowsAfter l flash st Q (ldDisp name p.val r q) c m'
  := by
  obtain ⟨_, hguard, hexec⟩ := Option.bind_eq_some_iff.mp hexec
  obtain ⟨val, hload, hgoto⟩ := Option.bind_eq_some_iff.mp hexec
  obtain ⟨r, rfl⟩ := exists_fin_of_mem hr
  have haddr := toNat_add_ofInt hq ((Option.guard_eq_some' _).mp hguard)
  apply ShowsAfter.bind (h.run_pointerGet hp)
  rw [← haddr]
  apply ShowsAfter.bind (h.run_load hload)
  apply ShowsAfter.bind (run_avrCoreGpwrSet c r val)
  apply (h.setReg r val).nextInst hgoto hname rfl

theorem Shows.ldIncr
    (h : Shows l flash st Q 0 c m) {p : Fin 32} (hp : (p + 1).val = p.val + 1) {r : Int}
    (hr : 0 ≤ r ∧ r < 32) (hexec : m.loadIncr l p r = some m') {name : OpcodeName}
    (hname : name ≠ .RETI) :
  ShowsAfter l flash st Q (ldIncr name p.val r) c m'
  := by
  obtain ⟨_, hguard, hexec⟩ := Option.bind_eq_some_iff.mp hexec
  obtain ⟨val, hload, hgoto⟩ := Option.bind_eq_some_iff.mp hexec
  obtain ⟨r, rfl⟩ := exists_fin_of_mem hr
  obtain ⟨c₁, hset, h₁⟩ := (h.setReg r val).setPointer hp (m.pointer p + 1)
  apply ShowsAfter.bind
    (run_avrErrorIf_neg (not_or.mpr ((Option.guard_eq_some' _).mp hguard)) _ _ c)
  apply ShowsAfter.bind (h.run_pointerGet hp)
  apply ShowsAfter.bind (h.run_load hload)
  apply ShowsAfter.bind (run_avrCoreGpwrSet c r val)
  apply ShowsAfter.bind hset
  apply h₁.nextInst hgoto hname rfl

theorem Shows.ldDecr
    (h : Shows l flash st Q 0 c m) {p : Fin 32} (hp : (p + 1).val = p.val + 1) {r : Int}
    (hr : 0 ≤ r ∧ r < 32) (hexec : m.loadDecr l p r = some m') {name : OpcodeName}
    (hname : name ≠ .RETI) :
  ShowsAfter l flash st Q (ldDecr name p.val r) c m'
  := by
  obtain ⟨_, hguard, hexec⟩ := Option.bind_eq_some_iff.mp hexec
  obtain ⟨val, hload, hgoto⟩ := Option.bind_eq_some_iff.mp hexec
  obtain ⟨r, rfl⟩ := exists_fin_of_mem hr
  obtain ⟨c₁, hset, h₁⟩ := h.setPointer hp (m.pointer p - 1)
  apply ShowsAfter.bind
    (run_avrErrorIf_neg (not_or.mpr ((Option.guard_eq_some' _).mp hguard)) _ _ c)
  apply ShowsAfter.bind (h.run_pointerGet hp)
  apply ShowsAfter.bind hset
  apply ShowsAfter.bind (h₁.run_load hload)
  apply ShowsAfter.bind (run_avrCoreGpwrSet c₁ r val)
  apply (h₁.setReg r val).nextInst hgoto hname rfl

theorem Shows.stDisp
    (h : Shows l flash st Q 0 c m) {p : Fin 32} (hp : (p + 1).val = p.val + 1) {r q : Int}
    (hr : 0 ≤ r ∧ r < 32) (hq : 0 ≤ q) (hexec : m.storeIndirect l p r q = some m')
    {name : OpcodeName} (hname : name ≠ .RETI) :
  ShowsAfter l flash st Q (stDisp name p.val r q) c m'
  := by
  obtain ⟨_, hguard, hexec⟩ := Option.bind_eq_some_iff.mp hexec
  obtain ⟨m₁, hstore, hgoto⟩ := Option.bind_eq_some_iff.mp hexec
  obtain ⟨r, rfl⟩ := exists_fin_of_mem hr
  obtain ⟨c₁, hwrite, h₁⟩ := h.run_store hstore
  have haddr := toNat_add_ofInt hq ((Option.guard_eq_some' _).mp hguard)
  apply ShowsAfter.bind (h.run_pointerGet hp)
  apply ShowsAfter.bind (h.run_gpwrGet r)
  rw [← haddr]
  apply ShowsAfter.bind hwrite
  apply h₁.nextInst hgoto hname rfl

theorem Shows.stIncr
    (h : Shows l flash st Q 0 c m) {p : Fin 32} (hp : (p + 1).val = p.val + 1) {r : Int}
    (hr : 0 ≤ r ∧ r < 32) (hexec : m.storeIncr l p r = some m') {name : OpcodeName}
    (hname : name ≠ .RETI) (opcode : Word) :
  ShowsAfter l flash st Q (stIncr name p.val opcode r) c m'
  := by
  obtain ⟨_, hguard, hexec⟩ := Option.bind_eq_some_iff.mp hexec
  obtain ⟨m₁, hstore, hgoto⟩ := Option.bind_eq_some_iff.mp hexec
  obtain ⟨r, rfl⟩ := exists_fin_of_mem hr
  obtain ⟨c₁, hwrite, h₁⟩ := h.run_store hstore
  obtain ⟨c₂, hset, h₂⟩ := h₁.setPointer hp (m.pointer p + 1)
  apply ShowsAfter.bind
    (run_avrErrorIf_neg (not_or.mpr ((Option.guard_eq_some' _).mp hguard)) _ _ c)
  apply ShowsAfter.bind (h.run_pointerGet hp)
  apply ShowsAfter.bind (h.run_gpwrGet r)
  apply ShowsAfter.bind hwrite
  apply ShowsAfter.bind hset
  apply h₂.nextInst hgoto hname rfl

theorem Shows.stDecr
    (h : Shows l flash st Q 0 c m) {p : Fin 32} (hp : (p + 1).val = p.val + 1) {r : Int}
    (hr : 0 ≤ r ∧ r < 32) (hexec : m.storeDecr l p r = some m') {name : OpcodeName}
    (hname : name ≠ .RETI) (opcode : Word) :
  ShowsAfter l flash st Q (stDecr name p.val opcode r) c m'
  := by
  obtain ⟨_, hguard, hexec⟩ := Option.bind_eq_some_iff.mp hexec
  obtain ⟨m₁, hstore, hgoto⟩ := Option.bind_eq_some_iff.mp hexec
  obtain ⟨r, rfl⟩ := exists_fin_of_mem hr
  obtain ⟨c₁, hset, h₁⟩ := h.setPointer hp (m.pointer p - 1)
  obtain ⟨c₂, hwrite, h₂⟩ := h₁.run_store hstore
  apply ShowsAfter.bind
    (run_avrErrorIf_neg (not_or.mpr ((Option.guard_eq_some' _).mp hguard)) _ _ c)
  apply ShowsAfter.bind (h.run_pointerGet hp)
  apply ShowsAfter.bind hset
  apply ShowsAfter.bind (h₁.run_gpwrGet r)
  apply ShowsAfter.bind hwrite
  apply h₂.nextInst hgoto hname rfl

/-! ### The I/O registers of the stack pointer -/

omit [IoDevices δ] in
theorem Shows.hasGdbSp
    (h : Shows l flash st Q 0 c m) (hl : l.Plain) :
  HasGdbSp c
  := by
  rw [← h.layout] at hl
  exact ⟨hl.splAddr, hl.xramEnd, hl.spl, hl.sph⟩

omit [IoDevices δ] in
theorem Shows.withRegFile
    (h : Shows l flash st Q 0 c m) (spl sph : Byte) (display : List DisplayMsg) :
  Shows l flash st Q 0 (c.withRegFile { c.regFile with spl := spl, sph := sph } display)
    { m with sp := sph ++ spl }
  := ⟨h.layout, h.flash, h.dev, h.pc, h.gpwr, h.sreg, rfl, h.sram, h.stack, h.state, h.awake, h.pending,
    h.clocks⟩

omit [IoDevices δ] in
theorem Shows.bytes_sp
    (h : Shows l flash st Q 0 c m) :
  c.sp.spl = m.sp.extractLsb' 0 8 ∧ c.sp.sph = m.sp.extractLsb' 8 8
  := by
  rw [← h.sp]
  constructor
  · exact BitVec.extractLsb'_append_eq_right.symm
  · exact BitVec.extractLsb'_append_eq_left.symm

theorem Shows.run_out
    (h : Shows l flash st Q 0 c m) (hl : l.Plain) {A : Int} {val : Byte} (hout : m.out A val = some m') :
  ∃ c', (avrCoreIoWrite A val).run c = .ok ((), c') ∧ Shows l flash st Q 0 c' m'
  := by
  obtain ⟨hspl, hsph⟩ := h.bytes_sp
  rw [Cpu.out] at hout
  split at hout
  · next hA =>
    cases hout
    obtain ⟨display, hrun⟩ := run_memWrite_spl (h.hasGdbSp hl) val
    rw [hA]
    refine ⟨_, hrun, ?_⟩
    rw [← hsph]
    apply h.withRegFile val c.sp.sph
  · split at hout
    · next hA =>
      cases hout
      obtain ⟨display, hrun⟩ := run_memWrite_sph (h.hasGdbSp hl) val
      rw [hA]
      refine ⟨_, hrun, ?_⟩
      rw [← hspl]
      apply h.withRegFile c.sp.spl val
    · contradiction

theorem Shows.run_input
    (h : Shows l flash st Q 0 c m) (hl : l.Plain) {A : Int} {val : Byte}
    (hinput : m.input A = some val) :
  (avrCoreIoRead A).run c = .ok (val, c)
  := by
  obtain ⟨hspl, hsph⟩ := h.bytes_sp
  rw [Cpu.input] at hinput
  split at hinput
  · next hA =>
    cases hinput
    rw [hA, ← hspl]
    apply run_memRead_spl (h.hasGdbSp hl)
  · split at hinput
    · next hA =>
      cases hinput
      rw [hA, ← hsph]
      apply run_memRead_sph (h.hasGdbSp hl)
    · contradiction

/-! ### Calls and returns -/

omit [IoDevices δ] in
theorem Shows.pcSize
    (h : Shows l flash st Q 0 c m) (hl : l.Plain) :
  c.pcSize = 2
  := by
  rw [← hl.pcSize, ← h.layout]
  rfl

/-- The beginning of a call -/
theorem Shows.call
    (h : Shows l flash st Q 0 c m) (hl : l.Plain) {n : Nat} {m₁ : Cpu}
    (hpush : m.pushWord l (.ofNat 16 (m.pc + n)) = some m₁) :
  ∃ c₁, (avrCoreStackPush c.pcSize (.ofInt 32 (c.pc + n))).run c = .ok ((), c₁) ∧
    Shows l flash st Q 0 c₁ m₁
  := by
  rw [h.pcSize hl, h.pc]
  apply h.run_pushWord hpush

theorem Shows.rcall
    (h : Shows l flash st Q 0 c m) (hl : l.Plain) {k : Int} {m₁ : Cpu}
    (hpush : m.pushWord l (.ofNat 16 (m.pc + 1)) = some m₁)
    (hgoto : m₁.goto l (m₁.pc + k + 1) 3 = some m') :
  ShowsAfter l flash st Q (avrOpRCALL k) c m'
  := by
  obtain ⟨c₁, hrun, h₁⟩ := h.call hl hpush
  apply ShowsAfter.bind (run_avrCorePCGet c)
  apply ShowsAfter.bind (run_avrCorePCSize c)
  apply ShowsAfter.bind hrun
  apply h₁.incr hgoto (by decide) (by omega)
  rw [h.pcSize hl]
  rfl

theorem Shows.icall
    (h : Shows l flash st Q 0 c m) (hl : l.Plain) {m₁ : Cpu}
    (hpush : m.pushWord l (.ofNat 16 (m.pc + 1)) = some m₁)
    (hgoto : m₁.goto l (m.pointer 30).toNat 3 = some m') :
  ShowsAfter l flash st Q avrOpICALL c m'
  := by
  obtain ⟨c₁, hrun, h₁⟩ := h.call hl hpush
  apply ShowsAfter.bind (run_avrCorePCGet c)
  apply ShowsAfter.bind (run_avrCorePCSize c)
  apply ShowsAfter.bind (h.run_pointerGet (p := 30) (by decide))
  apply ShowsAfter.bind hrun
  apply h₁.jump hgoto (by decide)
  rw [h.pcSize hl]
  rfl

omit [IoDevices δ] in
/-- The second word of an instruction -/
theorem Shows.run_flashReadNext
    (h : Shows l flash st Q 0 c m) {word : Word} (hword : flash.HoldsAt (m.pc + 1) [word]) :
  flashReadNext.run c = .ok (word, c)
  := by
  have hpc := h.pc
  rw [← h.flash] at hword
  apply SimulAvr.run_flashReadNext hword
  omega

theorem Shows.callFar
    (h : Shows l flash st Q 0 c m) (hl : l.Plain) {word : Word}
    (hword : flash.HoldsAt (m.pc + 1) [word]) {m₁ : Cpu}
    (hpush : m.pushWord l (.ofNat 16 (m.pc + 2)) = some m₁)
    (hgoto : m₁.goto l word.toNat 4 = some m') :
  ShowsAfter l flash st Q (avrOpCALL 0) c m'
  := by
  obtain ⟨c₁, hrun, h₁⟩ := h.call hl hpush
  have haddress : (addressOperand 0).run c = .ok ((word.toNat : Int), c) := by
    rw [addressOperand, run_bind_of_ok (h.run_flashReadNext hword), Int.zero_mul, Int.zero_add]
    rfl
  have hlt := word.isLt
  apply ShowsAfter.bind (run_avrCorePCGet c)
  apply ShowsAfter.bind (run_avrCorePCSize c)
  apply ShowsAfter.bind haddress
  apply ShowsAfter.bind (run_avrErrorIf_neg (by omega) _ _ c)
  apply ShowsAfter.bind hrun
  apply h₁.jump hgoto (by decide)
  rw [h.pcSize hl]
  rfl

theorem Shows.ret
    (h : Shows l flash st Q 0 c m) (hl : l.Plain) {target : Word} {m₁ : Cpu}
    (hpop : m.popWord l = some (target, m₁)) (hgoto : m₁.goto l target.toNat 4 = some m') :
  ShowsAfter l flash st Q avrOpRET c m'
  := by
  obtain ⟨c₁, hrun, h₁⟩ := h.run_popWord hpop
  have hsize := h.pcSize hl
  have htarget : (target.setWidth 32).toInt = target.toNat := by
    have := target.isLt
    rw [BitVec.toInt_eq_toNat_cond, BitVec.toNat_setWidth]
    omega
  rw [← hsize] at hrun
  apply ShowsAfter.bind (run_avrCorePCSize c)
  apply ShowsAfter.bind hrun
  rw [htarget]
  apply h₁.jump hgoto (by decide)
  rw [hsize]
  rfl

/-! ### The arithmetic and logic instructions -/

omit [IoDevices δ] in
/-- The effect of an instruction depends on the registers only. -/
theorem Shows.aluReference_eq
    (h : Shows l flash st Q 0 c m) (func : OpcodeName) (arg1 arg2 : Int) :
  aluReference func arg1 arg2 c = aluReference func arg1 arg2 m.registers
  := by
  unfold aluReference
  rw [h.gpwr, h.sreg]
  rfl

omit [IoDevices δ] in
theorem aluReference_clocks
    (func : OpcodeName) (arg1 arg2 : Int) (c : AvrCore δ) :
  0 ≤ (aluReference func arg1 arg2 c).clocks
  := by
  cases func <;> exact Int.natCast_nonneg _

theorem Shows.alu
    (h : Shows l flash st Q 0 c m) {func : OpcodeName} (hfunc : func ∈ aluOpcodes) {arg1 arg2 : Int}
    (hargs : func.form.Admits arg1 arg2) (hexec : m.alu l func arg1 arg2 = some m')
    (opcode : Word) :
  ShowsAfter l flash st Q (func.handler opcode arg1 arg2) c m'
  := by
  obtain ⟨msgs, hrun⟩ := handler_alu c hfunc hargs opcode
  have hclocks := aluReference_clocks func arg1 arg2 c
  have href := h.aluReference_eq func arg1 arg2
  generalize aluReference func arg1 arg2 c = effect at hrun hclocks href
  rw [Cpu.alu, ← href] at hexec
  have h₁ : Shows l flash st Q 0
      { c with gpwr := effect.gpwr c.gpwr, sreg := effect.flags.apply c.sreg }
      { m with gpwr := effect.gpwr m.gpwr, sreg := effect.flags.apply m.sreg } :=
    ⟨h.layout, h.flash, h.dev, h.pc, congrArg effect.gpwr h.gpwr, congrArg effect.flags.apply h.sreg,
      h.sp, h.sram, h.stack, h.state, h.awake, h.pending, h.clocks⟩
  have h₂ := h₁.goto hexec (c.display ++ msgs)
  rw [Int.toNat_of_nonneg hclocks, ← h.pc] at h₂
  have hname : func ≠ .RETI := by
    intro hreti
    rw [hreti] at hfunc
    exact absurd hfunc (by decide)
  exact ⟨func, _, _, hname, hrun, (Int.toNat_of_nonneg hclocks).symm, h₂⟩

/-! ### Every instruction -/

/-- The opcodes with a register as the first operand -/
def registerOpcodes : List OpcodeName :=
  [.CPSE, .SBRC, .SBRS, .PUSH, .POP, .OUT, .IN, .LDS, .STS, .LPM_Z, .LD_X, .LDD_Y, .LDD_Z,
   .LD_X_incr, .LD_Y_incr, .LD_Z_incr, .LD_X_decr, .LD_Y_decr, .LD_Z_decr, .ST_X, .STD_Y, .STD_Z,
   .ST_X_incr, .ST_Y_incr, .ST_Z_incr, .ST_X_decr, .ST_Y_decr, .ST_Z_decr]

theorem registerOpcodes_form :
  ∀ func ∈ registerOpcodes, func.form ∈ [.rd5, .rd5rr5, .rd5bit, .rd5q, .rd5a6]
  := by
  decide +kernel

theorem OperandForm.Admits.firstRegister
    {func : OpcodeName} (hfunc : func ∈ registerOpcodes) {arg1 arg2 : Int}
    (h : func.form.Admits arg1 arg2) :
  0 ≤ arg1 ∧ arg1 < 32
  := by
  have hform := registerOpcodes_form func hfunc
  generalize func.form = form at h hform
  simp only [List.mem_cons, List.not_mem_nil, or_false] at hform
  rcases hform with rfl | rfl | rfl | rfl | rfl <;> exact h.1

omit [IoDevices δ] in
/-- Either the pointer may be incremented, or nothing is added to it. -/
theorem ldIndirect_eq
    (name : OpcodeName) (p Rd : Int) [IoDevices δ] :
  (ldIndirect name p Rd : CoreM δ OpRet) = ldDisp name p Rd 0
  := by
  simp only [ldIndirect, ldDisp, Int.add_zero]

omit [IoDevices δ] in
theorem stIndirect_eq
    (name : OpcodeName) (p Rd : Int) [IoDevices δ] :
  (stIndirect name p Rd : CoreM δ OpRet) = stDisp name p Rd 0
  := by
  simp only [stIndirect, stDisp, Int.add_zero]

omit [IoDevices δ] in
/-- The next instruction of the program, which a skip looks at -/
theorem Shows.run_isNextInst2Words
    (h : Shows l flash st Q 0 c m) {prog : List Instr} (hprog : flash.HoldsAt 0 (encodeProgram prog))
    {cond : Bool} (hexec : m.skip l (instrAt prog (m.pc + 1)) cond = some m') :
  ∃ i, isNextInst2Words.run c = .ok (decide (i.func ∈ twoWordOpcodes), c) ∧
    m.skip l (some i) cond = some m'
  := by
  have hpc := h.pc
  obtain ⟨i, hi, hrest⟩ := Option.bind_eq_some_iff.mp hexec
  have hwords := holdsAt_instrAt hi hprog
  rw [Nat.zero_add, ← h.flash] at hwords
  exact ⟨i, SimulAvr.run_isNextInst2Words hwords (by omega), hrest⟩

omit [IoDevices δ] in
theorem Shows.cpse
    (h : Shows l flash st Q 0 c m) {prog : List Instr} (hprog : flash.HoldsAt 0 (encodeProgram prog))
    {Rd Rr : Int} (hRd : 0 ≤ Rd ∧ Rd < 32) (hRr : 0 ≤ Rr ∧ Rr < 32)
    (hexec : m.skip l (instrAt prog (m.pc + 1)) (m.reg Rd = m.reg Rr) = some m') :
  ShowsAfter l flash st Q (avrOpCPSE Rd Rr) c m'
  := by
  obtain ⟨i, htwo, hskip⟩ := h.run_isNextInst2Words hprog hexec
  obtain ⟨d, rfl⟩ := exists_fin_of_mem hRd
  obtain ⟨r, rfl⟩ := exists_fin_of_mem hRr
  apply ShowsAfter.bind (h.run_gpwrGet d)
  apply ShowsAfter.bind (h.run_gpwrGet r)
  apply ShowsAfter.bind htwo
  apply h.skipIf hskip (by decide)

omit [IoDevices δ] in
theorem Shows.skipIfRegBit
    (h : Shows l flash st Q 0 c m) {prog : List Instr} (hprog : flash.HoldsAt 0 (encodeProgram prog))
    {Rd b : Int} (hRd : 0 ≤ Rd ∧ Rd < 32) {val : Bool}
    (hexec : m.skip l (instrAt prog (m.pc + 1)) ((m.reg Rd).getLsbD b.toNat = val) = some m')
    {name : OpcodeName} (hname : name ≠ .RETI) :
  ShowsAfter l flash st Q (skipIfRegBit name val Rd b) c m'
  := by
  obtain ⟨i, htwo, hskip⟩ := h.run_isNextInst2Words hprog hexec
  obtain ⟨d, rfl⟩ := exists_fin_of_mem hRd
  apply ShowsAfter.bind htwo
  apply ShowsAfter.bind (h.run_gpwrGet d)
  apply h.skipIf hskip hname

omit [IoDevices δ] in
theorem Shows.lpm
    (h : Shows l flash st Q 0 c m) {code : List Word} (hcode : flash.HoldsAt 0 code) {r : Int}
    (hr : 0 ≤ r ∧ r < 32) (hexec : m.lpm l code r = some m') :
  ShowsAfter l flash st Q (avrOpLPMZ r) c m'
  := by
  obtain ⟨data, hdata, hgoto⟩ := Option.bind_eq_some_iff.mp hexec
  obtain ⟨r, rfl⟩ := exists_fin_of_mem hr
  have hread := hcode _ data hdata
  rw [Nat.zero_add, ← h.flash] at hread
  have hrun : (avrCoreFlashRead ((m.pointer 30).toNat / 2 : Nat)).run c = .ok (data, c) := by
    rw [run_avrCoreFlashRead, hread]
    rfl
  apply ShowsAfter.bind (h.run_pointerGet (p := 30) (by decide))
  apply ShowsAfter.bind hrun
  apply ShowsAfter.bind (run_avrCoreGpwrSet c r _)
  apply (h.setReg r _).nextInst hgoto (by decide) rfl

/-- A push and a pop of a register -/
theorem Shows.pushReg
    (h : Shows l flash st Q 0 c m) {r : Int} (hr : 0 ≤ r ∧ r < 32) {m₁ : Cpu}
    (hpush : m.push l (m.reg r) = some m₁) (hnext : m₁.next l 2 = some m') :
  ShowsAfter l flash st Q (avrOpPUSH r) c m'
  := by
  obtain ⟨r, rfl⟩ := exists_fin_of_mem hr
  obtain ⟨c₁, hrun, h₁⟩ := h.run_push hpush
  apply ShowsAfter.bind (h.run_gpwrGet r)
  apply ShowsAfter.bind hrun
  apply h₁.nextInst hnext (by decide) rfl

theorem Shows.popReg
    (h : Shows l flash st Q 0 c m) {r : Int} (hr : 0 ≤ r ∧ r < 32) {val : Byte} {m₁ : Cpu}
    (hpop : m.pop l = some (val, m₁)) (hnext : (m₁.setReg r val).next l 2 = some m') :
  ShowsAfter l flash st Q (avrOpPOP r) c m'
  := by
  obtain ⟨r, rfl⟩ := exists_fin_of_mem hr
  obtain ⟨c₁, hrun, h₁⟩ := h.run_pop hpop
  apply ShowsAfter.bind hrun
  rw [BitVec.setWidth_setWidth_of_le val (by decide), BitVec.setWidth_eq]
  apply ShowsAfter.bind (run_avrCoreGpwrSet c₁ r val)
  apply (h₁.setReg r val).nextInst hnext (by decide) rfl

theorem Shows.lds
    (h : Shows l flash st Q 0 c m) {word : Word} (hword : flash.HoldsAt (m.pc + 1) [word]) {r : Int}
    (hr : 0 ≤ r ∧ r < 32) {val : Byte} (hload : m.load l word = some val)
    (hgoto : (m.setReg r val).goto l (m.pc + 2) 2 = some m') :
  ShowsAfter l flash st Q (avrOpLDS r) c m'
  := by
  obtain ⟨r, rfl⟩ := exists_fin_of_mem hr
  apply ShowsAfter.bind (h.run_flashReadNext hword)
  apply ShowsAfter.bind (h.run_load hload)
  apply ShowsAfter.bind (run_avrCoreGpwrSet c r val)
  apply (h.setReg r val).incr hgoto (by decide) rfl rfl

theorem Shows.sts
    (h : Shows l flash st Q 0 c m) {word : Word} (hword : flash.HoldsAt (m.pc + 1) [word]) {r : Int}
    (hr : 0 ≤ r ∧ r < 32) {m₁ : Cpu} (hstore : m.store l word (m.reg r) = some m₁)
    (hgoto : m₁.goto l (m₁.pc + 2) 2 = some m') :
  ShowsAfter l flash st Q (avrOpSTS r) c m'
  := by
  obtain ⟨r, rfl⟩ := exists_fin_of_mem hr
  obtain ⟨c₁, hrun, h₁⟩ := h.run_store hstore
  apply ShowsAfter.bind (h.run_flashReadNext hword)
  apply ShowsAfter.bind (h.run_gpwrGet r)
  apply ShowsAfter.bind hrun
  apply h₁.incr hgoto (by decide) rfl rfl

theorem Shows.outReg
    (h : Shows l flash st Q 0 c m) (hl : l.Plain) {r A : Int} (hr : 0 ≤ r ∧ r < 32) {m₁ : Cpu}
    (hout : m.out A (m.reg r) = some m₁) (hnext : m₁.next l 1 = some m') :
  ShowsAfter l flash st Q (avrOpOUT r A) c m'
  := by
  obtain ⟨r, rfl⟩ := exists_fin_of_mem hr
  obtain ⟨c₁, hrun, h₁⟩ := h.run_out hl hout
  apply ShowsAfter.bind (h.run_gpwrGet r)
  apply ShowsAfter.bind hrun
  apply h₁.nextInst hnext (by decide) rfl

theorem Shows.inReg
    (h : Shows l flash st Q 0 c m) (hl : l.Plain) {r A : Int} (hr : 0 ≤ r ∧ r < 32) {val : Byte}
    (hinput : m.input A = some val) (hnext : (m.setReg r val).next l 1 = some m') :
  ShowsAfter l flash st Q (avrOpIN r A) c m'
  := by
  obtain ⟨r, rfl⟩ := exists_fin_of_mem hr
  apply ShowsAfter.bind (h.run_input hl hinput)
  apply ShowsAfter.bind (run_avrCoreGpwrSet c r val)
  apply (h.setReg r val).nextInst hnext (by decide) rfl

omit [IoDevices δ] in
theorem Shows.jumpFar
    (h : Shows l flash st Q 0 c m) {word : Word} (hword : flash.HoldsAt (m.pc + 1) [word]) {kh : Int}
    (hgoto : m.goto l (kh * 2 ^ 16 + word.toNat) 3 = some m') :
  ShowsAfter l flash st Q (avrOpJMP kh) c m'
  := by
  have haddress : (addressOperand kh).run c = .ok (kh * 2 ^ 16 + word.toNat, c) := by
    rw [addressOperand, run_bind_of_ok (h.run_flashReadNext hword)]
    rfl
  apply ShowsAfter.bind haddress
  apply h.jump hgoto (by decide) rfl

/-- What an instruction of a program does to the view its handler does to the core. -/
theorem Shows.handler
    (h : Shows l flash st Q 0 c m) (hl : l.Plain) {prog : List Instr}
    (hprog : flash.HoldsAt 0 (encodeProgram prog)) {func : OpcodeName} {arg1 arg2 : Int}
    (hargs : func.form.Admits arg1 arg2) {second : Option Word}
    (hsecond : ∀ word, second = some word → flash.HoldsAt (m.pc + 1) [word]) (opcode : Word)
    (hexec : m.exec l prog func arg1 arg2 second = some m') :
  ShowsAfter l flash st Q (func.handler opcode arg1 arg2) c m'
  := by
  have hrd5 : func ∈ registerOpcodes → 0 ≤ arg1 ∧ arg1 < 32 := fun hmem => hargs.firstRegister hmem
  unfold Cpu.exec at hexec
  split at hexec
  · next hfunc => exact h.alu hfunc hargs hexec opcode
  · split at hexec
    · exact h.nextInst hexec (by decide) rfl
    · exact h.incr hexec (by decide) (by omega) rfl
    · apply ShowsAfter.bind (h.run_pointerGet (p := 30) (by decide))
      exact h.jump hexec (by decide) rfl
    · obtain ⟨word, hword, hgoto⟩ := Option.bind_eq_some_iff.mp hexec
      exact h.jumpFar (hsecond word hword) hgoto
    · exact h.branchIf hexec (by decide)
    · exact h.branchIf hexec (by decide)
    · exact h.cpse hprog (hrd5 (by decide)) hargs.2 hexec
    · exact h.skipIfRegBit hprog (hrd5 (by decide)) hexec (by decide)
    · exact h.skipIfRegBit hprog (hrd5 (by decide)) hexec (by decide)
    · obtain ⟨m₁, hpush, hgoto⟩ := Option.bind_eq_some_iff.mp hexec
      exact h.rcall hl hpush hgoto
    · obtain ⟨m₁, hpush, hgoto⟩ := Option.bind_eq_some_iff.mp hexec
      exact h.icall hl hpush hgoto
    · obtain ⟨_, hguard, hrest⟩ := Option.bind_eq_some_iff.mp hexec
      obtain ⟨m₁, hpush, hrest⟩ := Option.bind_eq_some_iff.mp hrest
      obtain ⟨word, hword, hgoto⟩ := Option.bind_eq_some_iff.mp hrest
      cases (Option.guard_eq_some' _).mp hguard
      exact h.callFar hl (hsecond word hword) hpush hgoto
    · obtain ⟨⟨target, m₁⟩, hpop, hgoto⟩ := Option.bind_eq_some_iff.mp hexec
      exact h.ret hl hpop hgoto
    · obtain ⟨m₁, hpush, hnext⟩ := Option.bind_eq_some_iff.mp hexec
      exact h.pushReg (hrd5 (by decide)) hpush hnext
    · obtain ⟨⟨val, m₁⟩, hpop, hnext⟩ := Option.bind_eq_some_iff.mp hexec
      exact h.popReg (hrd5 (by decide)) hpop hnext
    · obtain ⟨m₁, hout, hnext⟩ := Option.bind_eq_some_iff.mp hexec
      exact h.outReg hl (hrd5 (by decide)) hout hnext
    · obtain ⟨val, hinput, hnext⟩ := Option.bind_eq_some_iff.mp hexec
      exact h.inReg hl (hrd5 (by decide)) hinput hnext
    · obtain ⟨word, hword, hrest⟩ := Option.bind_eq_some_iff.mp hexec
      obtain ⟨val, hload, hgoto⟩ := Option.bind_eq_some_iff.mp hrest
      exact h.lds (hsecond word hword) (hrd5 (by decide)) hload hgoto
    · obtain ⟨word, hword, hrest⟩ := Option.bind_eq_some_iff.mp hexec
      obtain ⟨m₁, hstore, hgoto⟩ := Option.bind_eq_some_iff.mp hrest
      exact h.sts (hsecond word hword) (hrd5 (by decide)) hstore hgoto
    · exact h.lpm hprog (by decide) hexec
    · exact h.lpm hprog (hrd5 (by decide)) hexec
    · change ShowsAfter l flash st Q (ldIndirect .LD_X 26 arg1) c m'
      rw [ldIndirect_eq]
      exact h.ldDisp (p := 26) (by decide) (hrd5 (by decide)) (by decide) hexec (by decide)
    · exact h.ldDisp (p := 28) (by decide) (hrd5 (by decide)) hargs.2.1 hexec (by decide)
    · exact h.ldDisp (p := 30) (by decide) (hrd5 (by decide)) hargs.2.1 hexec (by decide)
    · exact h.ldIncr (p := 26) (by decide) (hrd5 (by decide)) hexec (by decide)
    · exact h.ldIncr (p := 28) (by decide) (hrd5 (by decide)) hexec (by decide)
    · exact h.ldIncr (p := 30) (by decide) (hrd5 (by decide)) hexec (by decide)
    · exact h.ldDecr (p := 26) (by decide) (hrd5 (by decide)) hexec (by decide)
    · exact h.ldDecr (p := 28) (by decide) (hrd5 (by decide)) hexec (by decide)
    · exact h.ldDecr (p := 30) (by decide) (hrd5 (by decide)) hexec (by decide)
    · change ShowsAfter l flash st Q (stIndirect .ST_X 26 arg1) c m'
      rw [stIndirect_eq]
      exact h.stDisp (p := 26) (by decide) (hrd5 (by decide)) (by decide) hexec (by decide)
    · exact h.stDisp (p := 28) (by decide) (hrd5 (by decide)) hargs.2.1 hexec (by decide)
    · exact h.stDisp (p := 30) (by decide) (hrd5 (by decide)) hargs.2.1 hexec (by decide)
    · exact h.stIncr (p := 26) (by decide) (hrd5 (by decide)) hexec (by decide) opcode
    · exact h.stIncr (p := 28) (by decide) (hrd5 (by decide)) hexec (by decide) opcode
    · exact h.stIncr (p := 30) (by decide) (hrd5 (by decide)) hexec (by decide) opcode
    · exact h.stDecr (p := 26) (by decide) (hrd5 (by decide)) hexec (by decide) opcode
    · exact h.stDecr (p := 28) (by decide) (hrd5 (by decide)) hexec (by decide) opcode
    · exact h.stDecr (p := 30) (by decide) (hrd5 (by decide)) hexec (by decide) opcode
    · contradiction

/-! ### Steps and runs -/

/-- The peripherals let the clocks pass. -/
theorem Shows.run_propagateClocks
    (hQ : QuietDevices Q) {n : Nat} (h : Shows l flash st Q n c m) :
  ∃ c', (propagateClocks n).run c = .ok ((), c') ∧ Shows l flash st Q 0 c' m
  := by
  induction n generalizing c with
  | zero => exact ⟨c, rfl, h⟩
  | succ n ih =>
    obtain ⟨d, hrun, hd⟩ := hQ.clk c.ck c.dev h.dev
    have hclk : avrCoreClkCbExec.run c = .ok ((), { c with dev := d }) := by
      rw [avrCoreClkCbExec, run_bind_of_ok (run_get c), hrun]
      rfl
    have hclocks : c.ck + 1 + n = m.clocks := by
      rw [← h.clocks]
      omega
    have hnext : Shows l flash st Q n
        { { c with dev := d }.ckIncr with instCKS := c.instCKS - 1 } m :=
      ⟨h.layout, h.flash, hd, h.pc, h.gpwr, h.sreg, h.sp, h.sram, h.stack, h.state, h.awake, h.pending,
        hclocks⟩
    obtain ⟨c', hrest, h'⟩ := ih hnext
    refine ⟨c', ?_, h'⟩
    rw [propagateClocks, run_bind_of_ok hclk]
    exact hrest

/-- The core of a step, or none where it does not complete -/
def coreStep (c : AvrCore δ) : Option (AvrCore δ) :=
  match avrCoreStep.run c with
  | .ok (_, c') => some c'
  | .error _ => none

/-- The core fetches the instruction at the program counter, and executes it. -/
theorem Shows.run_execUnlessAsleep
    (h : Shows l flash st Q 0 c m) {i : Instr} (hwords : flash.HoldsAt m.pc i.encode) :
  execUnlessAsleep.run c
    = (i.func.handler i.first i.operands.arg1 i.operands.arg2).run c.fetched
  := by
  rw [i.encode_eq] at hwords
  have hfetch : flashRead c.flash c.pc = .ok i.first := by
    rw [h.flash, h.pc]
    exact hwords.head
  have hawake : ¬ c.state = .sleep := by
    rw [h.state]
    exact h.awake
  rw [execUnlessAsleep, run_bind_of_ok (run_gets _ c), if_neg hawake,
    execNextInstruction_of_fetch hfetch, execOpcode_first]

omit [IoDevices δ] in
theorem Shows.fetched
    (h : Shows l flash st Q 0 c m) :
  Shows l flash st Q 0 c.fetched m
  := ⟨h.layout, h.flash, h.dev, h.pc, h.gpwr, h.sreg, h.sp, h.sram, h.stack, h.state, h.awake,
    h.pending, h.clocks⟩

/-- After the instruction the clocks pass, and no interrupt is taken. -/
theorem Shows.run_avrCoreStep
    (hQ : QuietDevices Q) {k : Nat} (h : Shows l flash st Q k c₁ m) (hks : c₁.instCKS = (k : Nat))
    {ret : OpRet} (hret : ret ≠ .opcode .RETI) (hexec : execUnlessAsleep.run c = .ok (ret, c₁)) :
  ∃ c', avrCoreStep.run c = .ok (ret, c') ∧ Shows l flash st Q 0 c' m
  := by
  obtain ⟨c₂, hclocks, h₂⟩ := h.run_propagateClocks hQ
  obtain ⟨d, hasync, hd⟩ := hQ.async c₂.dev h₂.dev
  have hasync' : avrCoreAsyncCbExec.run c₂ = .ok ((), { c₂ with dev := d }) := by
    rw [avrCoreAsyncCbExec, run_bind_of_ok (run_gets _ c₂), hasync]
    rfl
  have hcheck := check_of_nil (c := { c₂ with dev := d }) h₂.pending
  refine ⟨{ c₂ with dev := d }, ?_, ?_⟩
  · rw [avrCoreStep_eq_ok]
    refine ⟨c₁, c₂, _, hexec, ?_, hasync', ?_⟩
    · rw [hks]
      exact hclocks
    · rw [if_neg hret]
      exact hcheck
  · exact ⟨h₂.layout, h₂.flash, hd, h₂.pc, h₂.gpwr, h₂.sreg, h₂.sp, h₂.sram, h₂.stack, h₂.state,
      h₂.awake, h₂.pending, h₂.clocks⟩

/-- What a handler does to the view a step does. -/
theorem Shows.step_handler
    (h : Shows l flash st Q 0 c m) (hQ : QuietDevices Q) {i : Instr}
    (hwords : flash.HoldsAt m.pc i.encode)
    (hafter : ShowsAfter l flash st Q (i.func.handler i.first i.operands.arg1 i.operands.arg2) c.fetched m') :
  ∃ name c', avrCoreStep.run c = .ok (.opcode name, c') ∧ Shows l flash st Q 0 c' m'
  := by
  obtain ⟨name, c₁, k, hname, hrun, hks, h₁⟩ := hafter
  rw [← h.run_execUnlessAsleep hwords] at hrun
  obtain ⟨c', hstep', h'⟩ := h₁.run_avrCoreStep hQ hks (by simpa using hname) hrun
  exact ⟨name, c', hstep', h'⟩

omit [IoDevices δ] in
theorem admits_operands
    (i : Instr) :
  i.func.form.Admits i.operands.arg1 i.operands.arg2
  := by
  have hadmits := lookupOpcode_admits i.first
  have hdecode : lookupOpcode i.first = i.info := decode_encode i
  rwa [hdecode] at hadmits

omit [IoDevices δ] in
theorem holdsAt_second
    {a : Nat} {i : Instr} (hwords : flash.HoldsAt a i.encode) {word : Word}
    (hword : i.operands.second = some word) :
  flash.HoldsAt (a + 1) [word]
  := by
  rw [i.encode_eq] at hwords
  have htail := hwords.tail
  rwa [hword] at htail

/-- A step of the view is a step of the core. -/
theorem Shows.step
    (h : Shows l flash st Q 0 c m) (hl : l.Plain) (hQ : QuietDevices Q) {prog : List Instr}
    (hprog : flash.HoldsAt 0 (encodeProgram prog)) (hstep : m.step l prog = some m') :
  ∃ name c', avrCoreStep.run c = .ok (.opcode name, c') ∧ Shows l flash st Q 0 c' m'
  := by
  obtain ⟨i, hi, hexec⟩ := Option.bind_eq_some_iff.mp hstep
  have hwords := holdsAt_instrAt hi hprog
  rw [Nat.zero_add] at hwords
  apply h.step_handler hQ hwords
  exact h.fetched.handler hl hprog (admits_operands i) (fun _ => holdsAt_second hwords) i.first hexec

/-- The core simulates the view. -/
theorem coreStep_simulates
    (hl : l.Plain) (hQ : QuietDevices Q) {prog : List Instr}
    (hprog : flash.HoldsAt 0 (encodeProgram prog)) :
  MachineLogic.Simulates coreStep (Cpu.step l prog) (Shows (δ := δ) l flash st Q 0)
  := by
  intro c m m' h hstep
  obtain ⟨name, c', hrun, h'⟩ := h.step hl hQ hprog hstep
  refine ⟨c', ?_, h'⟩
  rw [coreStep, hrun]

/-- The view of a core -/
def AvrCore.view (c : AvrCore δ) : Cpu where
  pc := c.pc.toNat
  gpwr := c.gpwr
  sreg := c.sreg
  sp := c.spGet
  sram := c.sramByte
  clocks := c.ck

/-- A core between two instructions of a program, with no interrupt pending -/
structure AvrCore.Ready (c : AvrCore δ) (Q : δ → Prop) : Prop where
  plain : c.layout.Plain
  dev : Q c.dev
  pc : 0 ≤ c.pc
  stack : c.stack = .mem
  awake : c.state ≠ .sleep
  pending : c.irqPending.entries = []

omit [IoDevices δ] in
theorem AvrCore.Ready.shows
    (h : c.Ready Q) :
  Shows c.layout c.flash c.state Q 0 c c.view
  := ⟨rfl, rfl, h.dev, (Int.toNat_of_nonneg h.pc).symm, rfl, rfl, rfl, fun _ _ => rfl, h.stack, rfl, h.awake,
    h.pending, rfl⟩

/-- As long as the instructions of a program have an effect on the view, the core does what they do
to the view, and takes their clocks. -/
theorem programmers_view
    (h : c.Ready Q) (hQ : QuietDevices Q) {prog : List Instr}
    (hprog : c.flash.HoldsAt 0 (encodeProgram prog)) {n : Nat} {m : Cpu}
    (hrun : steps (Cpu.step c.layout prog) n c.view = some m) :
  ∃ c', steps coreStep n c = some c' ∧ Shows c.layout c.flash c.state Q 0 c' m
  := (coreStep_simulates h.plain hQ hprog).steps h.shows hrun

end

/-! ### The at90s8515 -/

/-- Peripherals of which no callback is installed -/
theorem quiet_peripherals :
  QuietDevices Peripherals.Quiet
  := by
  constructor
  · intro ck p hp
    obtain ⟨q, hrun, hq⟩ := hp.run_clkCbExec ck
    refine ⟨q, ?_, hq⟩
    change ((clkCbExec ck).run p).map Prod.swap = _
    rw [hrun]
    rfl
  · intro p hp
    obtain ⟨q, hrun, hq⟩ := hp.run_asyncCbExec
    refine ⟨q, ?_, hq⟩
    change (asyncCbExec.run p).map Prod.swap = _
    rw [hrun]
    rfl

/-- A program that counts from 5 down to 4 -/
def countingProgram : List Instr :=
  [.ldi 0 5, .dec 16, .brk]

def AvrCore.counting : AvrCore Peripherals :=
  { AvrCore.construct defnAt90s8515 Peripherals.at90s8515 with
    flash := .ofWords (encodeProgram countingProgram) }

theorem counting_plain :
  AvrCore.counting.layout.Plain
  := by
  constructor <;> decide +kernel

theorem counting_holds :
  AvrCore.counting.flash.HoldsAt 0 (encodeProgram countingProgram)
  := Flash.ofWords_holds _

theorem counting_run
    {m : Cpu} (hpc : m.pc = 0) :
  ∃ m', steps (Cpu.step AvrCore.counting.layout countingProgram) 2 m = some m' ∧
    m'.pc = 2 ∧ m'.gpwr 16 = 4 ∧ m'.clocks = m.clocks + 2
  := by
  have hmax : AvrCore.counting.layout.pcMax = 4096 := by decide +kernel
  have hldi : m.step AvrCore.counting.layout countingProgram = some _ :=
    Cpu.step_ldi (a := 0) (d := 0) (K := 5) (r := 16) hpc rfl rfl (by omega)
  obtain ⟨sreg, -, hdec⟩ := @Cpu.step_dec AvrCore.counting.layout countingProgram
    ({ m with gpwr := Function.update m.gpwr 16 5 }.after 1 1) 1 16 16 rfl rfl (by omega) rfl
  refine ⟨_, steps_trans (steps_one hldi) (steps_one hdec), rfl, ?_, rfl⟩
  change Function.update (Function.update m.gpwr 16 5) 16 (Function.update m.gpwr 16 (5 : Byte) 16 - 1) 16
    = 4
  rw [Function.update_self, Function.update_self]
  rfl

theorem programmers_view_counting :
  ∃ c', steps coreStep 2 AvrCore.counting = some c' ∧ c'.gpwr 16 = 4 ∧ c'.ck = 2
  := by
  have hready : AvrCore.counting.Ready Peripherals.Quiet :=
    ⟨counting_plain, Peripherals.at90s8515_quiet, by decide, rfl, by decide, rfl⟩
  obtain ⟨m, hrun, hpc, hgpwr, hclocks⟩ := counting_run (m := AvrCore.counting.view) rfl
  obtain ⟨c', hsteps, h'⟩ :=
    programmers_view hready quiet_peripherals counting_holds hrun
  refine ⟨c', hsteps, ?_, ?_⟩
  · rw [h'.gpwr, hgpwr]
  · have hck := h'.clocks
    rw [hclocks] at hck
    exact hck

end SimulAvr
