import SimulAvr.Frame

/-!
# The stack in SRAM

What a push onto a stack in SRAM leaves in memory, and what a pop finds there: the bytes
of the value, with the low byte at the stack pointer and the others below it
(`stackPush_run`, `stackPop_run`).
-/

namespace SimulAvr

section

variable {δ : Type}

/-- The address `a` is attached to a byte of the SRAM. -/
def Layout.IsSram (layout : Layout) (a : Word) : Prop :=
  layout.mem.cell a.toNat = { vdev := some .sram, rdMask := 0xff, wrMask := 0xff } ∧
    (a.toNat : Int) ≤ layout.mem.xramEnd ∧
    layout.sramBase ≤ a.toNat ∧ (a.toNat : Int) < layout.sramBase + layout.sramSize

instance (layout : Layout) (a : Word) : Decidable (layout.IsSram a) :=
  inferInstanceAs (Decidable (_ ∧ _ ∧ _ ∧ _))

namespace AvrCore

/-- The byte of the SRAM at an address. -/
def sramByte (c : AvrCore δ) (a : Word) : Byte :=
  c.sram.data (a.toNat - c.sram.base)

/-- The core with another content of the SRAM, and other messages to the display. -/
def withSram (c : AvrCore δ) (data : Int → Byte) (display : List DisplayMsg) : AvrCore δ :=
  { c with sram := { c.sram with data := data }, display := display }

/-- The `n` bytes at `top, top - 1, …` are the low bytes of `val`, the lowest at `top`. -/
def HoldsBytes (c : AvrCore δ) (top : Word) (n : Nat) (val : BitVec 32) : Prop :=
  ∀ i < n, c.sramByte (top - .ofNat 16 i) = (val >>> (8 * i)).setWidth 8

end AvrCore

/-- Setting the stack pointer and reading it back. -/
theorem spGet_spSet
    (c : AvrCore δ) (val : Word) :
  (c.spSet val).spGet = val
  := extractLsb'_append_self val

/-! ### Accesses to a byte of the SRAM -/

variable [IoDevices δ]

theorem memRead_sram
    {c : AvrCore δ} {a : Word} (ha : c.layout.IsSram a) :
  (memRead a.toNat).run c = .ok (c.sramByte a, c)
  := by
  obtain ⟨hcell, hend, hlo, hhi⟩ := ha
  have hread : (sramRead a.toNat).run c = .ok (c.sramByte a, c) := by
    rw [run_sramRead, storageReadb]
    change (c.sram.base : Int) ≤ a.toNat at hlo
    change (a.toNat : Int) < c.sram.base + c.sram.size at hhi
    rw [if_neg (by omega)]
    rfl
  rw [memRead, Program.run_bind_of_ok (run_memGetCell c _ ⟨by omega, hend⟩)]
  rw [show c.mem.cell a.toNat = _ from hcell]
  change (do let val ← sramRead a.toNat; return val &&& 0xff : CoreM δ Byte).run c = _
  rw [Program.run_bind_of_ok hread, Program.run_pure]
  congr
  apply BitVec.and_allOnes

omit [IoDevices δ] in
theorem sramWrite_sram
    {c : AvrCore δ} {a : Word} (ha : c.layout.IsSram a) (val : Byte) :
  ∃ display, (sramWrite a.toNat val).run c = .ok ((),
    c.withSram (Function.update c.sram.data (a.toNat - c.sram.base) val) display)
  := by
  obtain ⟨-, -, hlo, hhi⟩ := ha
  change (c.sram.base : Int) ≤ a.toNat at hlo
  change (a.toNat : Int) < c.sram.base + c.sram.size at hhi
  rw [run_sramWrite, storageWriteb, if_neg (by omega)]
  exact ⟨_, rfl⟩

theorem memWrite_sram
    {c : AvrCore δ} {a : Word} (ha : c.layout.IsSram a) (val : Byte) :
  ∃ display, (memWrite a.toNat val).run c = .ok ((),
    c.withSram (Function.update c.sram.data (a.toNat - c.sram.base) val) display)
  := by
  obtain ⟨hcell, hend, -⟩ := id ha
  rw [memWrite, Program.run_bind_of_ok (run_memGetCell c _ ⟨by omega, hend⟩)]
  rw [show c.mem.cell a.toNat = _ from hcell]
  simp only [show val &&& 0xff = val from BitVec.and_allOnes]
  rw [Program.run_bind_of_ok (run_update _ c)]
  change ∃ display, (sramWrite a.toNat val).run _ = _
  split
  · obtain ⟨display, hwrite⟩ := sramWrite_sram (c := c.displaySend _) ha val
    exact ⟨display, hwrite⟩
  · apply sramWrite_sram ha

omit [IoDevices δ] in
/-- The byte that a write changes. -/
theorem sramByte_update
    (c : AvrCore δ) (a b : Word) (val : Byte) (display : List DisplayMsg) :
  (c.withSram (Function.update c.sram.data (a.toNat - c.sram.base) val) display).sramByte b
    = if b = a then val else c.sramByte b
  := by
  by_cases heq : b = a
  · rw [if_pos heq, heq]
    apply Function.update_self
  · rw [if_neg heq]
    apply Function.update_of_ne
    intro hidx
    apply heq
    apply BitVec.eq_of_toNat_eq
    change (b.toNat : Int) - c.sram.base = a.toNat - c.sram.base at hidx
    omega

/-! ### Pushes -/

/-- Two stack addresses less than the size of the data space apart are different. -/
theorem stack_address_ne
    (top : Word) {i j : Nat} (hi : i < 2 ^ 16) (hj : j < 2 ^ 16) (hne : i ≠ j) :
  top - BitVec.ofNat 16 i ≠ top - BitVec.ofNat 16 j
  := by
  intro heq
  apply hne
  rw [BitVec.sub_right_inj] at heq
  have hnat := congrArg BitVec.toNat heq
  rw [BitVec.toNat_ofNat, BitVec.toNat_ofNat, Nat.mod_eq_of_lt hi, Nat.mod_eq_of_lt hj] at hnat
  apply hnat

theorem stack_address_succ
    (top : Word) (i : Nat) :
  top - 1 - BitVec.ofNat 16 i = top - BitVec.ofNat 16 (i + 1)
  := by
  rw [BitVec.ofNat_add]
  bv_omega

/-- The loop of a push writes the bytes of the value, from the stack pointer down. -/
theorem memPushLoop_run
    {n : Nat} (hn : n < 2 ^ 16) {top : Word} (val : BitVec 32) {c : AvrCore δ}
    (hsram : ∀ i < n, c.layout.IsSram (top - .ofNat 16 i)) :
  ∃ data display, (memPushLoop n top val).run c
      = .ok (top - .ofNat 16 n, c.withSram data display) ∧
    (c.withSram data display).HoldsBytes top n val ∧
    ∀ a, (∀ i < n, a ≠ top - .ofNat 16 i) →
      (c.withSram data display).sramByte a = c.sramByte a
  := by
  induction n generalizing top val c with
  | zero =>
    refine ⟨c.sram.data, c.display, ?_, ?_, ?_⟩
    · rw [show top - BitVec.ofNat 16 0 = top from by simp]
      rfl
    · intro i hi
      omega
    · intro a _
      rfl
  | succ n ih =>
    have htop := hsram 0 (by omega)
    rw [show top - BitVec.ofNat 16 0 = top from by simp] at htop
    obtain ⟨display₁, hwrite⟩ := memWrite_sram htop (val.setWidth 8)
    have hbyte := fun b => sramByte_update c top b (val.setWidth 8) display₁
    generalize hc₁ : c.withSram _ display₁ = c₁ at hwrite hbyte
    have hsram₁ : ∀ i < n, c₁.layout.IsSram (top - 1 - .ofNat 16 i) := by
      intro i hi
      rw [stack_address_succ, ← hc₁]
      apply hsram (i + 1) (by omega)
    obtain ⟨data, display, hrun, hholds, hkeep⟩ := ih (by omega) (val >>> 8) hsram₁
    have hwith : c₁.withSram data display = c.withSram data display := by
      rw [← hc₁]
      rfl
    rw [hwith] at hrun hholds hkeep
    refine ⟨data, display, ?_, ?_, ?_⟩
    · rw [memPushLoop, Program.run_bind_of_ok hwrite, hrun, stack_address_succ]
    · intro i hi
      cases i with
      | zero =>
        rw [show top - BitVec.ofNat 16 0 = top from by simp]
        rw [hkeep top, hbyte, if_pos rfl]
        · rfl
        · intro j hj heq
          rw [stack_address_succ] at heq
          apply stack_address_ne top (i := 0) (j := j + 1) (by omega) (by omega) (by omega)
          rw [← heq]
          simp
      | succ i =>
        rw [← stack_address_succ, hholds i (by omega), ← BitVec.shiftRight_add]
        congr 2
        omega
    · intro a ha
      have hne : a ≠ top := by
        have := ha 0 (by omega)
        rwa [show top - BitVec.ofNat 16 0 = top from by simp] at this
      rw [hkeep a, hbyte, if_neg hne]
      intro i hi
      rw [stack_address_succ]
      apply ha (i + 1) (by omega)

/-- A push onto a stack in SRAM writes the bytes of the value and moves the stack pointer
below them. -/
theorem stackPush_run
    {bytes : Int} (hbytes : 0 ≤ bytes ∧ bytes < 4) (val : BitVec 32) {c : AvrCore δ}
    (hstack : c.stack = .mem)
    (hsram : ∀ i < bytes.toNat, c.layout.IsSram (c.spGet - .ofNat 16 i)) :
  ∃ data display, (avrCoreStackPush bytes val).run c = .ok ((),
      (c.withSram data display).spSet (c.spGet - .ofNat 16 bytes.toNat)) ∧
    (c.withSram data display).HoldsBytes c.spGet bytes.toNat val ∧
    ∀ a, (∀ i < bytes.toNat, a ≠ c.spGet - .ofNat 16 i) →
      (c.withSram data display).sramByte a = c.sramByte a
  := by
  obtain ⟨data, display, hrun, hholds, hkeep⟩ := memPushLoop_run (by omega) val hsram
  refine ⟨data, display, ?_, hholds, hkeep⟩
  rw [avrCoreStackPush, Program.run_bind_of_ok (run_gets _ c), hstack]
  change (memPush bytes val).run c = _
  rw [memPush, Program.run_bind_of_ok (run_gets _ c)]
  rw [Program.run_bind_of_ok (run_avrErrorIf_neg (by omega) _ _ c)]
  rw [Program.run_bind_of_ok hrun]
  rfl

/-! ### Pops -/

/-- The value that a pop of `n` bytes finds after a push of `val`. -/
def lowBytes (n : Nat) (val : BitVec 32) : BitVec 32 :=
  (val.setWidth (8 * n)).setWidth 32

theorem lowBytes_succ
    (n : Nat) (val : BitVec 32) :
  ((val >>> (8 * n)).setWidth 8).setWidth 32 <<< (n * 8) ||| lowBytes n val
    = lowBytes (n + 1) val
  := by
  apply BitVec.eq_of_getLsbD_eq
  intro i hi
  simp only [lowBytes, BitVec.getLsbD_or, BitVec.getLsbD_shiftLeft, BitVec.getLsbD_setWidth,
    BitVec.getLsbD_ushiftRight]
  by_cases hlt : i < 8 * n
  · have h₁ : i < n * 8 := by omega
    have h₂ : i < 8 * (n + 1) := by omega
    simp [hi, hlt, h₁, h₂]
  · have h₁ : ¬ i < n * 8 := by omega
    have h₃ : 8 * n + (i - n * 8) = i := by omega
    by_cases h₂ : i < 8 * (n + 1)
    · have h₄ : i - n * 8 < 8 := by omega
      have h₅ : i - n * 8 < 32 := by omega
      simp [hi, hlt, h₁, h₂, h₃, h₄, h₅]
    · have h₄ : ¬ i - n * 8 < 8 := by omega
      simp [hlt, h₂, h₄]

theorem lowBytes_toNat
    {n : Nat} (hn : n < 4) (val : BitVec 32) :
  (lowBytes n val).toNat = val.toNat % 2 ^ (8 * n)
  := by
  have hle : 2 ^ (8 * n) ≤ 2 ^ 24 := Nat.pow_le_pow_right (by omega) (by omega)
  have hlt := Nat.mod_lt val.toNat (Nat.two_pow_pos (8 * n))
  rw [lowBytes, BitVec.toNat_setWidth, BitVec.toNat_setWidth, Nat.mod_eq_of_lt (by omega)]

/-- The loop of a pop finds the bytes above the stack pointer. -/
theorem memPopLoop_run
    {n : Nat} {top : Word} {val : BitVec 32} {c : AvrCore δ}
    (hsram : ∀ i < n, c.layout.IsSram (top - .ofNat 16 i)) (hholds : c.HoldsBytes top n val)
    (acc : BitVec 32) :
  (memPopLoop n (top - .ofNat 16 n) acc).run c = .ok ((acc ||| lowBytes n val, top), c)
  := by
  induction n generalizing acc with
  | zero =>
    rw [show top - BitVec.ofNat 16 0 = top from by simp]
    rw [show lowBytes 0 val = 0#32 from by simp [lowBytes, BitVec.of_length_zero], BitVec.or_zero]
    rfl
  | succ n ih =>
    have hsp : top - BitVec.ofNat 16 (n + 1) + 1 = top - BitVec.ofNat 16 n := by
      rw [BitVec.ofNat_add]
      bv_omega
    rw [memPopLoop]
    simp only [hsp]
    rw [Program.run_bind_of_ok (memRead_sram (hsram n (by omega)))]
    rw [ih (fun i hi => hsram i (by omega)) (fun i hi => hholds i (by omega))]
    rw [hholds n (by omega), BitVec.or_assoc, lowBytes_succ]

/-- A pop from a stack in SRAM finds the bytes above the stack pointer and moves the stack
pointer to the highest of them. -/
theorem stackPop_run
    {bytes : Int} (hbytes : 0 ≤ bytes ∧ bytes < 4) {top : Word} {val : BitVec 32}
    {c : AvrCore δ} (hstack : c.stack = .mem) (hsp : c.spGet = top - .ofNat 16 bytes.toNat)
    (hsram : ∀ i < bytes.toNat, c.layout.IsSram (top - .ofNat 16 i))
    (hholds : c.HoldsBytes top bytes.toNat val) :
  (avrCoreStackPop bytes).run c = .ok (lowBytes bytes.toNat val, c.spSet top)
  := by
  rw [avrCoreStackPop, Program.run_bind_of_ok (run_gets _ c), hstack]
  change (memPop bytes).run c = _
  rw [memPop, Program.run_bind_of_ok (run_gets _ c)]
  rw [Program.run_bind_of_ok (run_avrErrorIf_neg (by omega) _ _ c), hsp]
  have hloop := memPopLoop_run hsram hholds 0
  rw [show 0 ||| lowBytes bytes.toNat val = _ from BitVec.zero_or] at hloop
  rw [Program.run_bind_of_ok hloop]
  rfl

/-- A pop after the push of an integer finds its residue. -/
theorem lowBytes_ofInt_emod
    {n : Nat} (hn : n < 4) (k : Int) :
  (lowBytes n (.ofInt 32 k)).toInt = k % 2 ^ (8 * n)
  := by
  have hle : 2 ^ (8 * n) ≤ 2 ^ 24 := Nat.pow_le_pow_right (by omega) (by omega)
  have hlt := Nat.mod_lt (BitVec.ofInt 32 k).toNat (Nat.two_pow_pos (8 * n))
  rw [← lowBytes_toNat hn] at hlt
  rw [BitVec.toInt_eq_toNat_of_lt (by omega), lowBytes_toNat hn, BitVec.toNat_ofInt]
  have hnonneg : 0 ≤ k % (2 ^ 32 : Nat) := Int.emod_nonneg _ (by decide)
  have hdvd : ((2 ^ (8 * n) : Nat) : Int) ∣ (2 ^ 32 : Nat) := by
    apply Int.natCast_dvd_natCast.mpr
    apply Nat.pow_dvd_pow
    omega
  rw [Int.natCast_emod, Int.toNat_of_nonneg hnonneg, Int.emod_emod_of_dvd _ hdvd,
    Int.natCast_pow]
  rfl

/-- A pop after the push of an integer that fits the bytes. -/
theorem lowBytes_ofInt
    {n : Nat} (hn : n < 4) {val : Int} (hlo : 0 ≤ val) (hhi : val < 2 ^ (8 * n)) :
  (lowBytes n (.ofInt 32 val)).toInt = val
  := by
  rw [lowBytes_ofInt_emod hn, Int.emod_eq_of_lt hlo hhi]

/-! ### The state of a stack -/

/-- The stack is in memory, and the bytes of a push are in SRAM. -/
structure SramStack (c : AvrCore δ) (bytes : Int) : Prop where
  stack : c.stack = .mem
  range : 0 ≤ bytes ∧ bytes < 4
  sram : ∀ i < bytes.toNat, c.layout.IsSram (c.spGet - .ofNat 16 i)

/-- What a push changes: the bytes at the stack pointer and below hold the value, and the
stack pointer moves below them. -/
structure PushEffect (c : AvrCore δ) (bytes : Int) (val : BitVec 32) (c' : AvrCore δ) : Prop where
  pushed : c'.HoldsBytes c.spGet bytes.toNat val
  sp : c'.spGet = c.spGet - .ofNat 16 bytes.toNat
  sram : ∀ a, (∀ i < bytes.toNat, a ≠ c.spGet - .ofNat 16 i) → c'.sramByte a = c.sramByte a
  stack : c'.stack = c.stack
  layout : c'.layout = c.layout

/-- The core `d` has the device of `c`, and its stack pointer and stack bytes are as left by
the push of `n` bytes from `top` that ended in `c`. -/
structure StackAsLeft (c d : AvrCore δ) (top : Word) (n : Nat) : Prop where
  layout : d.layout = c.layout
  stack : d.stack = .mem
  sp : d.spGet = c.spGet
  bytes : ∀ i < n, d.sramByte (top - .ofNat 16 i) = c.sramByte (top - .ofNat 16 i)

omit [IoDevices δ] in
theorem StackAsLeft.holdsBytes
    {c d : AvrCore δ} {top : Word} {n : Nat} (h : StackAsLeft c d top n) {val : BitVec 32}
    (hholds : c.HoldsBytes top n val) :
  d.HoldsBytes top n val
  := by
  intro i hi
  rw [h.bytes i hi, hholds i hi]

end

end SimulAvr
