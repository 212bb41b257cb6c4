import SimulAvr.FlashUpdates
import SimulAvr.GdbMemory
import SimulAvr.Lib.PagedMemory

/-!
# Self-programming

A program erases, fills and writes pages of 128 words of its flash by a write to SPMCSR and
SPM, with the address in RAMPZ and Z.  With SPMCSR and SPM the core is a memory that is
programmed by the page (`spmRun_refines`), so that a page that is erased, filled and written
holds what was filled in last, and the loads from the program memory read it back
(`flash_self_programming`).
-/

namespace SimulAvr

open Program PagedMemory

/-! ### The flash as a memory that is programmed by the page -/

/-- The pages of the flash, and the words of a page. -/
def flashPages : Geometry Int (Fin 128) Int where
  page a := a / 128
  offset a := ⟨(a % 128).toNat, by omega⟩

/-- The value of an erased word. -/
abbrev erasedWord : Word := 0xffff

section

variable {δ : Type}

/-- The words of the flash and of the page buffer. -/
def AvrCore.flashState (c : AvrCore δ) : State Int (Fin 128) Word where
  image := c.flash.word
  buffer i := c.spmhelper.pageBuffer (i.val * 2 + 1) ++ c.spmhelper.pageBuffer (i.val * 2)

/-- The core has SPMCSR, with nothing masked, and a flash of a size that a device has. -/
structure HasSpm (c : AvrCore δ) : Prop where
  base : c.flash.base = 0
  size : c.flash.size ≤ 128 * 1024
  addr : 0 ≤ c.spmhelper.addr ∧ c.spmhelper.addr ≤ c.mem.xramEnd
  vdev : (c.mem.cell c.spmhelper.addr).vdev = some .spm
  wrMask : (c.mem.cell c.spmhelper.addr).wrMask = 0xff

/-- What the instructions leave that write neither the flash nor SPMCSR. -/
structure SameSpm (c c' : AvrCore δ) : Prop where
  flash : c'.flash = c.flash
  spmhelper : c'.spmhelper = c.spmhelper
  mem : c'.mem = c.mem

/-- A write to SPMCSR and the operands of the SPM that follows it. -/
structure SpmUse where
  spmcsr : Byte
  /-- RAMPZ and Z -/
  Z : Nat
  r0 : Byte
  r1 : Byte

namespace SpmUse

/-- The operands are loaded. -/
structure Loaded (u : SpmUse) (c : AvrCore δ) : Prop where
  Z : OpcodeName.SPM.loadAddr c = u.Z
  r0 : c.gpwr 0 = u.r0
  r1 : c.gpwr 1 = u.r1

/-- The operation on the flash and the page buffer. -/
def op (u : SpmUse) : Op (Fin 128) Int Word :=
  if u.spmcsr = 0x11 then .clear
  else if u.spmcsr = 0x01 then .fill ⟨u.Z % 256 / 2, by omega⟩ (u.r1 ++ u.r0)
  else if u.spmcsr = 0x03 then .erase (u.Z / 256 : Nat)
  else .write (u.Z / 256 : Nat)

/-- SPM has an operation for SPMCSR, and the page it erases or writes lies inside the flash. -/
structure Valid (size : Int) (u : SpmUse) : Prop where
  spmcsr : u.spmcsr ∈ ([0x11, 0x01, 0x03, 0x05] : List Byte)
  page : u.spmcsr = 0x03 ∨ u.spmcsr = 0x05 → 256 * ((u.Z / 256 : Nat) + 1 : Int) ≤ size

end SpmUse

variable [IoDevices δ]

/-- The write to SPMCSR and SPM do not abort, and lead to a core with `Q`, whatever
instructions the program executes before the write, and between the write and SPM to load
the operands. -/
def SpmUse.Leads (u : SpmUse) (c : AvrCore δ) (Q : AvrCore δ → Prop) : Prop :=
  ∀ c₁, SameSpm c c₁ →
    ∃ c₂, (memWrite c₁.spmhelper.addr u.spmcsr).run c₁ = .ok ((), c₂) ∧
      ∀ c₃, SameSpm c₂ c₃ → u.Loaded c₃ →
        ∃ c₄, avrOpSPM.run c₃ = .ok (.opcode .SPM, c₄) ∧ Q c₄

/-- The uses of SPM, one after the other, do not abort and lead to a core with `Q`. -/
def SpmRun : List SpmUse → AvrCore δ → (AvrCore δ → Prop) → Prop
  | [], c, Q => Q c
  | u :: uses, c, Q => u.Leads c fun c' => SpmRun uses c' Q

/-! ### The loops of SPM -/

/-- The core `c'` has the words `word` in its flash, and else what SPM finds in `c`. -/
structure Rewritten (c c' : AvrCore δ) (word : Int → Word) : Prop where
  base : c'.flash.base = c.flash.base
  size : c'.flash.size = c.flash.size
  spmhelper : c'.spmhelper = c.spmhelper
  mem : c'.mem = c.mem
  word : c'.flash.word = word

omit [IoDevices δ] in
theorem Rewritten.trans
    {c c' c'' : AvrCore δ} {word word' : Int → Word} (h : Rewritten c c' word)
    (h' : Rewritten c' c'' word') :
  Rewritten c c'' word'
  := by
  constructor
  · rw [h'.base, h.base]
  · rw [h'.size, h.size]
  · rw [h'.spmhelper, h.spmhelper]
  · rw [h'.mem, h.mem]
  · apply h'.word

omit [IoDevices δ] in
/-- A word that is written. -/
theorem rewritten_writeWord
    (c : AvrCore δ) (addr : Int) (val : Word) :
  Rewritten c (c.writeWord addr val) (Function.update c.flash.word addr val)
  := by
  constructor
  · rfl
  · rfl
  · rfl
  · rfl
  · apply Flash.word_setWord

omit [IoDevices δ] in
theorem Rewritten.valid_iff
    {c c' : AvrCore δ} {word : Int → Word} (h : Rewritten c c' word) (addr : Int) :
  c'.flash.Valid addr ↔ c.flash.Valid addr
  := by
  rw [Flash.Valid, Flash.Valid, h.base, h.size]

omit [IoDevices δ] in
/-- The words from `addr` on are erased. -/
theorem run_spmErase
    {c : AvrCore δ} {addr : Int} {n : Nat}
    (hvalid : ∀ a, addr ≤ a → a < addr + n → c.flash.Valid a) :
  ∃ c', (spmErase addr n).run c = .ok ((), c') ∧
    Rewritten c c' fun a => if addr ≤ a ∧ a < addr + n then erasedWord else c.flash.word a
  := by
  induction n generalizing c addr with
  | zero =>
    use c
    refine ⟨rfl, rfl, rfl, rfl, rfl, ?_⟩
    funext a
    rw [if_neg (by omega)]
  | succ n ih =>
    have hfirst := rewritten_writeWord c addr erasedWord
    have hrest : ∀ a, addr + 1 ≤ a → a < addr + 1 + n →
        (c.writeWord addr erasedWord).flash.Valid a := by
      intro a hlow hhigh
      rw [hfirst.valid_iff]
      apply hvalid a (by omega) (by omega)
    obtain ⟨c', hrun, h⟩ := ih hrest
    use c'
    constructor
    · rw [spmErase, run_bind_of_ok
        (run_avrCoreFlashWrite_of_valid (hvalid addr (le_refl _) (by omega)) _)]
      apply hrun
    · convert hfirst.trans h using 1
      funext a
      rw [hfirst.word, Function.update_apply]
      grind

omit [IoDevices δ] in
/-- The word of the page buffer at an index. -/
theorem pageWord_eq
    (w : Word) (high low : Byte) :
  (w.extractLsb' 8 8 &&& high) ++ (w.extractLsb' 0 8 &&& low) = w &&& (high ++ low)
  := by
  rw [← BitVec.and_append, extractLsb'_append_self]

/-- The words of the page buffer after a fill of the word `k`. -/
theorem pageWord_update
    (buffer : Int → Byte) (k j : Nat) (r0 r1 : Byte) :
  Function.update (Function.update buffer (k * 2 : Nat) r0) ((k * 2 : Nat) + 1) r1 (j * 2 + 1) ++
    Function.update (Function.update buffer (k * 2 : Nat) r0) ((k * 2 : Nat) + 1) r1 (j * 2) =
  if j = k then r1 ++ r0 else buffer (j * 2 + 1) ++ buffer (j * 2)
  := by
  rw [Int.natCast_mul]
  split
  · next heq =>
    rw [heq]
    congr 1
    · apply Function.update_self
    · rw [Function.update_of_ne (by omega)]
      apply Function.update_self
  · next hne =>
    congr 1
    · rw [Function.update_of_ne (by omega), Function.update_of_ne (by omega)]
    · rw [Function.update_of_ne (by omega), Function.update_of_ne (by omega)]

omit [IoDevices δ] in
/-- The words of the page buffer from `i` on are written to the page at `Z`. -/
theorem run_spmWritePage
    {c : AvrCore δ} {Z i : Int} {n : Nat}
    (hvalid : ∀ a, Z + i ≤ a → a < Z + i + n → c.flash.Valid a) :
  ∃ c', (spmWritePage Z i n).run c = .ok ((), c') ∧
    Rewritten c c' fun a =>
      if Z + i ≤ a ∧ a < Z + i + n then
        c.flash.word a &&& (c.spmhelper.pageBuffer ((a - Z) * 2 + 1) ++
          c.spmhelper.pageBuffer ((a - Z) * 2))
      else
        c.flash.word a
  := by
  induction n generalizing c i with
  | zero =>
    use c
    refine ⟨rfl, rfl, rfl, rfl, rfl, ?_⟩
    funext a
    rw [if_neg (by omega)]
  | succ n ih =>
    have hword : c.flash.Valid (Z + i) := hvalid _ (le_refl _) (by omega)
    have hfirst := rewritten_writeWord c (Z + i) (c.flash.word (Z + i) &&&
      (c.spmhelper.pageBuffer (i * 2 + 1) ++ c.spmhelper.pageBuffer (i * 2)))
    have hrest : ∀ a, Z + (i + 1) ≤ a → a < Z + (i + 1) + n →
        (c.writeWord (Z + i) (c.flash.word (Z + i) &&&
          (c.spmhelper.pageBuffer (i * 2 + 1) ++ c.spmhelper.pageBuffer (i * 2)))).flash.Valid a := by
      intro a hlow hhigh
      rw [hfirst.valid_iff]
      apply hvalid a (by omega) (by omega)
    obtain ⟨c', hrun, h⟩ := ih hrest
    use c'
    constructor
    · rw [spmWritePage, run_bind_of_ok (run_avrCoreFlashRead_of_valid hword),
        run_bind_of_ok (run_gets _ c)]
      dsimp only
      rw [pageWord_eq, run_bind_of_ok (run_avrCoreFlashWrite_of_valid hword _)]
      apply hrun
    · convert hfirst.trans h using 1
      funext a
      rw [hfirst.word, hfirst.spmhelper, Function.update_apply]
      by_cases ha : a = Z + i
      · rw [if_pos (by omega), if_neg (by omega), if_pos ha, ha,
          show Z + i - Z = i by omega]
      · grind

/-! ### The operations -/

omit [IoDevices δ] in
/-- A mask of `k` ones, moved up by `j`. -/
theorem and_mask
    (x j k : Nat) :
  x &&& ((2 ^ k - 1) <<< j) = x / 2 ^ j % 2 ^ k * 2 ^ j
  := by
  rw [← Nat.shiftLeft_eq, ← Nat.and_two_pow_sub_one_eq_mod, Nat.shiftLeft_and_distrib,
    ← Nat.shiftRight_eq_div_pow]
  apply Nat.eq_of_testBit_eq
  intro i
  simp only [Nat.testBit_and, Nat.testBit_shiftLeft, Nat.testBit_shiftRight]
  by_cases h : j ≤ i
  · simp [h]
  · simp [h]

omit [IoDevices δ] in
/-- The first word of the page of an address. -/
theorem pageAddr_eq
    {Z : Nat} (h : Z < 128 * 1024) :
  (Z >>> 1) &&& 0xff80 = Z / 256 * 128
  := by
  rw [show 0xff80 = (2 ^ 9 - 1) <<< 7 by rfl, and_mask, Nat.shiftRight_eq_div_pow]
  omega

omit [IoDevices δ] in
/-- The place of a word in the page buffer. -/
theorem bufferAddr_eq
    (Z : Nat) :
  Z &&& 0xfe = Z % 256 / 2 * 2
  := by
  rw [show 0xfe = (2 ^ 7 - 1) <<< 1 by rfl, and_mask]
  omega

/-- The core `c` has SPM, a flash of the size `size`, and the words of `s`. -/
structure Represents (size : Int) (c : AvrCore δ) (s : State Int (Fin 128) Word) : Prop where
  hasSpm : HasSpm c
  size : c.flash.size = size
  state : c.flashState = s

omit [IoDevices δ] in
theorem Represents.of_same
    {size : Int} {c c' : AvrCore δ} {s : State Int (Fin 128) Word} (h : Represents size c s)
    (hsame : SameSpm c c') :
  Represents size c' s
  := by
  obtain ⟨hflash, hspmhelper, hmem⟩ := hsame
  constructor
  · constructor
    · rw [hflash, h.hasSpm.base]
    · rw [hflash]
      apply h.hasSpm.size
    · rw [hspmhelper, hmem]
      apply h.hasSpm.addr
    · rw [hspmhelper, hmem, h.hasSpm.vdev]
    · rw [hspmhelper, hmem, h.hasSpm.wrMask]
  · rw [hflash, h.size]
  · rw [← h.state, AvrCore.flashState, AvrCore.flashState, hflash, hspmhelper]

/-- A write to SPMCSR of a value that SPM has an operation for. -/
theorem run_memWrite_spmcsr
    {size : Int} {c : AvrCore δ} {s : State Int (Fin 128) Word} (h : Represents size c s)
    {val : Byte} (hval : val ∈ ([0x11, 0x01, 0x03, 0x05] : List Byte)) :
  ∃ c', (memWrite c.spmhelper.addr val).run c = .ok ((), c') ∧ Represents size c' s ∧
    c'.spmhelper.spmcsr = val
  := by
  have hmask : val &&& 0xff = val := BitVec.and_allOnes
  have hwrite (d : AvrCore δ) (haddr : d.spmhelper.addr = c.spmhelper.addr) :
      (spmWrite c.spmhelper.addr val).run d =
        .ok ((), { d with spmhelper := { d.spmhelper with spmcsr := val } }) := by
    simp only [List.mem_cons, List.not_mem_nil, or_false] at hval
    rw [spmWrite, run_bind_of_ok (run_gets _ d)]
    obtain rfl | rfl | rfl | rfl := hval <;>
    · rw [run_bind_of_ok (run_avrErrorIf_neg (by decide) _ _ d),
        run_bind_of_ok (run_avrErrorIf_neg (by decide) _ _ d),
        run_bind_of_ok (run_avrErrorIf_neg (by decide) _ _ d),
        run_bind_of_ok (run_avrErrorIf_neg (by decide) _ _ d),
        run_bind_of_ok (run_avrErrorIf_neg (not_not.mpr haddr.symm) _ _ d)]
      rfl
  rw [memWrite, run_bind_of_ok (run_memGetCell c _ h.hasSpm.addr), h.hasSpm.vdev, h.hasSpm.wrMask]
  dsimp only
  rw [run_bind_of_ok (run_update _ c), hmask]
  split
  · refine ⟨_, hwrite _ rfl, ⟨?_, h.size, h.state⟩, rfl⟩
    exact ⟨h.hasSpm.base, h.hasSpm.size, h.hasSpm.addr, h.hasSpm.vdev, h.hasSpm.wrMask⟩
  · refine ⟨_, hwrite c rfl, ⟨?_, h.size, h.state⟩, rfl⟩
    exact ⟨h.hasSpm.base, h.hasSpm.size, h.hasSpm.addr, h.hasSpm.vdev, h.hasSpm.wrMask⟩

omit [IoDevices δ] in
/-- A page inside the flash. -/
theorem Represents.page
    {size : Int} {c : AvrCore δ} {s : State Int (Fin 128) Word} (h : Represents size c s) {Z : Nat}
    (hZ : 256 * ((Z / 256 : Nat) + 1 : Int) ≤ size) :
  Z < 128 * 1024 ∧
    ∀ a : Int, (Z / 256 * 128 : Nat) ≤ a → a < (Z / 256 * 128 : Nat) + 128 → c.flash.Valid a
  := by
  have hsize := h.hasSpm.size
  rw [h.size] at hsize
  constructor
  · omega
  · intro a hlow hhigh
    rw [Flash.Valid, h.hasSpm.base, h.size]
    omega

omit [IoDevices δ] in
/-- The addresses of a page. -/
theorem mem_page_iff
    (p : Nat) (a : Int) :
  ((p * 128 : Nat) ≤ a ∧ a < (p * 128 : Nat) + 128) ↔ flashPages.page a = p
  := by
  change _ ↔ a / 128 = p
  omega

omit [IoDevices δ] in
/-- The offset of an address of a page. -/
theorem offset_page
    {p : Nat} {a : Int} (h : (p * 128 : Nat) ≤ a ∧ a < (p * 128 : Nat) + 128) :
  ((flashPages.offset a).val : Int) = a - (p * 128 : Nat)
  := by
  change ((a % 128).toNat : Int) = _
  omega

omit [IoDevices δ] in
/-- The core after an operation, where the flash has been rewritten. -/
theorem Represents.done
    {size : Int} {c c' : AvrCore δ} {s : State Int (Fin 128) Word} (h : Represents size c s)
    {word : Int → Word} (hc' : Rewritten c c' word) (buffer : Int → Byte) :
  ∃ c'', (spmDone buffer).run c' = .ok ((), c'') ∧
    Represents size c'' {
      image := word
      buffer := fun i => buffer (i.val * 2 + 1) ++ buffer (i.val * 2) }
  := by
  refine ⟨_, rfl, ?_, ?_, ?_⟩
  · constructor
    · apply hc'.base.trans h.hasSpm.base
    · apply hc'.size.le.trans h.hasSpm.size
    · simp only [hc'.spmhelper, hc'.mem]
      apply h.hasSpm.addr
    · simp only [hc'.spmhelper, hc'.mem]
      apply h.hasSpm.vdev
    · simp only [hc'.spmhelper, hc'.mem]
      apply h.hasSpm.wrMask
  · apply hc'.size.trans h.size
  · rw [AvrCore.flashState]
    congr 1
    apply hc'.word

omit [IoDevices δ] in
/-- `spm_run` for the SPMCSR and the operands of a use of SPM. -/
theorem run_spmRun
    {size : Int} {c : AvrCore δ} {s : State Int (Fin 128) Word} (h : Represents size c s)
    {u : SpmUse} (hu : u.Valid size) (hspmcsr : c.spmhelper.spmcsr = u.spmcsr) :
  ∃ c', (spmRun u.r0 u.r1 u.Z).run c = .ok ((), c') ∧
    Represents size c' (u.op.apply flashPages erasedWord s)
  := by
  have hself : Rewritten c c c.flash.word := ⟨rfl, rfl, rfl, rfl, rfl⟩
  have hstate := h.state
  obtain ⟨hval, hpage⟩ := hu
  rw [spmRun, run_bind_of_ok (run_gets _ c)]
  dsimp only
  rw [hspmcsr, SpmUse.op, ← hstate]
  simp only [List.mem_cons, List.not_mem_nil, or_false] at hval
  obtain hval | hval | hval | hval := hval
  · rw [if_pos hval, if_pos hval]
    obtain ⟨c', hrun, hc'⟩ := h.done hself fun i =>
      if 0 ≤ i ∧ i < 256 then 0xff else c.spmhelper.pageBuffer i
    use c', hrun
    convert hc' using 1
    ext : 1
    · rfl
    · funext i
      dsimp only [Op.apply]
      rw [if_pos (by omega), if_pos (by omega)]
      rfl
  · have hne : u.spmcsr ≠ 0x11 := by
      rw [hval]
      decide
    rw [if_neg hne, if_pos hval, if_neg hne, if_pos hval, bufferAddr_eq]
    obtain ⟨c', hrun, hc'⟩ := h.done hself (Function.update (Function.update
      c.spmhelper.pageBuffer (u.Z % 256 / 2 * 2 : Nat) u.r0) ((u.Z % 256 / 2 * 2 : Nat) + 1) u.r1)
    use c', hrun
    convert hc' using 1
    ext : 1
    · rfl
    · funext i
      dsimp only [Op.apply, AvrCore.flashState]
      rw [pageWord_update, Function.update_apply]
      simp only [Fin.ext_iff]
  · have hne : u.spmcsr ≠ 0x11 ∧ u.spmcsr ≠ 0x01 := by
      rw [hval]
      decide
    rw [if_neg hne.1, if_neg hne.2, if_pos hval, if_neg hne.1, if_neg hne.2, if_pos hval]
    obtain ⟨hZ, hvalid⟩ := h.page (hpage (Or.inl hval))
    rw [pageAddr_eq hZ]
    obtain ⟨c₁, herase, hc₁⟩ := run_spmErase hvalid
    obtain ⟨c', hdone, hc'⟩ := h.done hc₁ c.spmhelper.pageBuffer
    rw [run_bind_of_ok herase]
    use c', hdone
    convert hc' using 1
    ext : 1
    · funext a
      simp only [Op.apply, AvrCore.flashState, ← mem_page_iff]
      rfl
    · rfl
  · have hne : u.spmcsr ≠ 0x11 ∧ u.spmcsr ≠ 0x01 ∧ u.spmcsr ≠ 0x03 := by
      rw [hval]
      decide
    rw [if_neg hne.1, if_neg hne.2.1, if_neg hne.2.2, if_pos hval, if_neg hne.1, if_neg hne.2.1,
      if_neg hne.2.2]
    obtain ⟨hZ, hvalid⟩ := h.page (hpage (Or.inr hval))
    rw [pageAddr_eq hZ]
    rw [← Int.add_zero (u.Z / 256 * 128 : Nat)] at hvalid
    obtain ⟨c₁, hwrite, hc₁⟩ := run_spmWritePage hvalid
    obtain ⟨c', hdone, hc'⟩ := h.done hc₁ c.spmhelper.pageBuffer
    rw [run_bind_of_ok hwrite]
    use c', hdone
    convert hc' using 1
    ext : 1
    · funext a
      simp only [Op.apply, AvrCore.flashState, ← mem_page_iff, Int.add_zero]
      split
      · next hmem =>
        rw [offset_page hmem]
        symm
        apply if_pos hmem
      · next hmem =>
        symm
        apply if_neg hmem
    · rfl

/-! ### The uses of SPM -/

/-- A use of SPM does not abort, and operates on the flash and the page buffer. -/
theorem SpmUse.leads
    {size : Int} {c : AvrCore δ} {s : State Int (Fin 128) Word} (h : Represents size c s)
    {u : SpmUse} (hu : u.Valid size) {Q : AvrCore δ → Prop}
    (hQ : ∀ c', Represents size c' (u.op.apply flashPages erasedWord s) → Q c') :
  u.Leads c Q
  := by
  intro c₁ hsame
  obtain ⟨c₂, hwrite, hc₂, hspmcsr⟩ := run_memWrite_spmcsr (h.of_same hsame) hu.spmcsr
  use c₂, hwrite
  intro c₃ hsame hloaded
  have hspmcsr₃ : c₃.spmhelper.spmcsr = u.spmcsr := by
    rw [hsame.spmhelper, hspmcsr]
  obtain ⟨c₄, hrun, hc₄⟩ := run_spmRun (hc₂.of_same hsame) hu hspmcsr₃
  have hZ := hloaded.Z
  change (c₃.rampzGet &&& 0x3f).toNat * 2 ^ 16 + (c₃.gpwr 31).toNat * 2 ^ 8 +
    (c₃.gpwr 30).toNat = u.Z at hZ
  obtain ⟨c', hdone, hsame'⟩ : ∃ c', (nextInst .SPM 2).run c₄ = .ok (.opcode .SPM, c') ∧
      SameSpm c₄ c' := ⟨_, rfl, rfl, rfl, rfl⟩
  have hr0 : (avrCoreGpwrGet 0).run c₃ = .ok (u.r0, c₃) := by
    rw [← hloaded.r0]
    apply run_avrCoreGpwrGet c₃ 0
  have hr1 : (avrCoreGpwrGet 1).run c₃ = .ok (u.r1, c₃) := by
    rw [← hloaded.r1]
    apply run_avrCoreGpwrGet c₃ 1
  use c'
  constructor
  · rw [avrOpSPM, run_bind_of_ok (run_extendedZ c₃), hZ, run_bind_of_ok hr0, run_bind_of_ok hr1,
      run_bind_of_ok hrun, hdone]
  · apply hQ
    apply hc₄.of_same hsame'

/-- Uses of SPM do not abort; the core refines the memory that is programmed by the page. -/
theorem spmRun_refines
    {size : Int} {c : AvrCore δ} {s : State Int (Fin 128) Word} (h : Represents size c s)
    {uses : List SpmUse} (huses : ∀ u ∈ uses, u.Valid size) {Q : AvrCore δ → Prop}
    (hQ : ∀ c', Represents size c' (run flashPages erasedWord (uses.map SpmUse.op) s) → Q c') :
  SpmRun uses c Q
  := by
  induction uses generalizing c s with
  | nil => apply hQ c h
  | cons u uses ih =>
    obtain ⟨hu, huses⟩ := List.forall_mem_cons.mp huses
    apply SpmUse.leads h hu
    intro c' hc'
    apply ih hc' huses hQ

/-! ### The loads from the program memory -/

omit [IoDevices δ] in
/-- The byte of the flash that goes to a register. -/
theorem run_load
    {c : AvrCore δ} {a : Nat} (hvalid : c.flash.Valid (a / 2 : Nat)) (r : Fin 32)
    (rest : CoreM δ OpRet) :
  (do
    let data ← avrCoreFlashRead (a / 2 : Nat)
    avrCoreGpwrSet r.val (selectByte data (a % 2 = 1))
    rest).run c = rest.run (c.gpwrSet r (c.flash.byte a))
  := by
  rw [run_bind_of_ok (run_avrCoreFlashRead_of_valid hvalid),
    run_bind_of_ok (run_avrCoreGpwrSet c r _), selectByte_word]

omit [IoDevices δ] in
/-- The handlers that exclude the registers of Z. -/
theorem run_avrErrorIf_Z
    {r : Fin 32} (hr : r ≠ 30 ∧ r ≠ 31) (c : AvrCore δ) :
  (avrErrorIf ((r.val : Int) = 30 ∨ (r.val : Int) = 31) "Results of operation are undefined"
    []).run c = .ok ((), c)
  := by
  apply run_avrErrorIf_neg
  rintro (h30 | h31)
  · apply hr.1 (Fin.ext (Int.ofNat_inj.mp h30))
  · apply hr.2 (Fin.ext (Int.ofNat_inj.mp h31))

omit [IoDevices δ] in
theorem avrOpLPMZ_returns
    {c : AvrCore δ} (hvalid : c.flash.Valid ((c.gpwr 31 ++ c.gpwr 30).toNat / 2 : Nat))
    (r : Fin 32) :
  ∃ ret c', (avrOpLPMZ r.val).run c = .ok (ret, c')
  := by
  rw [avrOpLPMZ, run_bind_of_ok (run_pointerGet_Z c), getLsbD_zero, run_load hvalid]
  exact ⟨_, _, rfl⟩

omit [IoDevices δ] in
theorem avrOpLPMZIncr_returns
    {c : AvrCore δ} (hvalid : c.flash.Valid ((c.gpwr 31 ++ c.gpwr 30).toNat / 2 : Nat))
    {r : Fin 32} (hr : r ≠ 30 ∧ r ≠ 31) :
  ∃ ret c', (avrOpLPMZIncr r.val).run c = .ok (ret, c')
  := by
  rw [avrOpLPMZIncr, run_bind_of_ok (run_avrErrorIf_Z hr c), run_bind_of_ok (run_pointerGet_Z c),
    getLsbD_zero, run_load hvalid]
  exact ⟨_, _, rfl⟩

omit [IoDevices δ] in
theorem avrOpELPMZ_returns
    {c : AvrCore δ} (hvalid : c.flash.Valid (OpcodeName.ELPM_Z.loadAddr c / 2 : Nat))
    {r : Fin 32} (hr : r ≠ 30 ∧ r ≠ 31) :
  ∃ ret c', (avrOpELPMZ r.val).run c = .ok (ret, c')
  := by
  rw [avrOpELPMZ, run_bind_of_ok (run_avrErrorIf_Z hr c), run_bind_of_ok (run_extendedZ c)]
  apply (congrArg (fun x => ∃ ret c', x = Except.ok (ret, c')) (run_load hvalid r _)).mpr
  exact ⟨_, _, rfl⟩

omit [IoDevices δ] in
theorem avrOpELPMZIncr_returns
    {c : AvrCore δ} (hvalid : c.flash.Valid (OpcodeName.ELPM_Z.loadAddr c / 2 : Nat))
    {r : Fin 32} (hr : r ≠ 30 ∧ r ≠ 31) :
  ∃ ret c', (avrOpELPMZIncr r.val).run c = .ok (ret, c')
  := by
  rw [avrOpELPMZIncr, run_bind_of_ok (run_avrErrorIf_Z hr c), run_bind_of_ok (run_extendedZ c)]
  apply (congrArg (fun x => ∃ ret c', x = Except.ok (ret, c')) (run_load hvalid r _)).mpr
  exact ⟨_, _, rfl⟩

/-- The instruction may load the register `r`: the loads that use all of Z, or the bits above
it, exclude its registers. -/
def MayLoad (r : Fin 32) (func : OpcodeName) : Prop :=
  func ∈ [.LPM, .LPM_Z] ∨ r ≠ 30 ∧ r ≠ 31

/-- A load from inside the flash does not abort. -/
theorem handler_returns
    {func : OpcodeName} (hfunc : func ∈ loadOpcodes) {r : Fin 32} (hr : MayLoad r func)
    {c : AvrCore δ} (hvalid : c.flash.Valid (func.loadAddr c / 2 : Nat)) (opcode : Word)
    (arg2 : Int) :
  ∃ ret c', (func.handler opcode r.val arg2).run c = .ok (ret, c')
  := by
  have hr' (hne : func ∉ [OpcodeName.LPM, .LPM_Z]) : r ≠ 30 ∧ r ≠ 31 :=
    hr.resolve_left hne
  simp only [loadOpcodes, List.mem_cons, List.not_mem_nil, or_false] at hfunc
  obtain rfl | rfl | rfl | rfl | rfl | rfl := hfunc
  · apply avrOpLPMZ_returns hvalid 0
  · apply avrOpLPMZ_returns hvalid r
  · apply avrOpLPMZIncr_returns hvalid (hr' (by decide))
  · obtain ⟨ret, c', hrun⟩ := avrOpELPMZ_returns hvalid (hr' (by decide))
    use .opcode .ELPM, c'
    apply (run_bind_of_ok hrun).trans rfl
  · apply avrOpELPMZ_returns hvalid (hr' (by decide))
  · apply avrOpELPMZIncr_returns hvalid (hr' (by decide))

/-- Every load from the byte address `addr` reads the byte `val`, whatever instructions the
program executes before it. -/
def LoadsByte (c : AvrCore δ) (addr : Nat) (val : Byte) : Prop :=
  ∀ c₁, SameSpm c c₁ → ∀ func ∈ loadOpcodes, ∀ r, MayLoad r func → func.loadAddr c₁ = addr →
    ∀ opcode arg2, ∃ ret c₂, (func.handler opcode r.val arg2).run c₁ = .ok (ret, c₂) ∧
      c₂.gpwr (func.loadReg r) = val

theorem loadsByte
    {c : AvrCore δ} {addr : Nat} (hvalid : c.flash.Valid (addr / 2 : Nat)) :
  LoadsByte c addr (c.flash.byte addr)
  := by
  intro c₁ hsame func hfunc r hr haddr opcode arg2
  rw [← hsame.flash, ← haddr] at hvalid
  obtain ⟨ret, c₂, hrun⟩ := handler_returns hfunc hr hvalid opcode arg2
  use ret, c₂, hrun
  rw [handler_loads hfunc hrun, haddr, hsame.flash]

/-! ### A page is programmed -/

/-- A fill of the page buffer, with the word that it fills. -/
def SpmUse.IsFill (u : SpmUse) (f : Fin 128 × Byte × Byte) : Prop :=
  u.spmcsr = 0x01 ∧ u.Z % 256 / 2 = f.1 ∧ u.r0 = f.2.1 ∧ u.r1 = f.2.2

/-- The core after the page has been programmed: it holds the bytes of `data`, low byte first,
as the flash and as the loads read it, and the rest of the flash is as it was. -/
structure Programmed (c c' : AvrCore δ) (page : Nat) (data : Fin 128 → Byte × Byte) : Prop where
  base : c'.flash.base = c.flash.base
  size : c'.flash.size = c.flash.size
  word : ∀ i : Fin 128, c'.flash.word (128 * page + i.val : Nat) = (data i).2 ++ (data i).1
  unchanged : ∀ a : Int, a < (128 * page : Nat) ∨ (128 * (page + 1) : Nat) ≤ a →
    c'.flash.word a = c.flash.word a
  even : ∀ i : Fin 128, LoadsByte c' (256 * page + 2 * i.val) (data i).1
  odd : ∀ i : Fin 128, LoadsByte c' (256 * page + 2 * i.val + 1) (data i).2

/-- The operations of fills. -/
theorem map_op_fills
    {fills : List SpmUse} {words : List (Fin 128 × Byte × Byte)}
    (h : List.Forall₂ SpmUse.IsFill fills words) :
  fills.map SpmUse.op =
    (words.map (Prod.map id fun w => w.2 ++ w.1)).map fun f => Op.fill f.1 f.2
  := by
  induction h with
  | nil => rfl
  | cons hfill _ ih =>
    obtain ⟨hspmcsr, hindex, hr0, hr1⟩ := hfill
    rw [List.map_cons, ih, SpmUse.op, hspmcsr, if_neg (by decide), if_pos rfl, hr0, hr1]
    simp only [hindex]
    rfl

theorem spmcsr_of_mem
    {fills : List SpmUse} {words : List (Fin 128 × Byte × Byte)}
    (h : List.Forall₂ SpmUse.IsFill fills words) {u : SpmUse} (hu : u ∈ fills) :
  u.spmcsr = 0x01
  := by
  induction h with
  | nil => contradiction
  | cons hfill _ ih =>
    obtain rfl | hu := List.mem_cons.mp hu
    · apply hfill.1
    · apply ih hu

/-- The addresses of the words of a page. -/
theorem offset_word
    (page : Nat) (i : Fin 128) :
  flashPages.page (128 * page + i.val : Nat) = page ∧
    flashPages.offset (128 * page + i.val : Nat) = i
  := by
  obtain ⟨i, hi⟩ := i
  constructor
  · change ((128 * page + i : Nat) : Int) / 128 = page
    omega
  · apply Fin.ext
    change (((128 * page + i : Nat) : Int) % 128).toNat = i
    omega

/-- A core with the words of the page in its flash. -/
theorem Represents.programmed
    {c c' : AvrCore δ} {s : State Int (Fin 128) Word} (h : Represents c.flash.size c' s)
    (hbase : c.flash.base = 0) {page : Nat} (hpage : 256 * (page + 1 : Int) ≤ c.flash.size)
    {data : Fin 128 → Byte × Byte}
    (himage : s.image = fun a => if flashPages.page a = page then
      (data (flashPages.offset a)).2 ++ (data (flashPages.offset a)).1 else c.flash.word a) :
  Programmed c c' page data
  := by
  have hword : c'.flash.word = s.image := by
    rw [← h.state]
    rfl
  have hi (i : Fin 128) :
      c'.flash.word (128 * page + i.val : Nat) = (data i).2 ++ (data i).1 := by
    obtain ⟨hpage, hoffset⟩ := offset_word page i
    rw [hword, himage]
    dsimp only
    rw [if_pos hpage, hoffset]
  have hvalid (i : Fin 128) {a : Nat} (ha : a / 2 = 128 * page + i.val) :
      c'.flash.Valid (a / 2 : Nat) := by
    rw [ha, Flash.Valid, h.hasSpm.base, h.size]
    omega
  constructor
  · rw [h.hasSpm.base, hbase]
  · apply h.size
  · apply hi
  · intro a ha
    rw [hword, himage]
    apply if_neg
    change ¬ a / 128 = page
    omega
  · intro i
    have hbyte := (byte_of_word c'.flash (128 * page + i.val : Nat)).1
    rw [hi, BitVec.extractLsb'_append_eq_right] at hbyte
    rw [hbyte, show (2 * (128 * page + i.val : Nat) : Int) = (256 * page + 2 * i.val : Nat) by omega]
    apply loadsByte (hvalid i (by omega))
  · intro i
    have hbyte := (byte_of_word c'.flash (128 * page + i.val : Nat)).2
    rw [hi, BitVec.extractLsb'_append_eq_left] at hbyte
    rw [hbyte, show (2 * (128 * page + i.val : Nat) + 1 : Int) =
      (256 * page + 2 * i.val + 1 : Nat) by omega]
    apply loadsByte (hvalid i (by omega))

/-- Flash self-programming.  A page inside the flash is erased, the words of the buffer are
filled in any order, each at least once, and the page is written: it holds what was filled in
last, as the loads read it, and the rest of the flash is as it was.  A page that is written
without an erase holds the conjunction of its words and those of the buffer. -/
theorem flash_self_programming
    {c : AvrCore δ} (hspm : HasSpm c) {page : Nat} (hpage : 256 * (page + 1 : Int) ≤ c.flash.size) :
  (∀ (erase write : SpmUse) (fills : List SpmUse) (words : List (Fin 128 × Byte × Byte))
      (data : Fin 128 → Byte × Byte),
    erase.spmcsr = 0x03 → erase.Z / 256 = page → List.Forall₂ SpmUse.IsFill fills words →
    (∀ i, FilledLast words i (data i)) → write.spmcsr = 0x05 → write.Z / 256 = page →
      SpmRun (erase :: fills ++ [write]) c fun c' => Programmed c c' page data) ∧
  ∀ write : SpmUse, write.spmcsr = 0x05 → write.Z / 256 = page →
    SpmRun [write] c fun c' =>
      c'.flash.base = c.flash.base ∧ c'.flash.size = c.flash.size ∧
      ∀ a : Int, c'.flash.word a =
        if 128 * page ≤ a ∧ a < 128 * (page + 1) then
          c.flash.word a &&& c.flashState.buffer (flashPages.offset a)
        else
          c.flash.word a
  := by
  have hrep : Represents c.flash.size c c.flashState := ⟨hspm, rfl, rfl⟩
  have hvalid {u : SpmUse} (hspmcsr : u.spmcsr ∈ ([0x03, 0x05] : List Byte))
      (hu : u.Z / 256 = page) : u.Valid c.flash.size := by
    constructor
    · apply List.mem_cons_of_mem _ (List.mem_cons_of_mem _ hspmcsr)
    · intro _
      rw [hu]
      apply hpage
  have herase {u : SpmUse} (hspmcsr : u.spmcsr = 0x03) (hu : u.Z / 256 = page) :
      u.op = .erase page := by
    rw [SpmUse.op, hspmcsr, hu]
    rfl
  have hwrite {u : SpmUse} (hspmcsr : u.spmcsr = 0x05) (hu : u.Z / 256 = page) :
      u.op = .write page := by
    rw [SpmUse.op, hspmcsr, hu]
    rfl
  constructor
  · intro erase write fills words data herase₁ herase₂ hfills hdata hwrite₁ hwrite₂
    apply spmRun_refines hrep
    · intro u hu
      rw [List.mem_append, List.mem_cons, List.mem_singleton] at hu
      obtain (rfl | hu) | rfl := hu
      · apply hvalid (by rw [herase₁]; decide) herase₂
      · constructor
        · rw [spmcsr_of_mem hfills hu]
          decide
        · rw [spmcsr_of_mem hfills hu]
          rintro (h | h)
          · exact absurd h (by decide)
          · exact absurd h (by decide)
      · apply hvalid (by rw [hwrite₁]; decide) hwrite₂
    · intro c' hc'
      apply hc'.programmed hspm.base hpage
      rw [List.map_append, List.map_cons, map_op_fills hfills, List.map_singleton,
        herase herase₁ herase₂, hwrite hwrite₁ hwrite₂]
      have hfilled : ∀ i, FilledLast (words.map (Prod.map id fun w => w.2 ++ w.1)) i
          ((data i).2 ++ (data i).1) := by
        intro i
        apply (hdata i).map fun w : Byte × Byte => w.2 ++ w.1
      apply run_program flashPages erasedWord (fun _ => BitVec.allOnes_and) page hfilled
  · intro write hwrite₁ hwrite₂
    apply spmRun_refines hrep
    · intro u hu
      rw [List.mem_singleton.mp hu]
      apply hvalid (by rw [hwrite₁]; decide) hwrite₂
    · intro c' hc'
      refine ⟨?_, hc'.size, ?_⟩
      · rw [hc'.hasSpm.base, hspm.base]
      intro a
      have himage := congrFun (congrArg State.image hc'.state) a
      rw [List.map_singleton, hwrite hwrite₁ hwrite₂] at himage
      apply himage.trans
      change (if a / 128 = page then _ else _) = _
      have hmem : a / 128 = page ↔ 128 * page ≤ a ∧ a < 128 * (page + 1) := by
        omega
      simp only [hmem]
      rfl

end

/-- The OsEID128 writes the numbers of the words to its page 3. -/
theorem flash_self_programming_OsEID128 :
  SpmRun ({ spmcsr := 0x03, Z := 0x300, r0 := 0, r1 := 0 } ::
      (List.finRange 128).map (fun i => {
        spmcsr := 0x01, Z := 2 * i.val, r0 := .ofNat 8 i.val, r1 := 0x5a }) ++
      [{ spmcsr := 0x05, Z := 0x3fe, r0 := 0, r1 := 0 }])
    (AvrCore.construct defnOsEID128 ())
    fun c' => Programmed (AvrCore.construct defnOsEID128 ()) c' 3 fun i => (.ofNat 8 i.val, 0x5a)
  := by
  have hspm : HasSpm (AvrCore.construct defnOsEID128 ()) := by
    constructor <;> decide
  have hpage : 256 * ((3 : Nat) + 1 : Int) ≤ (AvrCore.construct defnOsEID128 ()).flash.size := by
    decide
  let word (i : Fin 128) : Fin 128 × Byte × Byte := (i, .ofNat 8 i.val, 0x5a)
  apply (flash_self_programming hspm hpage).1 _ _ _ ((List.finRange 128).map word)
  · rfl
  · rfl
  · rw [List.forall₂_map_left_iff, List.forall₂_map_right_iff, List.forall₂_same]
    intro i _
    refine ⟨rfl, ?_, rfl, rfl⟩
    dsimp only [word]
    omega
  · intro i
    obtain ⟨before, after, hsplit⟩ := List.append_of_mem (List.mem_finRange i)
    use before.map word, after.map word
    rw [hsplit, List.map_append, List.map_cons]
    refine ⟨rfl, ?_⟩
    have hnodup := List.nodup_finRange 128
    rw [hsplit, List.nodup_middle, List.nodup_cons, List.mem_append] at hnodup
    rw [List.forall_mem_map]
    intro j hj heq
    apply hnodup.1
    right
    rw [← show j = i from heq]
    apply hj
  · rfl
  · rfl

end SimulAvr
