import SimulAvr.FlashProgramming

/-!
# The page buffer of SPM

The page buffer keeps its words over a page write, which uses all of them: only an RWW re-enable
erases them.  A page write changes only words that have been filled since the page write or the
re-enable before it exactly if the words of the buffer that are left from before have all the ones
of the flash words at their offsets (`page_buffer_contained_iff`).
-/

namespace SimulAvr

open Program PagedMemory

variable {δ : Type}

/-! ### The operands of SPM -/

/-- The address has the bits of RAMPZ and Z. -/
def SpmUse.Addressed (u : SpmUse) : Prop :=
  u.Z < 2 ^ 22

instance (u : SpmUse) : Decidable u.Addressed :=
  inferInstanceAs (Decidable (_ < _))

instance (size : Int) (u : SpmUse) : Decidable (u.Valid size) :=
  decidable_of_iff
    ((u.spmcsr = 0x11 ∨ u.spmcsr = 0x01 ∨ u.spmcsr = 0x03 ∨ u.spmcsr = 0x05)
      ∧ (u.spmcsr = 0x03 ∨ u.spmcsr = 0x05 → 256 * ((u.Z / 256 : Nat) + 1 : Int) ≤ size))
    ⟨fun h => ⟨by simpa using h.1, h.2⟩, fun h => ⟨by simpa using h.spmcsr, h.page⟩⟩

/-- The core with the operands of a use of SPM in its registers -/
def AvrCore.withOperands (c : AvrCore δ) (u : SpmUse) : AvrCore δ :=
  { c with
    hasRampz := true
    rampz := .ofNat 8 (u.Z / 2 ^ 16)
    gpwr := Function.update (Function.update (Function.update (Function.update c.gpwr
      0 u.r0) 1 u.r1) 30 (.ofNat 8 u.Z)) 31 (.ofNat 8 (u.Z / 2 ^ 8)) }

theorem sameSpm_withOperands
    (c : AvrCore δ) (u : SpmUse) :
  SameSpm c (c.withOperands u)
  := ⟨rfl, rfl, rfl⟩

theorem loaded_withOperands
    (c : AvrCore δ) {u : SpmUse} (hu : u.Addressed) :
  u.Loaded (c.withOperands u)
  := by
  constructor
  · change ((if true then BitVec.ofNat 8 (u.Z / 2 ^ 16) else 0) &&& 0x3f).toNat * 2 ^ 16
      + (BitVec.ofNat 8 (u.Z / 2 ^ 8)).toNat * 2 ^ 8 + (BitVec.ofNat 8 u.Z).toNat = u.Z
    have hrampz : (BitVec.ofNat 8 (u.Z / 2 ^ 16) &&& 0x3f).toNat = u.Z / 2 ^ 16 := by
      rw [BitVec.toNat_and, BitVec.toNat_ofNat]
      change u.Z / 2 ^ 16 % 2 ^ 8 &&& (2 ^ 6 - 1) = _
      rw [Nat.and_two_pow_sub_one_eq_mod]
      rw [SpmUse.Addressed] at hu
      omega
    rw [if_pos rfl, hrampz, BitVec.toNat_ofNat, BitVec.toNat_ofNat]
    rw [SpmUse.Addressed] at hu
    omega
  · rfl
  · rfl

variable [IoDevices δ]

/-- What a use of SPM leads to, whatever the instructions before it, it leads to in some core that
has the operation done. -/
theorem SpmUse.Leads.exists_done
    {size : Int} {c : AvrCore δ} {s : State Int (Fin 128) Word} {u : SpmUse}
    {Q : AvrCore δ → Prop} (hleads : u.Leads c Q) (h : Represents size c s) (hu : u.Valid size)
    (haddr : u.Addressed) :
  ∃ c', Represents size c' (u.op.apply flashPages erasedWord s) ∧ Q c'
  := by
  obtain ⟨c₂, hwrite, hrest⟩ := hleads c ⟨rfl, rfl, rfl⟩
  obtain ⟨c₄, hrun, hQ⟩ := hrest (c₂.withOperands u) (sameSpm_withOperands c₂ u)
    (loaded_withOperands c₂ haddr)
  have hdone := SpmUse.leads h hu (Q := fun c' =>
    Represents size c' (u.op.apply flashPages erasedWord s)) fun _ hc' => hc'
  obtain ⟨c₂', hwrite', hrest'⟩ := hdone c ⟨rfl, rfl, rfl⟩
  rw [hwrite] at hwrite'
  obtain rfl := (Prod.mk.inj (Except.ok.inj hwrite')).2
  obtain ⟨c₄', hrun', hc₄'⟩ := hrest' (c₂.withOperands u) (sameSpm_withOperands c₂ u)
    (loaded_withOperands c₂ haddr)
  rw [hrun] at hrun'
  obtain rfl := (Prod.mk.inj (Except.ok.inj hrun')).2
  exact ⟨c₄, hc₄', hQ⟩

/-! ### Page writes -/

/-- Uses of SPM do not abort, and every page write changes only words of the flash whose word of
the buffer has been filled since the page write or the RWW re-enable before it. -/
def SpmContained : (filled : Fin 128 → Prop) → List SpmUse → AvrCore δ → Prop
  | _, [], _ => True
  | filled, u :: uses, c =>
    u.Leads c fun c' =>
      (u.spmcsr = 0x05 → ∀ a, ¬ filled (flashPages.offset a) → c'.flash.word a = c.flash.word a)
        ∧ SpmContained (u.op.mark filled) uses c'

/-- An operation that writes a page -/
theorem SpmUse.op_write_iff
    {size : Int} {u : SpmUse} (hu : u.Valid size) :
  (∃ p, u.op = .write p) ↔ u.spmcsr = 0x05
  := by
  have hspmcsr := hu.spmcsr
  rw [List.mem_cons, List.mem_cons, List.mem_cons, List.mem_singleton] at hspmcsr
  rw [SpmUse.op]
  rcases hspmcsr with h | h | h | h
  · rw [h]
    apply iff_of_false
    · rintro ⟨p, hp⟩
      cases hp
    · decide
  · rw [h]
    apply iff_of_false
    · rintro ⟨p, hp⟩
      cases hp
    · decide
  · rw [h]
    apply iff_of_false
    · rintro ⟨p, hp⟩
      cases hp
    · decide
  · rw [h]
    exact ⟨fun _ => rfl, fun _ => ⟨_, rfl⟩⟩

/-- The page writes of a core are those of the memory that is programmed by the page. -/
theorem spmContained_iff
    {size : Int} {c : AvrCore δ} {s : State Int (Fin 128) Word} (h : Represents size c s)
    {uses : List SpmUse} (huses : ∀ u ∈ uses, u.Valid size ∧ u.Addressed)
    (filled : Fin 128 → Prop) :
  SpmContained filled uses c ↔ Contained flashPages erasedWord filled (uses.map SpmUse.op) s
  := by
  induction uses generalizing filled c s with
  | nil => exact Iff.rfl
  | cons u uses ih =>
    obtain ⟨⟨hu, haddr⟩, huses⟩ := List.forall_mem_cons.mp huses
    have hword {c : AvrCore δ} {s : State Int (Fin 128) Word} (h : Represents size c s) :
        c.flash.word = s.image := congrArg State.image h.state
    rw [List.map_cons, Contained, SpmContained, SpmUse.op_write_iff hu]
    constructor
    · intro hleads
      obtain ⟨c', hc', hwrite, hrest⟩ := hleads.exists_done h hu haddr
      rw [hword h, hword hc'] at hwrite
      exact ⟨hwrite, (ih hc' huses _).mp hrest⟩
    · rintro ⟨hwrite, hrest⟩
      apply SpmUse.leads h hu
      intro c' hc'
      rw [hword h, hword hc']
      exact ⟨hwrite, (ih hc' huses _).mpr hrest⟩

/-- Page writes of a core, whatever its page buffer holds first, change only words that have been
filled since the page write or the RWW re-enable before, exactly if at each of them the words of
the buffer that have not been filled have all the ones of the flash words at their offsets.  This
is so where an RWW re-enable comes before each page write, and after the one before it. -/
theorem page_buffer_contained_iff
    {c : AvrCore δ} (hspm : HasSpm c) {uses : List SpmUse}
    (huses : ∀ u ∈ uses, u.Valid c.flash.size ∧ u.Addressed) :
  (SpmContained (fun _ => False) uses c
      ↔ Covering flashPages erasedWord (fun _ => False) (uses.map SpmUse.op) c.flashState)
    ∧ (ClearedBefore False (uses.map SpmUse.op) → SpmContained (fun _ => False) uses c)
  := by
  have hrep : Represents c.flash.size c c.flashState := ⟨hspm, rfl, rfl⟩
  have hiff := (spmContained_iff hrep huses fun _ => False).trans (contained_iff _ _ _ _ _)
  use hiff
  intro hcleared
  apply hiff.mpr
  exact covering_of_cleared flashPages erasedWord (fun _ => BitVec.and_allOnes) hcleared
    False.elim

theorem hasSpm_OsEID128 :
  HasSpm (AvrCore.construct defnOsEID128 ())
  := by
  constructor <;> decide

/-- The OsEID128 writes two pages, with an RWW re-enable before each. -/
theorem page_buffer_contained_reenabled :
  SpmContained (fun _ => False)
    [{ spmcsr := 0x11, Z := 0, r0 := 0, r1 := 0 }, { spmcsr := 0x01, Z := 10, r0 := 0, r1 := 0 },
      { spmcsr := 0x05, Z := 0x300, r0 := 0, r1 := 0 },
      { spmcsr := 0x11, Z := 0, r0 := 0, r1 := 0 },
      { spmcsr := 0x05, Z := 0x400, r0 := 0, r1 := 0 }]
    (AvrCore.construct defnOsEID128 ())
  := by
  exact (page_buffer_contained_iff hasSpm_OsEID128 (by decide)).2 ⟨trivial, trivial, trivial⟩

/-- The word that is filled for one page is written to the next one, too. -/
theorem page_buffer_contained_leak :
  ¬ SpmContained (fun _ => False)
    [{ spmcsr := 0x11, Z := 0, r0 := 0, r1 := 0 }, { spmcsr := 0x01, Z := 10, r0 := 0, r1 := 0 },
      { spmcsr := 0x05, Z := 0x300, r0 := 0, r1 := 0 },
      { spmcsr := 0x05, Z := 0x400, r0 := 0, r1 := 0 }]
    (AvrCore.construct defnOsEID128 ())
  := by
  rw [(page_buffer_contained_iff hasSpm_OsEID128 (by decide)).1]
  rintro ⟨-, -, -, hwrite, -⟩
  -- the word 5 of page 4
  have hcovered := hwrite 4 rfl 517 rfl (fun hfilled => hfilled)
  exact absurd hcovered (by decide +kernel)

end SimulAvr
