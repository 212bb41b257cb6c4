import SimulAvr.AvrCore
import SimulAvr.Frame

/-!
# The reset

A reset clears the program counter, the pending interrupts and, as SREG is attached to
the data space, the status register; it leaves the device and its memory map
(`reset_spec`).
-/

namespace SimulAvr

section

variable {δ : Type} [IoDevices δ]

/-- SREG is attached to a cell that `mem_reset` visits. -/
def Memory.SregAttached (mem : Memory) : Prop :=
  ∃ a : Nat, a < mem.xramEnd ∧ (mem.cell a).vdev = some .sreg

/-- A class of virtual devices is attached to a cell that `mem_reset` visits. -/
def Memory.Attached (mem : Memory) (vdev : VDevice) : Prop :=
  ∃ a : Nat, a < mem.xramEnd ∧ (mem.cell a).vdev = some vdev

namespace AvrCore

omit [IoDevices δ] in
/-- The reset of the working registers. -/
theorem foldl_gpwrSet
    (c : AvrCore δ) (regs : List (Fin 32)) :
  ∃ display, regs.foldl (fun c r => c.gpwrSet r 0) c =
    { c with gpwr := fun r => if r ∈ regs then 0 else c.gpwr r, display := display }
  := by
  induction regs generalizing c with
  | nil =>
    use c.display
    rfl
  | cons r regs ih =>
    obtain ⟨display, h⟩ := ih (c.gpwrSet r 0)
    use display
    rw [List.foldl_cons, h]
    congr 1
    funext r'
    change (if r' ∈ regs then 0 else Function.update c.gpwr r 0 r') = _
    rw [Function.update_apply]
    by_cases hmem : r' ∈ regs
    · rw [if_pos hmem, if_pos (List.mem_cons_of_mem r hmem)]
    · rw [if_neg hmem]
      simp [hmem]

theorem vdevReset_gpwr_eq
    (c : AvrCore δ) (addr : Int) :
  ∃ display, c.vdevReset addr .gpwr = { c with gpwr := fun _ => 0, display := display }
  := by
  obtain ⟨display, h⟩ := foldl_gpwrSet c (List.finRange 32)
  use display
  rw [vdevReset, h]
  simp

/-- The reset of a virtual device leaves what instructions leave, and the program
counter. -/
theorem vdevReset_frame
    (c : AvrCore δ) (addr : Int) (vdev : VDevice) :
  Frame False c (c.vdevReset addr vdev)
  := by
  cases vdev with
  | gpwr =>
    obtain ⟨display, h⟩ := vdevReset_gpwr_eq c addr
    rw [h]
    constructor <;> intros <;> rfl
  | _ => constructor <;> intros <;> rfl

/-- The loop of `mem_reset` leaves what the resets of the virtual devices leave. -/
theorem memResetFrom_frame
    (c : AvrCore δ) (i n : Nat) :
  Frame False c (c.memResetFrom i n)
  := by
  induction n generalizing c i with
  | zero => apply Frame.refl
  | succ n ih =>
    rw [memResetFrom]
    split
    · apply ih
    · apply Frame.trans (vdevReset_frame c _ _) (ih _ _)

/-- The reset of a virtual device leaves SREG or clears it, and that of SREG clears
it. -/
theorem vdevReset_sreg
    (c : AvrCore δ) (addr : Int) (vdev : VDevice) :
  (c.vdevReset addr vdev).sreg = if vdev = .sreg then 0 else c.sreg
  := by
  cases vdev with
  | gpwr =>
    obtain ⟨display, h⟩ := vdevReset_gpwr_eq c addr
    rw [h]
    rfl
  | _ => rfl

/-- The same for the working registers. -/
theorem vdevReset_gpwr
    (c : AvrCore δ) (addr : Int) (vdev : VDevice) :
  (c.vdevReset addr vdev).gpwr = if vdev = .gpwr then (fun _ => 0) else c.gpwr
  := by
  cases vdev with
  | gpwr =>
    obtain ⟨display, h⟩ := vdevReset_gpwr_eq c addr
    rw [h]
    rfl
  | _ => rfl

/-- The same for the stack pointer. -/
theorem vdevReset_sp
    (c : AvrCore δ) (addr : Int) (vdev : VDevice) :
  ((c.vdevReset addr vdev).sp.spl, (c.vdevReset addr vdev).sp.sph) =
    if vdev = .stackPointer then (0, 0) else (c.sp.spl, c.sp.sph)
  := by
  cases vdev with
  | gpwr =>
    obtain ⟨display, h⟩ := vdevReset_gpwr_eq c addr
    rw [h]
    rfl
  | _ => rfl

section Field

variable {α : Type} {f : AvrCore δ → α} {vdev : VDevice} {k : α}

/-- The loop of `mem_reset` keeps the value to which the reset of a class of devices sets a
field that no other reset changes. -/
theorem memResetFrom_field_of_eq
    (hf : ∀ c addr v, f (c.vdevReset addr v) = if v = vdev then k else f c)
    {c : AvrCore δ} (h : f c = k) (i n : Nat) :
  f (c.memResetFrom i n) = k
  := by
  induction n generalizing c i with
  | zero => apply h
  | succ n ih =>
    rw [memResetFrom]
    split
    · apply ih h
    · apply ih
      rw [hf, h]
      split <;> rfl

/-- The loop of `mem_reset` sets the field when it visits a cell of the class. -/
theorem memResetFrom_field
    (hf : ∀ c addr v, f (c.vdevReset addr v) = if v = vdev then k else f c)
    {c : AvrCore δ} {a i n : Nat} (hi : i ≤ a) (hn : a < i + n)
    (ha : (c.mem.cell a).vdev = some vdev) :
  f (c.memResetFrom i n) = k
  := by
  induction n generalizing c i with
  | zero => omega
  | succ n ih =>
    rw [memResetFrom]
    by_cases heq : i = a
    · subst heq
      rw [ha]
      apply memResetFrom_field_of_eq hf
      rw [hf, if_pos rfl]
    · split
      · apply ih (by omega) (by omega) ha
      · apply ih (by omega) (by omega)
        rw [(vdevReset_frame c _ _).mem]
        apply ha

/-- The loop of `mem_reset` leaves the field when it visits no cell of the class. -/
theorem memResetFrom_field_of_not
    (hf : ∀ c addr v, f (c.vdevReset addr v) = if v = vdev then k else f c)
    {c : AvrCore δ} {i n : Nat}
    (hnot : ∀ a : Nat, i ≤ a → a < i + n → (c.mem.cell a).vdev ≠ some vdev) :
  f (c.memResetFrom i n) = f c
  := by
  induction n generalizing c i with
  | zero => rfl
  | succ n ih =>
    rw [memResetFrom]
    split
    · apply ih
      intro a hi hn
      apply hnot a (by omega) (by omega)
    · next v hv =>
      have hne : v ≠ vdev := by
        rintro rfl
        apply hnot i (Nat.le_refl i) (by omega) hv
      rw [ih, hf, if_neg hne]
      intro a hi hn
      rw [(vdevReset_frame c _ _).mem]
      apply hnot a (by omega) (by omega)

/-- `mem_reset` sets the field when a cell of the class is visited. -/
theorem memReset_field
    (hf : ∀ c addr v, f (c.vdevReset addr v) = if v = vdev then k else f c)
    {c : AvrCore δ} (h : c.mem.Attached vdev) :
  f c.memReset = k
  := by
  obtain ⟨a, hlt, ha⟩ := h
  apply memResetFrom_field hf (Nat.zero_le a) (by omega) ha

/-- `mem_reset` leaves the field exactly when it has the value already or no cell of the class
is visited. -/
theorem memReset_field_iff
    (hf : ∀ c addr v, f (c.vdevReset addr v) = if v = vdev then k else f c) (c : AvrCore δ) :
  f c.memReset = f c ↔ (c.mem.Attached vdev → f c = k)
  := by
  by_cases h : c.mem.Attached vdev
  · rw [memReset_field hf h, eq_comm]
    constructor
    · intro hk _
      apply hk
    · intro hk
      apply hk h
  · have hleft : f c.memReset = f c := by
      apply memResetFrom_field_of_not hf
      intro a _ hlt ha
      apply h
      use a, by omega
    constructor
    · intro _ hattached
      contradiction
    · intro _
      apply hleft

end Field

/-- What `avr_core_reset` leaves and clears. -/
structure IsReset (c c' : AvrCore δ) : Prop where
  pc : c'.pc = adjustPCToMax c.pcMax 0
  irqPending : c'.irqPending = .nil
  sreg : c.mem.SregAttached → c'.sreg = 0
  layout : c'.layout = c.layout
  state : c'.state = c.state
  irqOffset : c'.irqOffset = c.irqOffset

/-- The core on which `mem_reset` is run. -/
theorem reset_eq
    (c : AvrCore δ) :
  ∃ display, c.reset = { c.pcSet 0 with
    irqPending := .nil, instCKS := 0, display := display }.memReset
  := ⟨_, rfl⟩

theorem reset_frame
    (c : AvrCore δ) :
  Frame False { c.pcSet 0 with irqPending := .nil } c.reset
  := by
  obtain ⟨display, h⟩ := reset_eq c
  rw [h]
  apply Frame.trans _ (memResetFrom_frame _ _ _)
  constructor <;> intros <;> rfl

theorem reset_spec
    (c : AvrCore δ) :
  IsReset c c.reset
  := by
  have hframe := reset_frame c
  constructor
  · apply hframe.pc not_false
  · apply hframe.irqPending
  · intro hattached
    obtain ⟨display, h⟩ := reset_eq c
    rw [h]
    apply memReset_field vdevReset_sreg
    apply hattached
  · apply hframe.layout
  · apply hframe.state
  · apply hframe.irqOffset

end AvrCore

end

end SimulAvr
