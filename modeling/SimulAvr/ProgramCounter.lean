import SimulAvr.Core

/-!
# The program counter

The correction of the program counter is the residue modulo `PC_max` exactly for the
targets between `-PC_max` and `2 * PC_max`, since it adds or subtracts `PC_max` at most
once.
-/

namespace SimulAvr

namespace AvrCore

variable {pcMax t : Int}

/-- The targets that one correction brings into the flash. -/
def PCReach (pcMax t : Int) : Prop :=
  -pcMax ≤ t ∧ t < 2 * pcMax

instance (pcMax t : Int) : Decidable (PCReach pcMax t) :=
  inferInstanceAs (Decidable (_ ∧ _))

/-- A program counter in the flash is within reach, with its displacements by less than
the flash. -/
theorem PCReach.of_mem
    {pc : Int} (hpc : 0 ≤ pc ∧ pc < pcMax) (hlo : -pcMax ≤ t) (hhi : t ≤ pcMax) :
  PCReach pcMax (pc + t)
  := by
  constructor <;> omega

/-- The correction lies in the flash exactly for the targets within reach. -/
theorem adjustPCToMax_mem_iff :
  (0 ≤ adjustPCToMax pcMax t ∧ adjustPCToMax pcMax t < pcMax) ↔ 0 < pcMax ∧ PCReach pcMax t
  := by
  simp only [adjustPCToMax, PCReach]
  by_cases hneg : t < 0
  · rw [if_pos hneg, if_neg (by omega)]
    omega
  · rw [if_neg hneg]
    split <;> omega

/-- The correction is the residue exactly for the targets within reach. -/
theorem adjustPCToMax_eq_emod_iff
    (hmax : 0 < pcMax) :
  adjustPCToMax pcMax t = t % pcMax ↔ PCReach pcMax t
  := by
  constructor
  · intro h
    have hlo := Int.emod_nonneg t (by omega : pcMax ≠ 0)
    have hhi := Int.emod_lt_of_pos t hmax
    rw [← h] at hlo hhi
    obtain ⟨-, hreach⟩ := adjustPCToMax_mem_iff.mp ⟨hlo, hhi⟩
    apply hreach
  · intro h
    obtain ⟨hlo, hhi⟩ := adjustPCToMax_mem_iff.mpr ⟨hmax, h⟩
    have hcongr : adjustPCToMax pcMax t % pcMax = t % pcMax := by
      simp only [adjustPCToMax]
      split <;> split <;> simp
    rw [← hcongr, Int.emod_eq_of_lt hlo hhi]

/-- The correction leaves a counter in the flash. -/
theorem adjustPCToMax_of_mem
    (h : 0 ≤ t ∧ t < pcMax) :
  adjustPCToMax pcMax t = t
  := by
  rw [adjustPCToMax, if_neg (by omega), if_neg (by omega)]

/-- The correction of an address that was truncated modulo `b` is its residue exactly when
the address is below `b`, or is `PC_max` and `PC_max` is truncated to zero. -/
theorem adjustPCToMax_emod_iff
    {k b : Int} (hk : 0 < k ∧ k ≤ pcMax) (hb : 0 < b) :
  adjustPCToMax pcMax (k % b) = k % pcMax ↔ k < b ∨ k = pcMax ∧ b ∣ pcMax
  := by
  have hlo := Int.emod_nonneg k (by omega : b ≠ 0)
  by_cases hlt : k < b
  · rw [Int.emod_eq_of_lt (by omega) hlt]
    constructor
    · intro _
      left
      apply hlt
    · intro _
      apply (adjustPCToMax_eq_emod_iff (by omega)).mpr
      constructor <;> omega
  · have hhi := Int.emod_lt_of_pos k hb
    rw [adjustPCToMax_of_mem ⟨hlo, by omega⟩]
    by_cases heq : k = pcMax
    · subst heq
      rw [Int.emod_self]
      constructor
      · intro h
        right
        exact ⟨rfl, Int.dvd_of_emod_eq_zero h⟩
      · rintro (hlt' | ⟨-, hdvd⟩)
        · omega
        · apply Int.emod_eq_zero_of_dvd hdvd
    · have hmod : k % pcMax = k := Int.emod_eq_of_lt (by omega) (by omega)
      rw [hmod]
      constructor
      · intro h
        omega
      · rintro (hlt' | ⟨heq', -⟩)
        · omega
        · omega

/-- The next instruction word of a counter in the flash. -/
theorem adjustPCToMax_succ
    {pc : Int} (h : 0 ≤ pc ∧ pc < pcMax) :
  adjustPCToMax pcMax (pc + 1) = (pc + 1) % pcMax
  := by
  apply (adjustPCToMax_eq_emod_iff (by omega)).mpr
  apply PCReach.of_mem h <;> omega

end AvrCore

end SimulAvr
