import SimulAvr.Memory

/-!
# Reads of data memory

What a read of data memory returns depends on the cells and the virtual devices: a relation
between cores with the same ones is respected by the reads (`memRead_respects`).
-/

namespace SimulAvr

open Program

/-- The parts of a core that reads of data memory depend on are the same. -/
structure SameCells {δ : Type} (c d : AvrCore δ) : Prop where
  mem : c.mem = d.mem
  gpwr : c.gpwr = d.gpwr
  sreg : c.sreg = d.sreg
  sp : c.sp = d.sp
  rampz : c.rampz = d.rampz
  sram : c.sram = d.sram
  spmhelper : c.spmhelper = d.spmhelper
  dev : c.dev = d.dev

section

variable {δ : Type} {R : AvrCore δ → AvrCore δ → Prop} (hcells : ∀ c d, R c d → SameCells c d)

include hcells

theorem gpwrGet_respects
    (reg : Int) :
  Respects R (avrCoreGpwrGet reg : CoreM δ Byte)
  := by
  intro c d h
  by_cases hreg : 0 ≤ reg ∧ reg < 32
  · obtain ⟨r, rfl⟩ := exists_fin_of_mem hreg
    rw [run_avrCoreGpwrGet, run_avrCoreGpwrGet]
    refine ⟨?_, h⟩
    rw [(hcells c d h).gpwr]
  · have herror (c : AvrCore δ) :
        (avrCoreGpwrGet reg).run c = .error (.registerOutOfBounds reg) := dif_neg hreg
    rw [herror, herror]

theorem memGetCell_respects
    (addr : Int) :
  Respects R (memGetCell addr : CoreM δ MemoryCell)
  := by
  intro c d h
  have hmem := (hcells c d h).mem
  by_cases haddr : 0 ≤ addr ∧ addr ≤ c.mem.xramEnd
  · rw [run_memGetCell c addr haddr, run_memGetCell d addr (hmem ▸ haddr)]
    refine ⟨?_, h⟩
    rw [hmem]
  · rw [run_memGetCell_error c addr haddr, run_memGetCell_error d addr (hmem ▸ haddr)]

variable [IoDevices δ]
  (hdev : ∀ c d, R c d → ∀ dev, R { c with dev := dev } { d with dev := dev })

include hdev

/-- The reads of virtual devices, of which those of peripherals may change the peripherals. -/
theorem vdevRead_respects
    (vdev : VDevice) (addr : Int) :
  Respects R (vdevRead vdev addr : CoreM δ Byte)
  := by
  cases vdev with
  | gpwr => apply gpwrGet_respects hcells
  | sreg =>
    apply gets_respects
    intro c d h
    apply (hcells c d h).sreg
  | stackPointer =>
    apply Respects.bind (gets_respects fun c d h => (hcells c d h).sp)
    intro sp
    apply Respects.ite fun _ => Respects.pure _
    intro _
    apply Respects.ite fun _ => Respects.pure _
    intro _
    apply Respects.throw
  | rampz =>
    apply gets_respects
    intro c d h
    apply (hcells c d h).rampz
  | sram =>
    apply Respects.bind (gets_respects fun c d h => (hcells c d h).sram)
    intro stor
    apply liftExcept_respects
  | spm =>
    apply Respects.bind (gets_respects fun c d h => (hcells c d h).spmhelper)
    intro spm
    apply Respects.ite fun _ => Respects.pure _
    intro _
    apply Respects.throw
  | io =>
    apply Respects.bind (gets_respects fun c d h => (hcells c d h).dev)
    intro dev
    apply Respects.bind (liftExcept_respects _)
    rintro ⟨val, dev'⟩
    apply Respects.bind _ fun _ => Respects.pure _
    apply update_respects
    intro c d h
    apply hdev c d h

theorem memRead_respects
    (addr : Int) :
  Respects R (memRead addr : CoreM δ Byte)
  := by
  apply Respects.bind (memGetCell_respects hcells addr)
  rintro ⟨_ | vdev, rdMask, wrMask⟩
  · apply Respects.pure
  · apply Respects.bind (vdevRead_respects hcells hdev vdev addr) fun _ => Respects.pure _

end

end SimulAvr
