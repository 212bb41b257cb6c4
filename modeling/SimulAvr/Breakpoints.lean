import SimulAvr.Device
import SimulAvr.AvrCore
import SimulAvr.Lib.Patches

/-!
# The breakpoints as a patched flash

The list of breakpoints saves the words of a flash that BREAK may stand for: the core is
`Stored` over an image when its flash, patched at the breakpoints, stands for the image.
Inserting, removing, enabling and disabling breakpoints leave the image
(`breakpoint_store`).
-/

namespace SimulAvr

variable {δ : Type} {c : AvrCore δ} {image : Flash} {pc : Int} {val : Word}

/-! ### Writes of a word -/

/-- The core with the word `val` at `pc` of its flash. -/
def AvrCore.writeWord (c : AvrCore δ) (pc : Int) (val : Word) : AvrCore δ :=
  { c with flash := c.flash.setWord pc val }.displaySend (.flash pc [val])

@[simp]
theorem AvrCore.writeWord_flash
    (c : AvrCore δ) (pc : Int) (val : Word) :
  (c.writeWord pc val).flash = c.flash.setWord pc val
  := rfl

@[simp]
theorem AvrCore.writeWord_breakpoints
    (c : AvrCore δ) (pc : Int) (val : Word) :
  (c.writeWord pc val).breakpoints = c.breakpoints
  := rfl

theorem run_avrCoreFlashRead_of_valid
    (h : c.flash.Valid pc) :
  (avrCoreFlashRead pc).run c = .ok (c.flash.word pc, c)
  := by
  rw [run_avrCoreFlashRead, Flash.flashRead_of_valid h]
  rfl

theorem run_avrCoreFlashWrite_of_valid
    (h : c.flash.Valid pc) (val : Word) :
  (avrCoreFlashWrite pc val).run c = .ok ((), c.writeWord pc val)
  := by
  rw [run_avrCoreFlashWrite, Flash.storageWritew_of_valid h]
  rfl

/-! ### The invariant -/

/-- The flash of the core, patched at its breakpoints, stands for the image. -/
structure Stored (image : Flash) (c : AvrCore δ) : Prop where
  base : c.flash.base = image.base
  size : c.flash.size = image.size
  /-- The breakpoints are in the flash. -/
  valid : ∀ bp ∈ c.breakpoints.entries, c.flash.Valid bp.pc
  patched : Patched BreakPt.opcode breakOpcode image.word c.flash.word c.breakpoints

namespace Stored

/-- A core without breakpoints stands for its own flash. -/
theorem refl
    (hnil : c.breakpoints.entries = []) :
  Stored c.flash c
  := by
  constructor
  · rfl
  · rfl
  · rw [hnil]
    nofun
  · apply Patched.refl _ _ _ hnil

/-- Without breakpoints, the flash is the image. -/
theorem flash_eq
    (h : Stored image c) (hnil : c.breakpoints.entries = []) :
  c.flash = image
  := by
  apply Flash.ext_word h.base h.size
  intro addr
  rw [h.patched.eq_image hnil]

/-- Writes to the flash at a breakpoint that keep the patched words. -/
theorem write
    (h : Stored image c)
    (hpatched : Patched BreakPt.opcode breakOpcode image.word
      (Function.update c.flash.word pc val) c.breakpoints) :
  Stored image (c.writeWord pc val)
  := by
  constructor
  · apply h.base
  · apply h.size
  · apply h.valid
  · rw [AvrCore.writeWord_flash, Flash.word_setWord]
    apply hpatched

end Stored

/-! ### The operations -/

/-- Inserting a breakpoint. -/
theorem run_avrCoreInsertBreakpoint
    (hpc : c.flash.Valid pc) :
  (avrCoreInsertBreakpoint pc).run c = .ok ((),
    { c with breakpoints := c.breakpoints.add { pc := pc, opcode := c.flash.word pc } }.writeWord
      pc breakOpcode)
  := by
  rw [avrCoreInsertBreakpoint, Program.run_bind_of_ok (run_avrCoreFlashRead_of_valid hpc),
    Program.run_bind_of_ok (run_update _ _), run_avrCoreFlashWrite_of_valid]
  apply hpc

theorem Stored.insert
    (h : Stored image c) (hpc : c.flash.Valid pc) :
  Stored image
    ({ c with breakpoints := c.breakpoints.add { pc := pc, opcode := c.flash.word pc } }.writeWord
      pc breakOpcode)
  := by
  constructor
  · apply h.base
  · apply h.size
  · intro bp hbp
    obtain hbp | rfl := UniqueList.mem_of_mem_add hbp
    · apply h.valid bp hbp
    · apply hpc
  · rw [AvrCore.writeWord_flash, Flash.word_setWord]
    apply h.patched.add (x := { pc := pc, opcode := c.flash.word pc })
    rfl

/-- The breakpoint at an address. -/
def AvrCore.brkPtLookup (c : AvrCore δ) (pc : Int) : Option BreakPt :=
  c.breakpoints.lookup (fun bp => bp.pc = pc)

theorem AvrCore.mem_of_brkPtLookup
    {bp : BreakPt} (h : c.brkPtLookup pc = some bp) :
  bp ∈ c.breakpoints.entries ∧ bp.pc = pc
  := by
  constructor
  · apply List.mem_of_find?_eq_some h
  · simpa using List.find?_some h

theorem AvrCore.brkPtLookup_eq_none
    (h : c.brkPtLookup pc = none) :
  ∀ bp ∈ c.breakpoints.entries, bp.pc ≠ pc
  := by
  intro bp hbp
  simpa using List.find?_eq_none.mp h bp hbp

/-- Removing a breakpoint where there is none. -/
theorem run_avrCoreRemoveBreakpoint_of_none
    (h : c.brkPtLookup pc = none) :
  (avrCoreRemoveBreakpoint pc).run c = .ok ((), c)
  := by
  rw [avrCoreRemoveBreakpoint, Program.run_bind_of_ok (run_gets _ c)]
  rw [AvrCore.brkPtLookup] at h
  rw [h]
  rfl

/-- Removing a breakpoint. -/
theorem run_avrCoreRemoveBreakpoint_of_some
    {bp : BreakPt} (h : c.brkPtLookup pc = some bp) (hpc : c.flash.Valid pc) :
  (avrCoreRemoveBreakpoint pc).run c = .ok ((),
    { c with breakpoints := c.breakpoints.delete pc }.writeWord pc bp.opcode)
  := by
  rw [avrCoreRemoveBreakpoint, Program.run_bind_of_ok (run_gets _ c)]
  rw [AvrCore.brkPtLookup] at h
  rw [h]
  simp only
  rw [Program.run_bind_of_ok (run_update _ _), run_avrCoreFlashWrite_of_valid]
  apply hpc

theorem Stored.remove
    (h : Stored image c) {bp : BreakPt} (hbp : bp ∈ c.breakpoints.entries) :
  Stored image ({ c with breakpoints := c.breakpoints.delete bp.pc }.writeWord bp.pc bp.opcode)
  := by
  constructor
  · apply h.base
  · apply h.size
  · intro bp' hbp'
    apply h.valid bp' (UniqueList.mem_delete_iff.mp hbp').1
  · rw [AvrCore.writeWord_flash, Flash.word_setWord]
    apply h.patched.delete hbp

/-- Removing a breakpoint leaves the image, and the other breakpoints. -/
theorem avrCoreRemoveBreakpoint_spec
    (h : Stored image c) (pc : Int) :
  ∃ c', (avrCoreRemoveBreakpoint pc).run c = .ok ((), c') ∧ Stored image c' ∧
    ∀ bp, bp ∈ c'.breakpoints.entries ↔ bp ∈ c.breakpoints.entries ∧ bp.pc ≠ pc
  := by
  cases hlookup : c.brkPtLookup pc with
  | none =>
    use c, run_avrCoreRemoveBreakpoint_of_none hlookup, h
    intro bp
    constructor
    · intro hbp
      use hbp, c.brkPtLookup_eq_none hlookup bp hbp
    · rintro ⟨hbp, -⟩
      apply hbp
  | some bp =>
    obtain ⟨hbp, rfl⟩ := c.mem_of_brkPtLookup hlookup
    refine ⟨_, run_avrCoreRemoveBreakpoint_of_some hlookup (h.valid bp hbp), h.remove hbp, ?_⟩
    intro bp'
    apply UniqueList.mem_delete_iff

/-- Saving the word that is saved already. -/
theorem Stored.bpSetOpcode_eq
    (h : Stored image c) (hpc : ∃ bp ∈ c.breakpoints.entries, bp.pc = pc)
    (hword : c.flash.word pc ≠ breakOpcode) :
  c.bpSetOpcode pc (c.flash.word pc) = c
  := by
  obtain ⟨bp, hbp, rfl⟩ := hpc
  have hsaved : c.flash.word bp.pc = bp.opcode := by
    obtain hmark | hsaved := h.patched.listed bp hbp
    · contradiction
    · apply hsaved
  have hmap : c.breakpoints.entries.map
      (fun x => if x.pc = bp.pc then { x with opcode := bp.opcode } else x)
        = c.breakpoints.entries := by
    conv_rhs => rw [← List.map_id c.breakpoints.entries]
    apply List.map_congr_left
    intro x hx
    split
    · next heq =>
      rw [← h.patched.val_eq hbp hx heq]
      rfl
    · rfl
  rw [hsaved, AvrCore.bpSetOpcode]
  congr 1
  apply UniqueList.ext
  apply hmap

/-- Enabling or disabling one breakpoint leaves the image, and the list of breakpoints. -/
theorem iterEnableBreakpoint_spec
    (h : Stored image c) {bp : BreakPt} (hbp : bp ∈ c.breakpoints.entries) (enable : Bool) :
  ∃ c', (iterEnableBreakpoint enable bp).run c = .ok ((), c') ∧ Stored image c' ∧
    c'.breakpoints = c.breakpoints
  := by
  have hpc := h.valid bp hbp
  cases enable with
  | false =>
    use c.writeWord bp.pc bp.opcode
    refine ⟨?_, ?_, rfl⟩
    · apply run_avrCoreFlashWrite_of_valid hpc
    · apply h.write
      apply h.patched.disarm hbp
  | true =>
    by_cases hword : c.flash.word bp.pc = breakOpcode
    · use c
      refine ⟨?_, h, rfl⟩
      rw [iterEnableBreakpoint, if_pos rfl,
        Program.run_bind_of_ok (run_avrCoreFlashRead_of_valid hpc), if_neg (not_not.mpr hword)]
      rfl
    · use c.writeWord bp.pc breakOpcode
      refine ⟨?_, ?_, rfl⟩
      · rw [iterEnableBreakpoint, if_pos rfl,
          Program.run_bind_of_ok (run_avrCoreFlashRead_of_valid hpc), if_pos hword,
          Program.run_bind_of_ok (run_update _ _), h.bpSetOpcode_eq ⟨bp, hbp, rfl⟩ hword]
        apply run_avrCoreFlashWrite_of_valid hpc
      · apply h.write
        apply h.patched.arm hbp

/-- Enabling or disabling breakpoints of the list leaves the image, and the list. -/
theorem iterBreakpoints_spec
    (h : Stored image c) (enable : Bool) {bps : List BreakPt}
    (hbps : ∀ bp ∈ bps, bp ∈ c.breakpoints.entries) :
  ∃ c', (bps.forM (iterEnableBreakpoint enable)).run c = .ok ((), c') ∧ Stored image c' ∧
    c'.breakpoints = c.breakpoints
  := by
  induction bps generalizing c with
  | nil =>
    use c
    exact ⟨rfl, h, rfl⟩
  | cons bp bps ih =>
    obtain ⟨c₁, hrun, h₁, hlist⟩ := iterEnableBreakpoint_spec h (hbps bp (by simp)) enable
    have hrest : ∀ bp ∈ bps, bp ∈ c₁.breakpoints.entries := by
      intro bp' hbp'
      rw [hlist]
      apply hbps
      apply List.mem_cons_of_mem _ hbp'
    obtain ⟨c', hrun', h', hlist'⟩ := ih h₁ hrest
    use c'
    refine ⟨?_, h', hlist'.trans hlist⟩
    rw [List.forM, Program.run_bind_of_ok hrun, hrun']

/-- Enabling or disabling all breakpoints leaves the image, and the list. -/
theorem brkPtIterator_spec
    (h : Stored image c) (enable : Bool) :
  ∃ c', (brkPtIterator (iterEnableBreakpoint enable)).run c = .ok ((), c') ∧ Stored image c' ∧
    c'.breakpoints = c.breakpoints
  := by
  rw [brkPtIterator, Program.run_bind_of_ok (run_gets _ c)]
  apply iterBreakpoints_spec h enable
  intro bp hbp
  apply hbp

/-! ### Sequences of operations -/

/-- The operations on breakpoints. -/
inductive BpOp where
  /-- `avr_core_insert_breakpoint (core, pc)` -/
  | insert (pc : Int)
  /-- `avr_core_remove_breakpoint (core, pc)` -/
  | remove (pc : Int)
  /-- `avr_core_enable_breakpoints (core)` -/
  | enable
  /-- `avr_core_disable_breakpoints (core)` -/
  | disable

namespace BpOp

/-- The operation as a program of the core. -/
def program : BpOp → CoreM δ Unit
  | insert pc => avrCoreInsertBreakpoint pc
  | remove pc => avrCoreRemoveBreakpoint pc
  | enable => avrCoreEnableBreakpoints
  | disable => avrCoreDisableBreakpoints

/-- The operation is at an address of a word of the flash. -/
def Valid (flash : Flash) : BpOp → Prop
  | insert pc => flash.Valid pc
  | remove pc => flash.Valid pc
  | enable => True
  | disable => True

end BpOp

/-- The operations of a list, one after the other. -/
def bpProgram : List BpOp → CoreM δ Unit
  | [] => return ()
  | op :: ops => do
    op.program
    bpProgram ops

/-- Two cores have the same flash, and the same breakpoints up to their order. -/
structure SameStore (c c' : AvrCore δ) : Prop where
  flash : c.flash = c'.flash
  breakpoints : c.breakpoints.entries.Perm c'.breakpoints.entries

/-- Validity of an address depends on the extent of the flash. -/
theorem Stored.valid_iff
    (h : Stored image c) (pc : Int) :
  c.flash.Valid pc ↔ image.Valid pc
  := by
  rw [Flash.Valid, Flash.Valid, h.base, h.size]

/-- An operation returns, and leaves the image. -/
theorem BpOp.program_spec
    (h : Stored image c) {op : BpOp} (hop : op.Valid image) :
  ∃ c', op.program.run c = .ok ((), c') ∧ Stored image c'
  := by
  cases op with
  | insert pc =>
    have hpc : c.flash.Valid pc := (h.valid_iff pc).mpr hop
    exact ⟨_, run_avrCoreInsertBreakpoint hpc, h.insert hpc⟩
  | remove pc =>
    obtain ⟨c', hrun, h', -⟩ := avrCoreRemoveBreakpoint_spec h pc
    exact ⟨c', hrun, h'⟩
  | enable =>
    obtain ⟨c', hrun, h', -⟩ := brkPtIterator_spec h true
    exact ⟨c', hrun, h'⟩
  | disable =>
    obtain ⟨c', hrun, h', -⟩ := brkPtIterator_spec h false
    exact ⟨c', hrun, h'⟩

/-- The operations return, and leave the image. -/
theorem bpProgram_spec
    (h : Stored image c) {ops : List BpOp} (hops : ∀ op ∈ ops, op.Valid image) :
  ∃ c', (bpProgram ops).run c = .ok ((), c') ∧ Stored image c'
  := by
  induction ops generalizing c with
  | nil => exact ⟨c, rfl, h⟩
  | cons op ops ih =>
    rw [List.forall_mem_cons] at hops
    obtain ⟨c₁, hrun, h₁⟩ := BpOp.program_spec h hops.1
    obtain ⟨c', hrun', h'⟩ := ih h₁ hops.2
    use c'
    rw [bpProgram, Program.run_bind_of_ok hrun]
    exact ⟨hrun', h'⟩

/-- Removing all breakpoints leaves none, and the image in the flash. -/
theorem remove_all_spec
    (h : Stored image c) {pcs : List Int} (hpcs : ∀ bp ∈ c.breakpoints.entries, bp.pc ∈ pcs) :
  ∃ c', (bpProgram (pcs.map .remove)).run c = .ok ((), c') ∧ c'.flash = image ∧
    c'.breakpoints.entries = []
  := by
  induction pcs generalizing c with
  | nil =>
    have hnil : c.breakpoints.entries = [] := by
      rw [List.eq_nil_iff_forall_not_mem]
      intro bp hbp
      apply List.not_mem_nil (hpcs bp hbp)
    exact ⟨c, rfl, h.flash_eq hnil, hnil⟩
  | cons pc pcs ih =>
    obtain ⟨c₁, hrun, h₁, hleft⟩ := avrCoreRemoveBreakpoint_spec h pc
    have hpcs₁ : ∀ bp ∈ c₁.breakpoints.entries, bp.pc ∈ pcs := by
      intro bp hbp
      obtain ⟨hbp, hne⟩ := (hleft bp).mp hbp
      obtain heq | hmem := List.mem_cons.mp (hpcs bp hbp)
      · contradiction
      · apply hmem
    obtain ⟨c', hrun', h'⟩ := ih h₁ hpcs₁
    use c'
    rw [List.map_cons, bpProgram, BpOp.program, Program.run_bind_of_ok hrun]
    exact ⟨hrun', h'⟩

/-! ### The rest of the core -/

/-- The core without its flash, its breakpoints and the messages to the display. -/
def AvrCore.bare (c : AvrCore δ) : AvrCore δ :=
  { c with flash := { base := 0, size := 0, data := fun _ => 0 }, breakpoints := .nil, display := [] }

theorem avrCoreFlashRead_bare
    (pc : Int) (b : AvrCore δ) :
  Program.Keeps (fun c => c.bare = b) (fun _ => True) (avrCoreFlashRead pc : CoreM δ Word)
  := by
  intro c hc
  rw [run_avrCoreFlashRead]
  cases flashRead c.flash pc
  · trivial
  · apply hc

theorem avrCoreFlashWrite_bare
    (pc : Int) (val : Word) (b : AvrCore δ) :
  Program.Keeps (fun c => c.bare = b) (fun _ => True) (avrCoreFlashWrite pc val : CoreM δ Unit)
  := by
  intro c hc
  rw [run_avrCoreFlashWrite]
  cases storageWritew c.flash (pc * 2) val
  · trivial
  · apply hc

theorem iterEnableBreakpoint_bare
    (enable : Bool) (bp : BreakPt) (b : AvrCore δ) :
  Program.Keeps (fun c => c.bare = b) (fun _ => True)
    (iterEnableBreakpoint enable bp : CoreM δ Unit)
  := by
  rw [iterEnableBreakpoint]
  apply Program.Triple.ite
  · intro _
    apply Program.Triple.bind (avrCoreFlashRead_bare bp.pc b)
    intro insn
    apply Program.Triple.ite
    · intro _
      apply Program.Triple.bind _ fun _ => avrCoreFlashWrite_bare bp.pc breakOpcode b
      intro c hc
      apply hc
    · intro _ c hc
      apply hc
  · intro _
    apply avrCoreFlashWrite_bare

theorem brkPtIterator_bare
    (enable : Bool) (b : AvrCore δ) :
  Program.Keeps (fun c => c.bare = b) (fun _ => True)
    (brkPtIterator (iterEnableBreakpoint enable) : CoreM δ Unit)
  := by
  have hforM (bps : List BreakPt) : Program.Keeps (fun c => c.bare = b) (fun _ => True)
      (bps.forM (iterEnableBreakpoint enable) : CoreM δ Unit) := by
    induction bps with
    | nil =>
      intro c hc
      apply hc
    | cons bp bps ih =>
      apply Program.Triple.bind (iterEnableBreakpoint_bare enable bp b)
      intro _
      apply ih
  intro c hc
  apply hforM c.breakpoints.entries c hc

/-- The operations leave the rest of the core. -/
theorem BpOp.program_bare
    (op : BpOp) (b : AvrCore δ) :
  Program.Keeps (fun c => c.bare = b) (fun _ => True) (op.program : CoreM δ Unit)
  := by
  cases op with
  | insert pc =>
    apply Program.Triple.bind (avrCoreFlashRead_bare pc b)
    intro insn
    apply Program.Triple.bind _ fun _ => avrCoreFlashWrite_bare pc breakOpcode b
    intro c hc
    apply hc
  | remove pc =>
    rw [program, avrCoreRemoveBreakpoint]
    have hgets : Program.Keeps (fun c => c.bare = b) (fun _ => True)
        (gets AvrCore.breakpoints : CoreM δ _) := by
      intro c hc
      apply hc
    apply Program.Triple.bind hgets
    intro breakpoints
    split
    · intro c hc
      apply hc
    · next bp _ =>
      apply Program.Triple.bind _ fun _ => avrCoreFlashWrite_bare pc bp.opcode b
      intro c hc
      apply hc
  | enable => apply brkPtIterator_bare
  | disable => apply brkPtIterator_bare

/-- An operation that returns leaves the image. -/
theorem BpOp.program_stored
    (h : Stored image c) {op : BpOp} {c' : AvrCore δ} (hrun : op.program.run c = .ok ((), c')) :
  Stored image c'
  := by
  have hreturns {c₁ : AvrCore δ} (hspec : op.program.run c = .ok ((), c₁) ∧ Stored image c₁) :
      Stored image c' := by
    obtain ⟨hrun₁, h₁⟩ := hspec
    rw [hrun₁] at hrun
    cases hrun
    apply h₁
  cases op with
  | insert pc =>
    by_cases hpc : image.Valid pc
    · have hop : (insert pc).Valid image := hpc
      obtain ⟨c₁, hspec⟩ := BpOp.program_spec h hop
      apply hreturns hspec
    · rw [← h.valid_iff] at hpc
      have hread : (avrCoreFlashRead pc).run c
          = .error (.message "address out of bounds: 0x%x" [pc * 2]) := by
        rw [run_avrCoreFlashRead, Flash.flashRead_of_not_valid hpc]
        rfl
      rw [program, avrCoreInsertBreakpoint, Program.run_bind_of_error hread] at hrun
      contradiction
  | remove pc =>
    obtain ⟨c₁, hrun₁, h₁, -⟩ := avrCoreRemoveBreakpoint_spec h pc
    apply hreturns ⟨hrun₁, h₁⟩
  | enable =>
    have hop : enable.Valid image := trivial
    obtain ⟨c₁, hspec⟩ := BpOp.program_spec h hop
    apply hreturns hspec
  | disable =>
    have hop : disable.Valid image := trivial
    obtain ⟨c₁, hspec⟩ := BpOp.program_spec h hop
    apply hreturns hspec

/-! ### Operations at an address -/

theorem BreakPt.eq_of_fields
    {bp bp' : BreakPt} (hpc : bp.pc = bp'.pc) (hopcode : bp.opcode = bp'.opcode) :
  bp = bp'
  := by
  cases bp
  cases hpc
  cases hopcode
  rfl

/-- The operations at one address. -/
inductive BpOp.At (pc : Int) : BpOp → Prop
  | insert : BpOp.At pc (.insert pc)
  | remove : BpOp.At pc (.remove pc)

/-- The word at the address of an operation after it, over an image. -/
def BpOp.word (image : Flash) : BpOp → Word
  | remove pc => image.word pc
  | _ => breakOpcode

/-- The operation leaves a breakpoint at its address, over an image. -/
def BpOp.Lists (image : Flash) (bp : BreakPt) : BpOp → Prop
  | insert pc => bp.opcode = image.word pc
  | _ => False

/-- What an operation at an address does depends on the image, and not on the order or the
number of the operations. -/
theorem BpOp.At.program_spec
    {op : BpOp} (hat : op.At pc) (h : Stored image c) (hpc : image.Valid pc) :
  ∃ c', op.program.run c = .ok ((), c') ∧ Stored image c' ∧
    c'.flash = c.flash.setWord pc (op.word image) ∧
    ∀ bp, bp ∈ c'.breakpoints.entries ↔
      if bp.pc = pc then op.Lists image bp else bp ∈ c.breakpoints.entries
  := by
  have hpc' := (h.valid_iff pc).mpr hpc
  cases hat with
  | insert =>
    refine ⟨_, run_avrCoreInsertBreakpoint hpc', h.insert hpc', rfl, ?_⟩
    intro bp
    rw [AvrCore.writeWord_breakpoints, UniqueList.mem_add_iff]
    split
    · next heq =>
      constructor
      · rintro (hbp | ⟨rfl, hfree⟩)
        · rw [← heq]
          apply h.patched.saved bp hbp
        · apply h.patched.free pc hfree
      · intro hopcode
        by_cases hmem : ∃ z ∈ c.breakpoints.entries, z.pc = pc
        · obtain ⟨z, hz, hzpc⟩ := hmem
          have hzbp : z = bp := by
            apply BreakPt.eq_of_fields (hzpc.trans heq.symm)
            rw [h.patched.saved z hz, hzpc]
            apply Eq.symm hopcode
          rw [← hzbp]
          left
          apply hz
        · push Not at hmem
          right
          refine ⟨?_, hmem⟩
          apply BreakPt.eq_of_fields heq
          rw [h.patched.free pc hmem]
          apply hopcode
    · next hne =>
      constructor
      · rintro (hbp | ⟨rfl, -⟩)
        · apply hbp
        · contradiction
      · intro hbp
        left
        apply hbp
  | remove =>
    cases hlookup : c.brkPtLookup pc with
    | none =>
      have hfree := c.brkPtLookup_eq_none hlookup
      refine ⟨c, run_avrCoreRemoveBreakpoint_of_none hlookup, h, ?_, ?_⟩
      · rw [BpOp.word, ← h.patched.free pc hfree, Flash.setWord_self]
      · intro bp
        split
        · next heq =>
          constructor
          · intro hbp
            apply hfree bp hbp heq
          · apply False.elim
        · rfl
    | some bp =>
      obtain ⟨hbp, rfl⟩ := c.mem_of_brkPtLookup hlookup
      refine ⟨_, run_avrCoreRemoveBreakpoint_of_some hlookup hpc', h.remove hbp, ?_, ?_⟩
      · rw [AvrCore.writeWord_flash, BpOp.word, ← h.patched.saved bp hbp]
      · intro bp'
        rw [AvrCore.writeWord_breakpoints, UniqueList.mem_delete_iff]
        split
        · next heq =>
          constructor
          · rintro ⟨-, hne⟩
            contradiction
          · apply False.elim
        · next hne =>
          constructor
          · rintro ⟨hbp', -⟩
            apply hbp'
          · intro hbp'
            use hbp'

/-- Two sequences of operations return, and leave the same store. -/
def Agree (c : AvrCore δ) (ops ops' : List BpOp) : Prop :=
  ∃ d d', (bpProgram ops).run c = .ok ((), d) ∧ (bpProgram ops').run c = .ok ((), d') ∧
    SameStore d d'

/-- An operation at an address may be repeated. -/
theorem BpOp.At.idempotent
    {op : BpOp} (hat : op.At pc) (h : Stored image c) (hpc : image.Valid pc) :
  Agree c [op, op] [op]
  := by
  obtain ⟨d, hrun, hd, hflash, hlist⟩ := hat.program_spec h hpc
  obtain ⟨d', hrun', -, hflash', hlist'⟩ := hat.program_spec hd hpc
  refine ⟨d', d, ?_, ?_, ?_, ?_⟩
  · rw [bpProgram, Program.run_bind_of_ok hrun, bpProgram, Program.run_bind_of_ok hrun']
    rfl
  · rw [bpProgram, Program.run_bind_of_ok hrun]
    rfl
  · rw [hflash', hflash, Flash.setWord_setWord]
  · apply UniqueList.perm_of_mem_iff
    intro bp
    rw [hlist', hlist]
    split <;> rfl

/-- Operations at two addresses commute. -/
theorem BpOp.At.comm
    {op op' : BpOp} {pc' : Int} (hat : op.At pc) (hat' : op'.At pc') (hne : pc ≠ pc')
    (h : Stored image c) (hpc : image.Valid pc) (hpc' : image.Valid pc') :
  Agree c [op, op'] [op', op]
  := by
  obtain ⟨d₁, hrun₁, hd₁, hflash₁, hlist₁⟩ := hat.program_spec h hpc
  obtain ⟨e₁, hrun₁', -, hflash₁', hlist₁'⟩ := hat'.program_spec hd₁ hpc'
  obtain ⟨d₂, hrun₂, hd₂, hflash₂, hlist₂⟩ := hat'.program_spec h hpc'
  obtain ⟨e₂, hrun₂', -, hflash₂', hlist₂'⟩ := hat.program_spec hd₂ hpc
  refine ⟨e₁, e₂, ?_, ?_, ?_, ?_⟩
  · rw [bpProgram, Program.run_bind_of_ok hrun₁, bpProgram, Program.run_bind_of_ok hrun₁']
    rfl
  · rw [bpProgram, Program.run_bind_of_ok hrun₂, bpProgram, Program.run_bind_of_ok hrun₂']
    rfl
  · rw [hflash₁', hflash₁, hflash₂', hflash₂, Flash.setWord_comm hne]
  · apply UniqueList.perm_of_mem_iff
    intro bp
    rw [hlist₁', hlist₁, hlist₂', hlist₂]
    by_cases heq : bp.pc = pc
    · have hne' : bp.pc ≠ pc' := by rw [heq]; apply hne
      rw [if_pos heq, if_neg hne', if_pos heq]
    · rw [if_neg heq, if_neg heq]

/-- The word at an address: the word that a breakpoint saves, or that of the flash. -/
def AvrCore.logicalWord (c : AvrCore δ) (pc : Int) : Word :=
  ((c.brkPtLookup pc).map BreakPt.opcode).getD (c.flash.word pc)

/-- After every sequence of operations at words of the flash, no two breakpoints are at one
address, the word of each is BREAK or the saved one, the logical words are those of the flash
before, insertions and removals are idempotent and commute where their addresses differ, and
the removal of all breakpoints restores the flash. -/
theorem breakpoint_store
    (hnil : c.breakpoints.entries = []) {ops : List BpOp} (hops : ∀ op ∈ ops, op.Valid c.flash) :
  ∃ c', (bpProgram ops).run c = .ok ((), c') ∧
    (c'.breakpoints.entries.map BreakPt.pc).Nodup ∧
    (∀ bp ∈ c'.breakpoints.entries,
      c'.flash.word bp.pc = breakOpcode ∨ c'.flash.word bp.pc = bp.opcode) ∧
    (∀ pc, c'.logicalWord pc = c.flash.word pc) ∧
    (∀ pc op, c.flash.Valid pc → op.At pc → Agree c' [op, op] [op]) ∧
    (∀ pc pc' op op', c.flash.Valid pc → c.flash.Valid pc' → pc ≠ pc' → op.At pc → op'.At pc' →
      Agree c' [op, op'] [op', op]) ∧
    (∀ pcs : List Int, (∀ bp ∈ c'.breakpoints.entries, bp.pc ∈ pcs) →
      ∃ c'', (bpProgram (pcs.map .remove)).run c' = .ok ((), c'') ∧ c''.flash = c.flash ∧
        c''.breakpoints.entries = [])
  := by
  obtain ⟨c', hrun, h⟩ := bpProgram_spec (Stored.refl hnil) hops
  refine ⟨c', hrun, ?_, h.patched.listed, ?_, ?_, ?_, ?_⟩
  · rw [List.Nodup, List.pairwise_map]
    apply c'.breakpoints.unique
  · intro pc
    symm
    apply h.patched.image_eq
  · intro pc op hpc hat
    apply hat.idempotent h hpc
  · intro pc pc' op op' hpc hpc' hne hat hat'
    apply hat.comm hat' hne h hpc hpc'
  · intro pcs hpcs
    apply remove_all_spec h hpcs

/-- The word under a breakpoint that is disabled and inserted again is not lost. -/
theorem breakpoint_store_reinsert :
  ∃ c', (bpProgram [.insert 3, .disable, .insert 3, .enable]).run AvrCore.at90s2313
      = .ok ((), c') ∧ c'.logicalWord 3 = 0xffff
  := by
  have hops : ∀ op ∈ [BpOp.insert 3, .disable, .insert 3, .enable],
      op.Valid AvrCore.at90s2313.flash := by
    have hvalid : AvrCore.at90s2313.flash.Valid 3 := by decide
    simp [BpOp.Valid, hvalid]
  obtain ⟨c', hrun, -, -, hword, -⟩ := breakpoint_store (c := AvrCore.at90s2313) rfl hops
  use c', hrun
  rw [hword 3]
  decide

end SimulAvr
