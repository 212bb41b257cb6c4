import SimulAvr.Alu.Refinement
import SimulAvr.GdbMemory

/-!
# Indices of the register file

The instructions hand indices from 0 to 31 to the register file, but for the ELPM without
operands: it hands its missing operand -1 on to the handler of `ELPM Rd, Z`, where the LPM without
operands hands on R0 (`register_indices_iff`).
-/

namespace SimulAvr

open Program

/-- The working registers are attached to cells with the numbers of registers only. -/
def Layout.FileAttached (l : Layout) : Prop :=
  ∀ addr, (l.mem.cell addr).vdev = some .gpwr → 0 ≤ addr ∧ addr < 32

/-- Every device attaches the working registers to the cells from 0 to 31. -/
theorem fileAttached_of_construct
    {δ : Type} {dev : DevSuppDefn} (hdev : ∀ reg ∈ dev.ioReg, reg.vdev ≠ .gpwr) (io : δ) :
  (AvrCore.construct dev io).layout.FileAttached
  := by
  intro addr h
  change (dev.cell addr).vdev = some .gpwr at h
  by_contra haddr
  rw [DevSuppDefn.cell] at h
  split at h
  · contradiction
  · split at h
    · next reg hfind => apply hdev reg (List.mem_of_find?_eq_some hfind) (Option.some.inj h)
    · contradiction

/-- The first operand is a register. -/
def registerForms : List OperandForm :=
  [.rd5, .rd5rr5, .rd5bit, .rd5q, .rd5a6]

theorem OperandForm.Admits.register
    {form : OperandForm} (hform : form ∈ registerForms) {arg1 arg2 : Int}
    (h : form.Admits arg1 arg2) :
  0 ≤ arg1 ∧ arg1 < 32
  := by
  simp only [registerForms, List.mem_cons, List.not_mem_nil, or_false] at hform
  obtain rfl | rfl | rfl | rfl | rfl := hform <;> exact h.1

section

variable {δ : Type}

/-- An access to the register file with the index `reg`. -/
inductive RegisterAccess (reg : Int) : ∀ α : Type, CoreM δ α → Prop
  | get : RegisterAccess reg Byte (avrCoreGpwrGet reg)
  | set (val : Byte) : RegisterAccess reg Unit (avrCoreGpwrSet reg val)

/-- Every index that the run of `x` from `c` hands to the register file is one of it. -/
def IndicesInFile {α : Type} (x : CoreM δ α) (c : AvrCore δ) : Prop :=
  ∀ (reg : Int) (β : Type) (y : CoreM δ β) (t : AvrCore δ),
    RegisterAccess reg β y → Reaches y t x c → 0 ≤ reg ∧ reg < 32

/-- An access with another index ends the run. -/
theorem RegisterAccess.run_error
    {reg : Int} {α : Type} {x : CoreM δ α} (hx : RegisterAccess reg α x)
    (hreg : ¬ (0 ≤ reg ∧ reg < 32)) (c : AvrCore δ) :
  x.run c = .error (.registerOutOfBounds reg)
  := by
  cases hx with
  | get => apply dif_neg hreg
  | set val => apply dif_neg hreg

/-- The programs `x` and `y` leave the same core, or abort for the same reason. -/
def SameState {α β : Type} (x : CoreM δ α) (y : CoreM δ β) (c : AvrCore δ) : Prop :=
  (x.run c).map Prod.snd = (y.run c).map Prod.snd

/-! ### Programs with indices of the file -/

/-- The program `x` leaves the layout `l`, and hands no index outside of the file to it. -/
abbrev FileSafe (l : Layout) {α : Type} (x : CoreM δ α) : Prop :=
  Keeps (fun c => c.layout = l) (fun e => ∀ reg, e ≠ .registerOutOfBounds reg) x

/-- A run that ends otherwise has handed over no other index. -/
theorem indices_of_run
    {α : Type} {x : CoreM δ α} {c : AvrCore δ}
    (hx : ∀ reg, x.run c ≠ .error (.registerOutOfBounds reg)) :
  IndicesInFile x c
  := by
  intro reg β y t hy hreach
  by_contra hreg
  apply hx reg (hreach.error (hy.run_error hreg t))

theorem FileSafe.indices
    {l : Layout} {α : Type} {x : CoreM δ α} (hx : FileSafe l x) {c : AvrCore δ}
    (hc : c.layout = l) :
  IndicesInFile x c
  := by
  apply indices_of_run
  intro reg h
  apply hx.of_error hc h reg rfl

namespace FileSafe

variable {l : Layout} {α : Type} {name : OpcodeName}

theorem pure
    (a : α) :
  FileSafe l (pure a : CoreM δ α)
  := Triple.pure fun _ h => h

theorem gets
    (f : AvrCore δ → α) :
  FileSafe l (gets f)
  := fun _ h => h

theorem update
    {f : AvrCore δ → AvrCore δ} (hf : ∀ c, (f c).layout = c.layout) :
  FileSafe l (update f)
  := fun c h => (hf c).trans h

theorem error
    (fmt : String) (args : List Int) :
  FileSafe l (avrError fmt args : CoreM δ α)
  := fun _ _ _ => nofun

theorem errorIf
    (p : Prop) [Decidable p] (fmt : String) (args : List Int) :
  FileSafe l (avrErrorIf p fmt args : CoreM δ Unit)
  := Triple.ite (fun _ => error fmt args) fun _ => pure ()

theorem gpwrGet
    {reg : Int} (hreg : 0 ≤ reg ∧ reg < 32) :
  FileSafe l (avrCoreGpwrGet reg : CoreM δ Byte)
  := by
  obtain ⟨r, rfl⟩ := exists_fin_of_mem hreg
  intro c h
  rw [run_avrCoreGpwrGet]
  apply h

theorem gpwrSet
    {reg : Int} (hreg : 0 ≤ reg ∧ reg < 32) (val : Byte) :
  FileSafe l (avrCoreGpwrSet reg val : CoreM δ Unit)
  := by
  obtain ⟨r, rfl⟩ := exists_fin_of_mem hreg
  intro c h
  rw [run_avrCoreGpwrSet]
  apply h

theorem flashRead
    (addr : Int) :
  FileSafe l (avrCoreFlashRead addr : CoreM δ Word)
  := by
  intro c h
  rw [run_avrCoreFlashRead]
  by_cases hvalid : c.flash.Valid addr
  · rw [Flash.flashRead_of_valid hvalid]
    apply h
  · rw [Flash.flashRead_of_not_valid hvalid]
    intro reg
    nofun

theorem flashWrite
    (addr : Int) (val : Word) :
  FileSafe l (avrCoreFlashWrite addr val : CoreM δ Unit)
  := by
  intro c h
  rw [run_avrCoreFlashWrite]
  by_cases hvalid : c.flash.Valid addr
  · rw [Flash.storageWritew_of_valid hvalid]
    apply h
  · rw [Flash.storageWritew_of_not_valid hvalid]
    intro reg
    nofun

theorem liftExcept
    {x : Except AvrError α} (hx : ∀ reg, x ≠ .error (.registerOutOfBounds reg)) :
  FileSafe l (liftExcept x : CoreM δ α)
  := by
  intro c h
  cases hr : x with
  | error e =>
    rw [run_liftExcept_error rfl]
    intro reg heq
    apply hx reg
    rw [hr, heq]
  | ok a =>
    rw [run_liftExcept_ok rfl]
    apply h

theorem liftDev
    (x : Except DevError α) :
  FileSafe l (liftDev x : CoreM δ α)
  := by
  apply liftExcept
  intro reg h
  cases x with
  | error e => cases h
  | ok a => cases h

theorem sramRead
    (addr : Int) :
  FileSafe l (sramRead addr : CoreM δ Byte)
  := by
  apply Triple.bind (gets _)
  intro stor
  apply liftExcept
  intro reg h
  rw [storageReadb] at h
  split at h <;> cases h

theorem sramWrite
    (addr : Int) (val : Byte) :
  FileSafe l (sramWrite addr val : CoreM δ Unit)
  := by
  intro c h
  rw [run_sramWrite]
  cases hwrite : storageWriteb c.sram addr val with
  | error e =>
    intro reg heq
    rw [heq, storageWriteb] at hwrite
    split at hwrite <;> cases hwrite
  | ok stor =>
    obtain ⟨hbase, hsize⟩ := storageWriteb_shape hwrite
    change AvrCore.layout { c with sram := stor } = l
    rw [← h]
    simp only [AvrCore.layout, hbase, hsize]

/-! ### Data memory -/

section DataMemory

variable [IoDevices δ] (hl : l.FileAttached)

theorem vdevRead
    {vdev : VDevice} {addr : Int} (hreg : vdev = .gpwr → 0 ≤ addr ∧ addr < 32) :
  FileSafe l (vdevRead vdev addr : CoreM δ Byte)
  := by
  cases vdev with
  | gpwr => apply gpwrGet (hreg rfl)
  | sreg => apply gets
  | stackPointer =>
    exact Triple.bind (gets _) fun _ => Triple.ite (fun _ => pure _) fun _ =>
      Triple.ite (fun _ => pure _) fun _ => error _ _
  | rampz => apply gets
  | sram => apply sramRead
  | spm => exact Triple.bind (gets _) fun _ => Triple.ite (fun _ => pure _) fun _ => error _ _
  | io =>
    exact Triple.bind (gets _) fun _ => Triple.bind (liftDev _) fun _ =>
      Triple.bind (update fun _ => rfl) fun _ => pure _

omit [IoDevices δ] in
theorem spWrite
    (addr : Int) (val : Byte) :
  FileSafe l (spWrite addr val : CoreM δ Unit)
  := by
  intro c h
  simp only [SimulAvr.spWrite, StateT.run_bind, run_gets, Program.ok_bind]
  by_cases hspl : addr = c.sp.splAddr
  · rw [if_pos hspl]
    apply h
  · rw [if_neg hspl]
    by_cases hsph : addr = c.sp.splAddr + 1
    · rw [if_pos hsph]
      apply h
    · rw [if_neg hsph]
      intro reg hreg
      cases hreg

theorem vdevWrite
    {vdev : VDevice} {addr : Int} (hreg : vdev = .gpwr → 0 ≤ addr ∧ addr < 32) (val : Byte) :
  FileSafe l (vdevWrite vdev addr val : CoreM δ Unit)
  := by
  cases vdev with
  | gpwr => apply gpwrSet (hreg rfl)
  | sreg => exact update fun _ => rfl
  | stackPointer => apply spWrite
  | rampz => exact update fun _ => rfl
  | sram => apply sramWrite
  | spm =>
    exact Triple.bind (gets _) fun _ => Triple.bind (errorIf _ _ _) fun _ =>
      Triple.bind (errorIf _ _ _) fun _ => Triple.bind (errorIf _ _ _) fun _ =>
      Triple.bind (errorIf _ _ _) fun _ => Triple.bind (errorIf _ _ _) fun _ =>
      update fun _ => rfl
  | io =>
    exact Triple.bind (gets _) fun _ => Triple.bind (liftDev _) fun _ => update fun _ => rfl

include hl

omit [IoDevices δ] in
/-- The device of a cell, and the cell of a register. -/
theorem memGetCell
    (addr : Int) :
  Triple (fun c => c.layout = l) (memGetCell addr : CoreM δ MemoryCell)
    (fun cell c => c.layout = l ∧ (cell.vdev = some .gpwr → 0 ≤ addr ∧ addr < 32))
    fun e => ∀ reg, e ≠ .registerOutOfBounds reg
  := by
  intro c h
  by_cases haddr : 0 ≤ addr ∧ addr ≤ c.mem.xramEnd
  · rw [run_memGetCell c addr haddr]
    refine ⟨h, ?_⟩
    subst h
    apply hl addr
  · rw [run_memGetCell_error c addr haddr]
    intro reg
    nofun

theorem memRead
    (addr : Int) :
  FileSafe l (memRead addr : CoreM δ Byte)
  := by
  apply Triple.bind (memGetCell hl addr)
  rintro ⟨_ | vdev, rdMask, wrMask⟩ c ⟨hc, hreg⟩
  · apply hc
  · have hsafe : FileSafe l (do
        let val ← SimulAvr.vdevRead vdev addr
        return val &&& rdMask : CoreM δ Byte) :=
      Triple.bind (vdevRead fun h => hreg (congrArg some h)) fun _ => pure _
    apply hsafe c hc

theorem memWrite
    (addr : Int) (val : Byte) :
  FileSafe l (memWrite addr val : CoreM δ Unit)
  := by
  apply Triple.bind (memGetCell hl addr)
  rintro ⟨_ | vdev, rdMask, wrMask⟩ c ⟨hc, hreg⟩
  · apply hc
  · have hsafe : FileSafe l (do
        SimulAvr.update fun c =>
          if memIsIoReg c.mem addr then
            c.displaySend (.ioReg (addr - (c.mem.gpwrEnd + 1)) (val &&& wrMask))
          else c
        SimulAvr.vdevWrite vdev addr (val &&& wrMask) : CoreM δ Unit) := by
      apply Triple.bind
      · apply update
        intro c
        split <;> rfl
      · intro _
        apply vdevWrite fun h => hreg (congrArg some h)
    apply hsafe c hc

end DataMemory

/-! ### The handlers -/

theorem nextInst
    (cks : Int) :
  FileSafe l (nextInst name cks : CoreM δ OpRet)
  := Triple.bind (update fun _ => rfl) fun _ => Triple.bind (update fun _ => rfl) fun _ => pure _

theorem pointerGet
    {p : Int} (hp : 0 ≤ p ∧ p + 1 < 32) :
  FileSafe l (pointerGet p : CoreM δ Word)
  := Triple.bind (gpwrGet ⟨by omega, hp.2⟩) fun _ => Triple.bind (gpwrGet ⟨hp.1, by omega⟩) fun _ =>
    pure _

theorem pointerSet
    {p : Int} (hp : 0 ≤ p ∧ p + 1 < 32) (X : Word) :
  FileSafe l (pointerSet p X : CoreM δ Unit)
  := Triple.bind (gpwrSet ⟨hp.1, by omega⟩ _) fun _ => gpwrSet ⟨by omega, hp.2⟩ _

theorem extendedZ :
  FileSafe l (extendedZ : CoreM δ Nat)
  := Triple.bind (gets _) fun _ => Triple.bind (gpwrGet (by decide)) fun _ =>
    Triple.bind (gpwrGet (by decide)) fun _ => pure _

theorem extendedIndirect :
  FileSafe l (extendedIndirect : CoreM δ Int)
  := Triple.bind (gets _) fun _ => Triple.bind (pointerGet (by decide)) fun _ => pure _

theorem flashReadNext :
  FileSafe l (flashReadNext : CoreM δ Word)
  := Triple.bind (gets _) fun _ => flashRead _

theorem isNextInst2Words :
  FileSafe l (isNextInst2Words : CoreM δ Bool)
  := Triple.bind flashReadNext fun _ => pure _

theorem addressOperand
    (kh : Int) :
  FileSafe l (addressOperand kh : CoreM δ Int)
  := Triple.bind flashReadNext fun _ => pure _

/-- A jump to a word or by some words -/
theorem jump
    {x : CoreM δ Unit} (hx : FileSafe l x) (cks : Int) :
  FileSafe l (do x; avrCoreInstCKSSet cks; return .opcode name : CoreM δ OpRet)
  := Triple.bind hx fun _ => Triple.bind (update fun _ => rfl) fun _ => pure _

theorem pcSet
    (val : Int) :
  FileSafe l (avrCorePCSet val : CoreM δ Unit)
  := update fun _ => rfl

theorem pcIncr
    (val : Int) :
  FileSafe l (avrCorePCIncr val : CoreM δ Unit)
  := update fun _ => rfl

theorem branchIf
    (val : Bool) (bit k : Int) :
  FileSafe l (branchIf name val bit k : CoreM δ OpRet)
  := Triple.bind (gets _) fun _ => Triple.ite (fun _ => jump (pcIncr _) _) fun _ => nextInst _

theorem skipIf
    (cond : Bool) (skip : Int) :
  FileSafe l (skipIf name cond skip : CoreM δ OpRet)
  := Triple.ite (fun _ => jump (pcIncr _) _) fun _ => nextInst _

theorem skipIfRegBit
    (val : Bool) {Rd : Int} (hRd : 0 ≤ Rd ∧ Rd < 32) (b : Int) :
  FileSafe l (skipIfRegBit name val Rd b : CoreM δ OpRet)
  := Triple.bind isNextInst2Words fun _ => Triple.bind (gpwrGet hRd) fun _ => skipIf _ _

theorem lpm
    {Rd : Int} (hRd : 0 ≤ Rd ∧ Rd < 32) :
  FileSafe l (avrOpLPMZ Rd : CoreM δ OpRet)
  := Triple.bind (pointerGet (by decide)) fun _ => Triple.bind (flashRead _) fun _ =>
    Triple.bind (gpwrSet hRd _) fun _ => nextInst _

theorem lpmIncr
    {Rd : Int} (hRd : 0 ≤ Rd ∧ Rd < 32) :
  FileSafe l (avrOpLPMZIncr Rd : CoreM δ OpRet)
  := Triple.bind (errorIf _ _ _) fun _ => Triple.bind (pointerGet (by decide)) fun _ =>
    Triple.bind (flashRead _) fun _ => Triple.bind (gpwrSet hRd _) fun _ =>
    Triple.bind (pointerSet (by decide) _) fun _ => nextInst _

theorem elpm
    {Rd : Int} (hRd : 0 ≤ Rd ∧ Rd < 32) :
  FileSafe l (avrOpELPMZ Rd : CoreM δ OpRet)
  := Triple.bind (errorIf _ _ _) fun _ => Triple.bind extendedZ fun _ =>
    Triple.bind (flashRead _) fun _ => Triple.bind (gpwrSet hRd _) fun _ => nextInst _

theorem elpmIncr
    {Rd : Int} (hRd : 0 ≤ Rd ∧ Rd < 32) :
  FileSafe l (avrOpELPMZIncr Rd : CoreM δ OpRet)
  := Triple.bind (errorIf _ _ _) fun _ => Triple.bind extendedZ fun _ =>
    Triple.bind (flashRead _) fun _ => Triple.bind (gpwrSet hRd _) fun _ =>
    Triple.bind (gpwrSet (by decide) _) fun _ => Triple.bind (gpwrSet (by decide) _) fun _ =>
    Triple.bind (update fun c => by rw [AvrCore.rampzSet]; split <;> rfl) fun _ => nextInst _

theorem spmErase
    (addr : Int) (n : Nat) :
  FileSafe l (spmErase addr n : CoreM δ Unit)
  := by
  induction n generalizing addr with
  | zero => apply pure
  | succ n ih => exact Triple.bind (flashWrite _ _) fun _ => ih _

theorem spmWritePage
    (Z i : Int) (n : Nat) :
  FileSafe l (spmWritePage Z i n : CoreM δ Unit)
  := by
  induction n generalizing i with
  | zero => apply pure
  | succ n ih =>
    exact Triple.bind (flashRead _) fun _ => Triple.bind (gets _) fun _ =>
      Triple.bind (flashWrite _ _) fun _ => ih _

theorem spm :
  FileSafe l (avrOpSPM : CoreM δ OpRet)
  := by
  refine Triple.bind extendedZ fun _ => Triple.bind (gpwrGet (by decide)) fun _ =>
    Triple.bind (gpwrGet (by decide)) fun _ => Triple.bind (Triple.bind (gets _) fun _ => ?_)
    fun _ => nextInst _
  exact Triple.ite (fun _ => update fun _ => rfl) fun _ =>
    Triple.ite (fun _ => update fun _ => rfl) fun _ =>
    Triple.ite (fun _ => Triple.bind (spmErase _ _) fun _ => update fun _ => rfl) fun _ =>
    Triple.ite (fun _ => Triple.bind (spmWritePage _ _ _) fun _ => update fun _ => rfl) fun _ =>
    error _ _

section DataMemory

variable [IoDevices δ] (hl : l.FileAttached)

include hl

theorem ldIndirect
    {p Rd : Int} (hp : 0 ≤ p ∧ p + 1 < 32) (hRd : 0 ≤ Rd ∧ Rd < 32) :
  FileSafe l (ldIndirect name p Rd : CoreM δ OpRet)
  := Triple.bind (pointerGet hp) fun _ => Triple.bind (memRead hl _) fun _ =>
    Triple.bind (gpwrSet hRd _) fun _ => nextInst _

theorem ldDecr
    {p Rd : Int} (hp : 0 ≤ p ∧ p + 1 < 32) (hRd : 0 ≤ Rd ∧ Rd < 32) :
  FileSafe l (ldDecr name p Rd : CoreM δ OpRet)
  := Triple.bind (errorIf _ _ _) fun _ => Triple.bind (pointerGet hp) fun _ =>
    Triple.bind (pointerSet hp _) fun _ => Triple.bind (memRead hl _) fun _ =>
    Triple.bind (gpwrSet hRd _) fun _ => nextInst _

theorem ldIncr
    {p Rd : Int} (hp : 0 ≤ p ∧ p + 1 < 32) (hRd : 0 ≤ Rd ∧ Rd < 32) :
  FileSafe l (ldIncr name p Rd : CoreM δ OpRet)
  := Triple.bind (errorIf _ _ _) fun _ => Triple.bind (pointerGet hp) fun _ =>
    Triple.bind (memRead hl _) fun _ => Triple.bind (gpwrSet hRd _) fun _ =>
    Triple.bind (pointerSet hp _) fun _ => nextInst _

theorem ldDisp
    {p Rd : Int} (hp : 0 ≤ p ∧ p + 1 < 32) (hRd : 0 ≤ Rd ∧ Rd < 32) (q : Int) :
  FileSafe l (ldDisp name p Rd q : CoreM δ OpRet)
  := Triple.bind (pointerGet hp) fun _ => Triple.bind (memRead hl _) fun _ =>
    Triple.bind (gpwrSet hRd _) fun _ => nextInst _

theorem stIndirect
    {p Rd : Int} (hp : 0 ≤ p ∧ p + 1 < 32) (hRd : 0 ≤ Rd ∧ Rd < 32) :
  FileSafe l (stIndirect name p Rd : CoreM δ OpRet)
  := Triple.bind (pointerGet hp) fun _ => Triple.bind (gpwrGet hRd) fun _ =>
    Triple.bind (memWrite hl _ _) fun _ => nextInst _

theorem stDecr
    {p Rd : Int} (hp : 0 ≤ p ∧ p + 1 < 32) (hRd : 0 ≤ Rd ∧ Rd < 32) (opcode : Word) :
  FileSafe l (stDecr name p opcode Rd : CoreM δ OpRet)
  := Triple.bind (errorIf _ _ _) fun _ => Triple.bind (pointerGet hp) fun _ =>
    Triple.bind (pointerSet hp _) fun _ => Triple.bind (gpwrGet hRd) fun _ =>
    Triple.bind (memWrite hl _ _) fun _ => nextInst _

theorem stIncr
    {p Rd : Int} (hp : 0 ≤ p ∧ p + 1 < 32) (hRd : 0 ≤ Rd ∧ Rd < 32) (opcode : Word) :
  FileSafe l (stIncr name p opcode Rd : CoreM δ OpRet)
  := Triple.bind (errorIf _ _ _) fun _ => Triple.bind (pointerGet hp) fun _ =>
    Triple.bind (gpwrGet hRd) fun _ => Triple.bind (memWrite hl _ _) fun _ =>
    Triple.bind (pointerSet hp _) fun _ => nextInst _

theorem stDisp
    {p Rd : Int} (hp : 0 ≤ p ∧ p + 1 < 32) (hRd : 0 ≤ Rd ∧ Rd < 32) (q : Int) :
  FileSafe l (stDisp name p Rd q : CoreM δ OpRet)
  := Triple.bind (pointerGet hp) fun _ => Triple.bind (gpwrGet hRd) fun _ =>
    Triple.bind (memWrite hl _ _) fun _ => nextInst _

theorem lds
    {Rd : Int} (hRd : 0 ≤ Rd ∧ Rd < 32) :
  FileSafe l (avrOpLDS Rd : CoreM δ OpRet)
  := Triple.bind flashReadNext fun _ => Triple.bind (memRead hl _) fun _ =>
    Triple.bind (gpwrSet hRd _) fun _ => jump (pcIncr _) _

theorem sts
    {Rd : Int} (hRd : 0 ≤ Rd ∧ Rd < 32) :
  FileSafe l (avrOpSTS Rd : CoreM δ OpRet)
  := Triple.bind flashReadNext fun _ => Triple.bind (gpwrGet hRd) fun _ =>
    Triple.bind (memWrite hl _ _) fun _ => jump (pcIncr _) _

/-- The handlers of CBI and SBI, which write a bit of an I/O register -/
theorem setIoBit
    (A : Int) (f : Byte → Byte) :
  FileSafe l (do
    let val ← avrCoreIoRead A
    avrCoreIoWrite A (f val)
    SimulAvr.nextInst name 2 : CoreM δ OpRet)
  := Triple.bind (memRead hl _) fun _ => Triple.bind (memWrite hl _ _) fun _ => nextInst _

theorem skipIfIoBit
    (val : Bool) (A b : Int) :
  FileSafe l (skipIfIoBit name val A b : CoreM δ OpRet)
  := Triple.bind isNextInst2Words fun _ => Triple.bind (memRead hl _) fun _ => skipIf _ _

theorem memPopLoop
    (n : Nat) (sp : Word) (val : BitVec 32) :
  FileSafe l (memPopLoop n sp val : CoreM δ (BitVec 32 × Word))
  := by
  induction n generalizing sp val with
  | zero => apply pure
  | succ n ih => exact Triple.bind (memRead hl _) fun _ => ih _ _

theorem memPushLoop
    (n : Nat) (sp : Word) (val : BitVec 32) :
  FileSafe l (memPushLoop n sp val : CoreM δ Word)
  := by
  induction n generalizing sp val with
  | zero => apply pure
  | succ n ih => exact Triple.bind (memWrite hl _ _) fun _ => ih _ _

theorem stackPop
    (bytes : Int) :
  FileSafe l (avrCoreStackPop bytes : CoreM δ (BitVec 32))
  := by
  apply Triple.bind (gets _)
  rintro (⟨depth, stack⟩ | _)
  · exact Triple.bind (update fun _ => rfl) fun _ => pure _
  · exact Triple.bind (gets _) fun _ => Triple.bind (errorIf _ _ _) fun _ =>
      Triple.bind (memPopLoop hl _ _ _) fun _ => Triple.bind (update fun _ => rfl) fun _ => pure _

theorem stackPush
    (bytes : Int) (val : BitVec 32) :
  FileSafe l (avrCoreStackPush bytes val : CoreM δ Unit)
  := by
  apply Triple.bind (gets _)
  rintro (⟨depth, stack⟩ | _)
  · exact update fun _ => rfl
  · exact Triple.bind (gets _) fun _ => Triple.bind (errorIf _ _ _) fun _ =>
      Triple.bind (memPushLoop hl _ _ _) fun _ => update fun _ => rfl

end DataMemory

/-! ### All handlers -/

section Handlers

variable [IoDevices δ] {func : OpcodeName} {arg1 arg2 : Int}

/-- The instructions that work on the registers only, whose operands are registers -/
theorem alu
    (hfunc : func ∈ aluOpcodes) (hargs : func.form.Admits arg1 arg2) (opcode : Word) :
  FileSafe l (func.handler opcode arg1 arg2 : CoreM δ OpRet)
  := by
  intro c hc
  obtain ⟨msgs, hrun⟩ := handler_alu c hfunc hargs opcode
  rw [hrun]
  apply hc

/-- The handlers hand no index outside of the file to it, ELPM apart. -/
theorem handler
    (hl : l.FileAttached) (hargs : func.form.Admits arg1 arg2) (hfunc : func ≠ .ELPM)
    (opcode : Word) :
  FileSafe l (func.handler opcode arg1 arg2 : CoreM δ OpRet)
  := by
  by_cases halu : func ∈ aluOpcodes
  · apply alu halu hargs
  have hRd (hform : func.form ∈ registerForms) : 0 ≤ arg1 ∧ arg1 < 32 := hargs.register hform
  have hp : ∀ p ∈ [(26 : Int), 28, 30], 0 ≤ p ∧ p + 1 < 32 := by decide
  have hX := hp 26 (by decide)
  have hY := hp 28 (by decide)
  have hZ := hp 30 (by decide)
  cases func with
  | BREAK => exact pure _
  | EICALL =>
    exact Triple.bind (gets _) fun _ => Triple.bind extendedIndirect fun _ =>
      Triple.bind (stackPush hl _ _) fun _ => jump (pcSet _) _
  | EIJMP => exact Triple.bind extendedIndirect fun _ => jump (pcSet _) _
  | ELPM => contradiction
  | ESPM => exact error _ _
  | ICALL =>
    exact Triple.bind (gets _) fun _ => Triple.bind (gets _) fun _ =>
      Triple.bind (pointerGet hZ) fun _ => Triple.bind (stackPush hl _ _) fun _ =>
      jump (pcSet _) _
  | IJMP => exact Triple.bind (pointerGet hZ) fun _ => jump (pcSet _) _
  | LPM => exact lpm (by decide)
  | NOP => exact nextInst _
  | RET =>
    exact Triple.bind (gets _) fun _ => Triple.bind (stackPop hl _) fun _ => jump (pcSet _) _
  | RETI =>
    exact Triple.bind (gets _) fun _ => Triple.bind (stackPop hl _) fun _ =>
      Triple.bind (pcSet _) fun _ => Triple.bind (update fun _ => rfl) fun _ =>
      Triple.bind (update fun _ => rfl) fun _ => pure _
  | SLEEP => exact Triple.bind (error _ _) fun mcucr => nomatch mcucr
  | SPM => exact spm
  | WDR => exact Triple.bind (error _ _) fun wdtcr => nomatch wdtcr
  | ELPM_Z => exact elpm (hRd (by decide))
  | ELPM_Z_incr => exact elpmIncr (hRd (by decide))
  | LDS => exact lds hl (hRd (by decide))
  | LD_X => exact ldIndirect hl hX (hRd (by decide))
  | LD_X_decr => exact ldDecr hl hX (hRd (by decide))
  | LD_X_incr => exact ldIncr hl hX (hRd (by decide))
  | LD_Y_decr => exact ldDecr hl hY (hRd (by decide))
  | LD_Y_incr => exact ldIncr hl hY (hRd (by decide))
  | LD_Z_decr => exact ldDecr hl hZ (hRd (by decide))
  | LD_Z_incr => exact ldIncr hl hZ (hRd (by decide))
  | LPM_Z => exact lpm (hRd (by decide))
  | LPM_Z_incr => exact lpmIncr (hRd (by decide))
  | POP =>
    exact Triple.bind (stackPop hl _) fun _ => Triple.bind (gpwrSet (hRd (by decide)) _) fun _ =>
      nextInst _
  | PUSH =>
    exact Triple.bind (gpwrGet (hRd (by decide))) fun _ => Triple.bind (stackPush hl _ _) fun _ =>
      nextInst _
  | STS => exact sts hl (hRd (by decide))
  | ST_X => exact stIndirect hl hX (hRd (by decide))
  | ST_X_decr => exact stDecr hl hX (hRd (by decide)) _
  | ST_X_incr => exact stIncr hl hX (hRd (by decide)) _
  | ST_Y_decr => exact stDecr hl hY (hRd (by decide)) _
  | ST_Y_incr => exact stIncr hl hY (hRd (by decide)) _
  | ST_Z_decr => exact stDecr hl hZ (hRd (by decide)) _
  | ST_Z_incr => exact stIncr hl hZ (hRd (by decide)) _
  | CPSE =>
    exact Triple.bind (gpwrGet (hRd (by decide))) fun _ => Triple.bind (gpwrGet hargs.2) fun _ =>
      Triple.bind isNextInst2Words fun _ => skipIf _ _
  | SBRC => exact skipIfRegBit _ (hRd (by decide)) _
  | SBRS => exact skipIfRegBit _ (hRd (by decide)) _
  | BRBC => exact branchIf _ _ _
  | BRBS => exact branchIf _ _ _
  | LDD_Y => exact ldDisp hl hY (hRd (by decide)) _
  | LDD_Z => exact ldDisp hl hZ (hRd (by decide)) _
  | STD_Y => exact stDisp hl hY (hRd (by decide)) _
  | STD_Z => exact stDisp hl hZ (hRd (by decide)) _
  | CALL =>
    exact Triple.bind (gets _) fun _ => Triple.bind (gets _) fun _ =>
      Triple.bind (addressOperand _) fun _ => Triple.bind (errorIf _ _ _) fun _ =>
      Triple.bind (stackPush hl _ _) fun _ => jump (pcSet _) _
  | JMP => exact Triple.bind (addressOperand _) fun _ => jump (pcSet _) _
  | CBI => exact setIoBit hl _ _
  | SBI => exact setIoBit hl _ _
  | SBIC => exact skipIfIoBit hl _ _ _
  | SBIS => exact skipIfIoBit hl _ _ _
  | IN =>
    exact Triple.bind (memRead hl _) fun _ => Triple.bind (gpwrSet (hRd (by decide)) _) fun _ =>
      nextInst _
  | OUT =>
    exact Triple.bind (gpwrGet (hRd (by decide))) fun _ => Triple.bind (memWrite hl _ _) fun _ =>
      nextInst _
  | RCALL =>
    exact Triple.bind (gets _) fun _ => Triple.bind (gets _) fun _ =>
      Triple.bind (stackPush hl _ _) fun _ => jump (pcIncr _) _
  | RJMP => exact jump (pcIncr _) _
  | UNKNOWN => exact Triple.bind (nextInst _) fun _ => pure _
  | _ => exact absurd (by decide) halu

end Handlers

end FileSafe

/-! ### The forms without operands -/

variable [IoDevices δ] {c : AvrCore δ} {opcode : Word}

/-- The execution of `opcode` in `c` keeps to the register file, and has the effect of
`LPM R0, Z` or of `ELPM R0, Z` if it is the form without operands. -/
structure AvrCore.KeepsToFile (c : AvrCore δ) (opcode : Word) : Prop where
  indices : IndicesInFile (execOpcode opcode) c
  lpm : (decodeOpcode opcode).func = .LPM → SameState (execOpcode opcode) (execOpcode 0x9004) c
  elpm : (decodeOpcode opcode).func = .ELPM → SameState (execOpcode opcode) (execOpcode 0x9006) c

omit [IoDevices δ] in
/-- The word of program memory that ELPM reads, in the flash or not -/
theorem run_elpm
    {Rd : Int} (hRd : ¬ (Rd = 30 ∨ Rd = 31)) (c : AvrCore δ) :
  (avrOpELPMZ Rd).run c =
    (do
      let data ← avrCoreFlashRead (OpcodeName.loadAddr c .ELPM / 2 : Nat)
      avrCoreGpwrSet Rd (selectByte data (OpcodeName.loadAddr c .ELPM % 2 = 1))
      nextInst .ELPM_Z 3 : CoreM δ OpRet).run c
  := by
  apply (run_bind_of_ok (run_avrErrorIf_neg hRd _ _ c)).trans
  apply run_bind_of_ok (run_extendedZ c)

/-- ELPM without operands, of which the first is -1 -/
theorem execOpcode_elpm
    (hfunc : (decodeOpcode opcode).func = .ELPM) :
  (execOpcode opcode : CoreM δ OpRet) = avrOpELPM (-1)
  := by
  have hform : OpcodeName.ELPM.form = .none := by decide +kernel
  have hargs := lookupOpcode_admits opcode
  change (decodeOpcode opcode).func.form.Admits _ _ at hargs
  rw [hfunc, hform] at hargs
  rw [execOpcode, hfunc, show (decodeOpcode opcode).arg1 = -1 from hargs.1]
  rfl

/-- ELPM without operands hands -1 to the register file where its word is in the flash. -/
theorem not_keepsToFile
    (hfunc : (decodeOpcode opcode).func = .ELPM)
    (hvalid : c.flash.Valid (OpcodeName.loadAddr c .ELPM / 2 : Nat)) :
  ¬ IndicesInFile (execOpcode opcode) c
  := by
  intro h
  rw [execOpcode_elpm hfunc] at h
  have hread : (avrCoreFlashRead (OpcodeName.loadAddr c .ELPM / 2 : Nat)).run c =
      .ok (c.flash.word (OpcodeName.loadAddr c .ELPM / 2 : Nat), c) := by
    rw [run_avrCoreFlashRead, Flash.flashRead_of_valid hvalid]
    rfl
  have hset : RegisterAccess (δ := δ) (-1) Unit _ := .set
    (selectByte (c.flash.word (OpcodeName.loadAddr c .ELPM / 2 : Nat))
      (OpcodeName.loadAddr c .ELPM % 2 = 1))
  have hreach : Reaches (avrCoreGpwrSet (-1) _) c (avrOpELPM (-1)) c :=
    .left (.right (run_avrErrorIf_neg (by decide) _ _ c) (.right (run_extendedZ c)
      (.right hread (.left .refl))))
  have hreg := h (-1) Unit _ c hset hreach
  omega

/-- Where the word is not in the flash, ELPM aborts with and without operands. -/
theorem run_elpm_of_not_valid
    (hfunc : (decodeOpcode opcode).func = .ELPM)
    (hvalid : ¬ c.flash.Valid (OpcodeName.loadAddr c .ELPM / 2 : Nat)) :
  ∃ fmt args, (execOpcode opcode).run c = .error (.message fmt args) ∧
    (execOpcode 0x9006).run c = .error (.message fmt args)
  := by
  have hread : (avrCoreFlashRead (OpcodeName.loadAddr c .ELPM / 2 : Nat)).run c =
      .error (.message "address out of bounds: 0x%x"
        [((OpcodeName.loadAddr c .ELPM / 2 : Nat) : Int) * 2]) := by
    rw [run_avrCoreFlashRead, Flash.flashRead_of_not_valid hvalid]
    rfl
  have hdecode : decodeOpcode 0x9006 = { func := .ELPM_Z, arg1 := 0, arg2 := -1 } := by
    decide +kernel
  use "address out of bounds: 0x%x", [((OpcodeName.loadAddr c .ELPM / 2 : Nat) : Int) * 2]
  constructor
  · rw [execOpcode_elpm hfunc]
    apply run_bind_of_error
    rw [run_elpm (by decide)]
    apply run_bind_of_error hread
  · rw [execOpcode, hdecode]
    apply (run_elpm (by decide) c).trans
    apply run_bind_of_error hread

/-- Every instruction keeps to the register file, but for an ELPM without operands whose word is
in the flash. -/
theorem register_indices_iff
    {dev : DevSuppDefn} (hdev : ∀ reg ∈ dev.ioReg, reg.vdev ≠ .gpwr) {io : δ}
    (hc : c.layout = (AvrCore.construct dev io).layout) (opcode : Word) :
  c.KeepsToFile opcode ↔ ¬ ((decodeOpcode opcode).func = .ELPM ∧
    c.flash.Valid (OpcodeName.loadAddr c .ELPM / 2 : Nat))
  := by
  constructor
  · rintro ⟨hindices, -, -⟩ ⟨hfunc, hvalid⟩
    apply not_keepsToFile hfunc hvalid hindices
  · intro h
    by_cases hfunc : (decodeOpcode opcode).func = .ELPM
    · have hvalid : ¬ c.flash.Valid (OpcodeName.loadAddr c .ELPM / 2 : Nat) := fun hvalid =>
        h ⟨hfunc, hvalid⟩
      obtain ⟨fmt, args, hrun, hrun'⟩ := run_elpm_of_not_valid hfunc hvalid
      constructor
      · apply indices_of_run
        intro reg herror
        rw [hrun] at herror
        cases herror
      · intro hlpm
        rw [hfunc] at hlpm
        contradiction
      · intro _
        rw [SameState, hrun, hrun']
    · have hsafe : FileSafe c.layout (execOpcode opcode : CoreM δ OpRet) := by
        apply FileSafe.handler _ (lookupOpcode_admits opcode) hfunc
        rw [hc]
        apply fileAttached_of_construct hdev
      constructor
      · apply hsafe.indices rfl
      · intro hlpm
        have hdecode : decodeOpcode 0x9004 = { func := .LPM_Z, arg1 := 0, arg2 := -1 } := by
          decide +kernel
        rw [SameState, execOpcode, execOpcode, hlpm, hdecode]
        rfl
      · intro helpm
        contradiction

end

/-- LPM without operands on the at90s2313 -/
theorem register_indices_lpm :
  AvrCore.at90s2313.KeepsToFile 0x95c8
  := by
  have hdev : ∀ reg ∈ defnAt90s2313.ioReg, reg.vdev ≠ .gpwr := by decide
  have hlayout : AvrCore.at90s2313.layout = (AvrCore.construct defnAt90s2313 ()).layout := rfl
  rw [register_indices_iff hdev hlayout]
  rintro ⟨hfunc, -⟩
  exact absurd hfunc (by decide +kernel)

/-- ELPM without operands on the at90s2313, with zero in all registers -/
theorem elpm_leaves_file :
  ¬ ∀ (opcode : Word) (c : AvrCore Unit), c.layout = (AvrCore.construct defnAt90s2313 ()).layout →
    c.KeepsToFile opcode
  := by
  intro h
  have hfunc : (decodeOpcode 0x95d8).func = .ELPM := by decide +kernel
  have hvalid : AvrCore.at90s2313.flash.Valid
      (OpcodeName.loadAddr AvrCore.at90s2313 .ELPM / 2 : Nat) := by
    decide
  exact not_keepsToFile hfunc hvalid (h 0x95d8 AvrCore.at90s2313 rfl).indices

end SimulAvr
