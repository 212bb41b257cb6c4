import SimulAvr.Decoder.Control
import SimulAvr.Decoder.Operands

/-!
# The footprint of the instructions

What an instruction may access: the cells of data memory, the flash, and the program
counter.  The handler of every opcode is built by sequencing from accesses within the
scope of the opcode (`handler_uses`), and the handlers of all instructions but those of
control flow end by moving the program counter over the instruction
(`handler_advances`).
-/

namespace SimulAvr

/-- A scope of accesses. -/
structure Scope where
  /-- The addresses handed to `mem_read` and `mem_write`. -/
  cell : Int → Prop
  /-- Whether the word of flash after the instruction is read. -/
  operand : Prop
  /-- Whether other words of flash are read or written. -/
  flash : Prop
  /-- Whether the handler calls `avr_error`. -/
  error : Prop

section

variable {δ : Type} [IoDevices δ]

/-- The accesses of the handlers to a core, within a scope; `pc` says whether they may set
the program counter. -/
inductive Access (S : Scope) (pc : Prop) : ∀ α : Type, CoreM δ α → Prop
  | error {α : Type} (h : S.error) (fmt : String) (args : List Int) :
      Access S pc α (avrError fmt args)
  | pcGet : Access S pc Int avrCorePCGet
  | pcSize : Access S pc Int avrCorePCSize
  | pcSet (h : pc) (val : Int) : Access S pc Unit (avrCorePCSet val)
  | pcIncr (h : pc) (val : Int) : Access S pc Unit (avrCorePCIncr val)
  | instCKSSet (val : Int) : Access S pc Unit (avrCoreInstCKSSet val)
  | sregGet : Access S pc Byte avrCoreSregGet
  | sregSet (v : Byte) : Access S pc Unit (avrCoreSregSet v)
  | sregGetBit (b : Nat) : Access S pc Bool (avrCoreSregGetBit b)
  | sregSetBit (b : Nat) (v : Bool) : Access S pc Unit (avrCoreSregSetBit b v)
  | rampzGet : Access S pc Byte avrCoreRampzGet
  | rampzSet (v : Byte) : Access S pc Unit (avrCoreRampzSet v)
  | eindGet : Access S pc Byte (gets AvrCore.eind)
  | gpwrGet (reg : Int) : Access S pc Byte (avrCoreGpwrGet reg)
  | gpwrSet (reg : Int) (val : Byte) : Access S pc Unit (avrCoreGpwrSet reg val)
  | spGet : Access S pc Word (gets AvrCore.spGet)
  | spSet (val : Word) : Access S pc Unit (update fun c => c.spSet val)
  | stackGet : Access S pc Stack (gets AvrCore.stack)
  | stackSet (stack : Stack) : Access S pc Unit (update fun c => { c with stack := stack })
  | memRead {addr : Int} (h : S.cell addr) : Access S pc Byte (memRead addr)
  | memWrite {addr : Int} {val : Byte} (h : S.cell addr) : Access S pc Unit (memWrite addr val)
  | flashReadNext (h : S.operand) : Access S pc Word flashReadNext
  | flashRead (h : S.flash) (addr : Int) : Access S pc Word (avrCoreFlashRead addr)
  | flashWrite (h : S.flash) (addr : Int) (val : Word) :
      Access S pc Unit (avrCoreFlashWrite addr val)
  | spmGet : Access S pc SPMhelper (gets AvrCore.spmhelper)
  | spmDone (pageBuffer : Int → Byte) : Access S pc Unit (spmDone pageBuffer)

/-- The program `x` only accesses the core within the scope `S`. -/
abbrev Uses (S : Scope) (pc : Prop) {α : Type} (x : CoreM δ α) : Prop :=
  Program.Built (Access S pc) α x

/-- The program `x` accesses the core within the scope `S` without setting the program
counter, and at last moves the program counter by `d` words, or aborts. -/
inductive Advances (S : Scope) (d : Int) : CoreM δ OpRet → Prop
  | last (cks : Int) (ret : OpRet) :
      Advances S d (do avrCorePCIncr d; avrCoreInstCKSSet cks; return ret)
  | error (h : S.error) (fmt : String) (args : List Int) : Advances S d (avrError fmt args)
  | bind {α : Type} {x : CoreM δ α} {f : α → CoreM δ OpRet}
      (hx : Uses S False x) (hf : ∀ a, Advances S d (f a)) : Advances S d (x >>= f)
  | ret {x : CoreM δ OpRet} (hx : Advances S d x) (ret : OpRet) :
      Advances S d (do let _ ← x; return ret)

/-- An access that leaves the program counter is one that may set it. -/
theorem Access.weaken
    {S : Scope} {pc : Prop} {α : Type} {x : CoreM δ α} (hx : Access S False α x) :
  Access S pc α x
  := by
  cases hx with
  | error h fmt args => exact .error h fmt args
  | pcGet => exact .pcGet
  | pcSize => exact .pcSize
  | pcSet h val => exact h.elim
  | pcIncr h val => exact h.elim
  | instCKSSet val => exact .instCKSSet val
  | sregGet => exact .sregGet
  | sregSet v => exact .sregSet v
  | sregGetBit b => exact .sregGetBit b
  | sregSetBit b v => exact .sregSetBit b v
  | rampzGet => exact .rampzGet
  | rampzSet v => exact .rampzSet v
  | eindGet => exact .eindGet
  | gpwrGet reg => exact .gpwrGet reg
  | gpwrSet reg val => exact .gpwrSet reg val
  | spGet => exact .spGet
  | spSet val => exact .spSet val
  | stackGet => exact .stackGet
  | stackSet stack => exact .stackSet stack
  | memRead h => exact .memRead h
  | memWrite h => exact .memWrite h
  | flashReadNext h => exact .flashReadNext h
  | flashRead h addr => exact .flashRead h addr
  | flashWrite h addr val => exact .flashWrite h addr val
  | spmGet => exact .spmGet
  | spmDone pageBuffer => exact .spmDone pageBuffer

theorem Advances.uses
    {S : Scope} {d : Int} {x : CoreM δ OpRet} (h : Advances S d x) :
  Uses S True x
  := by
  induction h with
  | last cks ret =>
    exact .bind (.action (.pcIncr trivial _)) fun _ => .bind (.action (.instCKSSet _)) fun _ =>
      .pure _
  | error h fmt args => exact .action (.error h fmt args)
  | bind hx _ ihf => exact .bind (hx.mono fun _ _ h => h.weaken) ihf
  | ret _ _ ih => exact .bind ih fun _ => .pure _

/-! ### The shapes of the handlers -/

section Shapes

variable {S : Scope} {pc : Prop} (name : OpcodeName)

theorem avrErrorIf_uses
    {c : Prop} [Decidable c] (h : c → S.error) (fmt : String) (args : List Int) :
  Uses S pc (avrErrorIf c fmt args : CoreM δ Unit)
  := by
  rw [avrErrorIf]
  split
  · next hc => exact .action (.error (h hc) fmt args)
  · exact .pure _

theorem pointerGet_uses
    (p : Int) :
  Uses S pc (pointerGet p : CoreM δ Word)
  := .bind (.action (.gpwrGet _)) fun _ => .bind (.action (.gpwrGet _)) fun _ => .pure _

theorem pointerSet_uses
    (p : Int) (X : Word) :
  Uses S pc (pointerSet p X : CoreM δ Unit)
  := .bind (.action (.gpwrSet _ _)) fun _ => .action (.gpwrSet _ _)

theorem extendedZ_uses :
  Uses S pc (extendedZ : CoreM δ Nat)
  := .bind (.action .rampzGet) fun _ => .bind (.action (.gpwrGet _)) fun _ =>
    .bind (.action (.gpwrGet _)) fun _ => .pure _

theorem extendedIndirect_uses :
  Uses S pc (extendedIndirect : CoreM δ Int)
  := .bind (.action .eindGet) fun _ => .bind (pointerGet_uses _) fun _ => .pure _

theorem nextInst_advances
    (cks : Int) :
  Advances S 1 (nextInst name cks : CoreM δ OpRet)
  := .last cks _

theorem aluRdRr_advances
    (op : Byte → Byte → Byte → Byte × Byte) (Rd Rr : Int) :
  Advances S 1 (aluRdRr name op Rd Rr : CoreM δ OpRet)
  := .bind (.action (.gpwrGet _)) fun _ => .bind (.action (.gpwrGet _)) fun _ =>
    .bind (.action .sregGet) fun _ => .bind (.action (.sregSet _)) fun _ =>
    .bind (.action (.gpwrSet _ _)) fun _ => .last _ _

theorem aluRdK_advances
    (op : Byte → Byte → Byte → Byte × Byte) (Rd K : Int) :
  Advances S 1 (aluRdK name op Rd K : CoreM δ OpRet)
  := .bind (.action (.gpwrGet _)) fun _ => .bind (.action .sregGet) fun _ =>
    .bind (.action (.sregSet _)) fun _ => .bind (.action (.gpwrSet _ _)) fun _ => .last _ _

theorem aluRd_advances
    (op : Byte → Byte → Byte × Byte) (Rd : Int) :
  Advances S 1 (aluRd name op Rd : CoreM δ OpRet)
  := .bind (.action (.gpwrGet _)) fun _ => .bind (.action .sregGet) fun _ =>
    .bind (.action (.sregSet _)) fun _ => .bind (.action (.gpwrSet _ _)) fun _ => .last _ _

theorem compareRdRr_advances
    (op : Byte → Byte → Byte → Byte) (Rd Rr : Int) :
  Advances S 1 (compareRdRr name op Rd Rr : CoreM δ OpRet)
  := .bind (.action (.gpwrGet _)) fun _ => .bind (.action (.gpwrGet _)) fun _ =>
    .bind (.action .sregGet) fun _ => .bind (.action (.sregSet _)) fun _ => .last _ _

theorem compareRdK_advances
    (op : Byte → Byte → Byte → Byte) (Rd K : Int) :
  Advances S 1 (compareRdK name op Rd K : CoreM δ OpRet)
  := .bind (.action (.gpwrGet _)) fun _ => .bind (.action .sregGet) fun _ =>
    .bind (.action (.sregSet _)) fun _ => .last _ _

theorem aluWord_advances
    (op : Word → Word → Byte → Word × Byte) (Rd K : Int) :
  Advances S 1 (aluWord name op Rd K : CoreM δ OpRet)
  := .bind (.action (.gpwrGet _)) fun _ => .bind (.action (.gpwrGet _)) fun _ =>
    .bind (.action .sregGet) fun _ => .bind (.action (.sregSet _)) fun _ =>
    .bind (.action (.gpwrSet _ _)) fun _ => .bind (.action (.gpwrSet _ _)) fun _ => .last _ _

theorem mulRdRr_advances
    (op : Byte → Byte → Word × Bool) (Rd Rr : Int) :
  Advances S 1 (mulRdRr name op Rd Rr : CoreM δ OpRet)
  := .bind (.action (.gpwrGet _)) fun _ => .bind (.action (.gpwrGet _)) fun _ =>
    .bind (.action .sregGet) fun _ => .bind (.action (.sregSet _)) fun _ =>
    .bind (.action (.gpwrSet _ _)) fun _ => .bind (.action (.gpwrSet _ _)) fun _ => .last _ _

theorem sregSetBit_advances
    (b : Nat) (v : Bool) :
  Advances S 1 (do avrCoreSregSetBit b v; nextInst name 1 : CoreM δ OpRet)
  := .bind (.action (.sregSetBit _ _)) fun _ => .last _ _

theorem avrOpBLD_advances
    (arg1 arg2 : Int) :
  Advances S 1 (avrOpBLD arg1 arg2 : CoreM δ OpRet)
  := .bind (.action (.gpwrGet _)) fun _ => .bind (.action (.sregGetBit _)) fun _ =>
    .bind (.action (.gpwrSet _ _)) fun _ => .last _ _

theorem avrOpBST_advances
    (arg1 arg2 : Int) :
  Advances S 1 (avrOpBST arg1 arg2 : CoreM δ OpRet)
  := .bind (.action (.gpwrGet _)) fun _ => .bind (.action (.sregSetBit _ _)) fun _ => .last _ _

theorem avrOpLDI_advances
    (arg1 arg2 : Int) :
  Advances S 1 (avrOpLDI arg1 arg2 : CoreM δ OpRet)
  := .bind (.action (.gpwrSet _ _)) fun _ => .last _ _

theorem avrOpMOV_advances
    (arg1 arg2 : Int) :
  Advances S 1 (avrOpMOV arg1 arg2 : CoreM δ OpRet)
  := .bind (.action (.gpwrGet _)) fun _ => .bind (.action (.gpwrSet _ _)) fun _ => .last _ _

theorem avrOpMOVW_advances
    (arg1 arg2 : Int) :
  Advances S 1 (avrOpMOVW arg1 arg2 : CoreM δ OpRet)
  := .bind (.action (.gpwrGet _)) fun _ => .bind (.action (.gpwrSet _ _)) fun _ =>
    .bind (.action (.gpwrGet _)) fun _ => .bind (.action (.gpwrSet _ _)) fun _ => .last _ _

theorem avrOpSWAP_advances
    (arg1 : Int) :
  Advances S 1 (avrOpSWAP arg1 : CoreM δ OpRet)
  := .bind (.action (.gpwrGet _)) fun _ => .bind (.action (.gpwrSet _ _)) fun _ => .last _ _

/-! ### Data memory -/

section DataMemory

variable (hcell : ∀ addr, 0 ≤ addr ∧ addr ≤ 0xffff → S.cell addr)
include hcell

/-- The address in a pointer register is in range. -/
theorem cell_word
    (X : Word) :
  S.cell X.toNat
  := by
  apply hcell
  have := X.isLt
  omega

theorem ldIndirect_advances
    (p Rd : Int) :
  Advances S 1 (ldIndirect name p Rd : CoreM δ OpRet)
  := .bind (pointerGet_uses _) fun X => .bind (.action (.memRead (cell_word hcell X))) fun _ =>
    .bind (.action (.gpwrSet _ _)) fun _ => .last _ _

theorem ldDecr_advances
    (p : Int) {Rd : Int} (herror : Rd = p ∨ Rd = p + 1 → S.error) :
  Advances S 1 (ldDecr name p Rd : CoreM δ OpRet)
  := .bind (avrErrorIf_uses herror _ _) fun _ => .bind (pointerGet_uses _) fun X =>
    .bind (pointerSet_uses _ _) fun _ =>
    .bind (.action (.memRead (cell_word hcell (X - 1)))) fun _ =>
    .bind (.action (.gpwrSet _ _)) fun _ => .last _ _

theorem ldIncr_advances
    (p : Int) {Rd : Int} (herror : Rd = p ∨ Rd = p + 1 → S.error) :
  Advances S 1 (ldIncr name p Rd : CoreM δ OpRet)
  := .bind (avrErrorIf_uses herror _ _) fun _ => .bind (pointerGet_uses _) fun X =>
    .bind (.action (.memRead (cell_word hcell X))) fun _ =>
    .bind (.action (.gpwrSet _ _)) fun _ => .bind (pointerSet_uses _ _) fun _ => .last _ _

theorem stIndirect_advances
    (p Rd : Int) :
  Advances S 1 (stIndirect name p Rd : CoreM δ OpRet)
  := .bind (pointerGet_uses _) fun X => .bind (.action (.gpwrGet _)) fun _ =>
    .bind (.action (.memWrite (cell_word hcell X))) fun _ => .last _ _

theorem stDecr_advances
    (p : Int) (opcode : Word) {Rd : Int} (herror : Rd = p ∨ Rd = p + 1 → S.error) :
  Advances S 1 (stDecr name p opcode Rd : CoreM δ OpRet)
  := .bind (avrErrorIf_uses herror _ _) fun _ => .bind (pointerGet_uses _) fun X =>
    .bind (pointerSet_uses _ _) fun _ => .bind (.action (.gpwrGet _)) fun _ =>
    .bind (.action (.memWrite (cell_word hcell (X - 1)))) fun _ => .last _ _

theorem stIncr_advances
    (p : Int) (opcode : Word) {Rd : Int} (herror : Rd = p ∨ Rd = p + 1 → S.error) :
  Advances S 1 (stIncr name p opcode Rd : CoreM δ OpRet)
  := .bind (avrErrorIf_uses herror _ _) fun _ => .bind (pointerGet_uses _) fun X =>
    .bind (.action (.gpwrGet _)) fun _ =>
    .bind (.action (.memWrite (cell_word hcell X))) fun _ =>
    .bind (pointerSet_uses _ _) fun _ => .last _ _

/-- The rest of LDS after its second word is read. -/
theorem ldsRest_advances
    (Rd : Int) (k : Word) :
  Advances S 2 (do
    let val ← memRead k.toNat
    avrCoreGpwrSet Rd val
    avrCorePCIncr 2
    avrCoreInstCKSSet 2
    return .opcode .LDS : CoreM δ OpRet)
  := .bind (.action (.memRead (cell_word hcell k))) fun _ =>
    .bind (.action (.gpwrSet _ _)) fun _ => .last _ _

/-- The rest of STS after its second word is read. -/
theorem stsRest_advances
    (Rd : Int) (k : Word) :
  Advances S 2 (do
    let rd ← avrCoreGpwrGet Rd
    memWrite k.toNat rd
    avrCorePCIncr 2
    avrCoreInstCKSSet 2
    return .opcode .STS : CoreM δ OpRet)
  := .bind (.action (.gpwrGet _)) fun _ =>
    .bind (.action (.memWrite (cell_word hcell k))) fun _ => .last _ _

theorem avrOpLDS_advances
    (hoperand : S.operand) (arg1 : Int) :
  Advances S 2 (avrOpLDS arg1 : CoreM δ OpRet)
  := .bind (.action (.flashReadNext hoperand)) fun k => ldsRest_advances hcell arg1 k

theorem avrOpSTS_advances
    (hoperand : S.operand) (arg1 : Int) :
  Advances S 2 (avrOpSTS arg1 : CoreM δ OpRet)
  := .bind (.action (.flashReadNext hoperand)) fun k => stsRest_advances hcell arg1 k

/-! ### I/O registers -/

/-- The address of an I/O register is in range. -/
theorem cell_io
    {A : Int} (hA : 0 ≤ A ∧ A < 64) :
  S.cell (A + ioRegAddrBegin)
  := by
  apply hcell
  simp only [ioRegAddrBegin]
  omega

theorem avrOpCBI_advances
    {arg1 : Int} (hA : 0 ≤ arg1 ∧ arg1 < 64) (arg2 : Int) :
  Advances S 1 (avrOpCBI arg1 arg2 : CoreM δ OpRet)
  := .bind (.action (.memRead (cell_io hcell hA))) fun _ =>
    .bind (.action (.memWrite (cell_io hcell hA))) fun _ => .last _ _

theorem avrOpSBI_advances
    {arg1 : Int} (hA : 0 ≤ arg1 ∧ arg1 < 64) (arg2 : Int) :
  Advances S 1 (avrOpSBI arg1 arg2 : CoreM δ OpRet)
  := .bind (.action (.memRead (cell_io hcell hA))) fun _ =>
    .bind (.action (.memWrite (cell_io hcell hA))) fun _ => .last _ _

theorem avrOpIN_advances
    (arg1 : Int) {arg2 : Int} (hA : 0 ≤ arg2 ∧ arg2 < 64) :
  Advances S 1 (avrOpIN arg1 arg2 : CoreM δ OpRet)
  := .bind (.action (.memRead (cell_io hcell hA))) fun _ =>
    .bind (.action (.gpwrSet _ _)) fun _ => .last _ _

theorem avrOpOUT_advances
    (arg1 : Int) {arg2 : Int} (hA : 0 ≤ arg2 ∧ arg2 < 64) :
  Advances S 1 (avrOpOUT arg1 arg2 : CoreM δ OpRet)
  := .bind (.action (.gpwrGet _)) fun _ =>
    .bind (.action (.memWrite (cell_io hcell hA))) fun _ => .last _ _

/-! ### The stack -/

theorem memPopLoop_uses
    (n : Nat) (sp : Word) (val : BitVec 32) :
  Uses S pc (memPopLoop n sp val : CoreM δ (BitVec 32 × Word))
  := by
  induction n generalizing sp val with
  | zero => apply Program.Built.pure
  | succ n ih => exact .bind (.action (.memRead (cell_word hcell (sp + 1)))) fun b => ih _ _

theorem memPushLoop_uses
    (n : Nat) (sp : Word) (val : BitVec 32) :
  Uses S pc (memPushLoop n sp val : CoreM δ Word)
  := by
  induction n generalizing sp val with
  | zero => apply Program.Built.pure
  | succ n ih => exact .bind (.action (.memWrite (cell_word hcell sp))) fun _ => ih _ _

theorem avrCoreStackPop_uses
    {bytes : Int} (herror : bytes < 0 ∨ bytes ≥ 4 → S.error) :
  Uses S pc (avrCoreStackPop bytes : CoreM δ (BitVec 32))
  := by
  apply Program.Built.bind (.action .stackGet)
  rintro (⟨depth, stack⟩ | _)
  · exact .bind (.action (.stackSet _)) fun _ => .pure _
  · exact .bind (.action .spGet) fun _ => .bind (avrErrorIf_uses herror _ _) fun _ =>
      .bind (memPopLoop_uses hcell _ _ _) fun _ => .bind (.action (.spSet _)) fun _ => .pure _

theorem avrCoreStackPush_uses
    {bytes : Int} (herror : bytes < 0 ∨ bytes ≥ 4 → S.error) (val : BitVec 32) :
  Uses S pc (avrCoreStackPush bytes val : CoreM δ Unit)
  := by
  apply Program.Built.bind (.action .stackGet)
  rintro (⟨depth, stack⟩ | _)
  · exact .action (.stackSet _)
  · exact .bind (.action .spGet) fun _ => .bind (avrErrorIf_uses herror _ _) fun _ =>
      .bind (memPushLoop_uses hcell _ _ _) fun _ => .action (.spSet _)

theorem avrOpPOP_advances
    (arg1 : Int) :
  Advances S 1 (avrOpPOP arg1 : CoreM δ OpRet)
  := .bind (avrCoreStackPop_uses hcell fun h => absurd h (by decide)) fun _ =>
    .bind (.action (.gpwrSet _ _)) fun _ => .last _ _

theorem avrOpPUSH_advances
    (arg1 : Int) :
  Advances S 1 (avrOpPUSH arg1 : CoreM δ OpRet)
  := .bind (.action (.gpwrGet _)) fun _ =>
    .bind (avrCoreStackPush_uses hcell (fun h => absurd h (by decide)) _) fun _ => .last _ _

end DataMemory

/-! ### Displacements -/

section Displacements

variable (hcell : ∀ addr, S.cell addr)
include hcell

theorem ldDisp_advances
    (p Rd q : Int) :
  Advances S 1 (ldDisp name p Rd q : CoreM δ OpRet)
  := .bind (pointerGet_uses _) fun _ => .bind (.action (.memRead (hcell _))) fun _ =>
    .bind (.action (.gpwrSet _ _)) fun _ => .last _ _

theorem stDisp_advances
    (p Rd q : Int) :
  Advances S 1 (stDisp name p Rd q : CoreM δ OpRet)
  := .bind (pointerGet_uses _) fun _ => .bind (.action (.gpwrGet _)) fun _ =>
    .bind (.action (.memWrite (hcell _))) fun _ => .last _ _

end Displacements

/-! ### Program memory -/

section ProgramMemory

variable (hflash : S.flash)
include hflash

theorem avrOpLPMZ_advances
    (arg1 : Int) :
  Advances S 1 (avrOpLPMZ arg1 : CoreM δ OpRet)
  := .bind (pointerGet_uses _) fun _ => .bind (.action (.flashRead hflash _)) fun _ =>
    .bind (.action (.gpwrSet _ _)) fun _ => .last _ _

theorem avrOpLPMZIncr_advances
    {arg1 : Int} (herror : arg1 = 30 ∨ arg1 = 31 → S.error) :
  Advances S 1 (avrOpLPMZIncr arg1 : CoreM δ OpRet)
  := .bind (avrErrorIf_uses herror _ _) fun _ => .bind (pointerGet_uses _) fun _ =>
    .bind (.action (.flashRead hflash _)) fun _ => .bind (.action (.gpwrSet _ _)) fun _ =>
    .bind (pointerSet_uses _ _) fun _ => .last _ _

theorem avrOpELPMZ_advances
    {arg1 : Int} (herror : arg1 = 30 ∨ arg1 = 31 → S.error) :
  Advances S 1 (avrOpELPMZ arg1 : CoreM δ OpRet)
  := .bind (avrErrorIf_uses herror _ _) fun _ => .bind extendedZ_uses fun _ =>
    .bind (.action (.flashRead hflash _)) fun _ => .bind (.action (.gpwrSet _ _)) fun _ =>
    .last _ _

theorem avrOpELPMZIncr_advances
    {arg1 : Int} (herror : arg1 = 30 ∨ arg1 = 31 → S.error) :
  Advances S 1 (avrOpELPMZIncr arg1 : CoreM δ OpRet)
  := .bind (avrErrorIf_uses herror _ _) fun _ => .bind extendedZ_uses fun _ =>
    .bind (.action (.flashRead hflash _)) fun _ => .bind (.action (.gpwrSet _ _)) fun _ =>
    .bind (.action (.gpwrSet _ _)) fun _ => .bind (.action (.gpwrSet _ _)) fun _ =>
    .bind (.action (.rampzSet _)) fun _ => .last _ _

theorem spmErase_uses
    (addr : Int) (n : Nat) :
  Uses S pc (spmErase addr n : CoreM δ Unit)
  := by
  induction n generalizing addr with
  | zero => apply Program.Built.pure
  | succ n ih => exact .bind (.action (.flashWrite hflash _ _)) fun _ => ih _

theorem spmWritePage_uses
    (Z i : Int) (n : Nat) :
  Uses S pc (spmWritePage Z i n : CoreM δ Unit)
  := by
  induction n generalizing i with
  | zero => apply Program.Built.pure
  | succ n ih =>
    exact .bind (.action (.flashRead hflash _)) fun _ => .bind (.action .spmGet) fun _ =>
      .bind (.action (.flashWrite hflash _ _)) fun _ => ih _

/-- The rest of `spm_run` after the state of the helper is read. -/
theorem spmRest_uses
    {spmhelper : SPMhelper}
    (herror : spmhelper.spmcsr ∉ ([0x11, 0x01, 0x03, 0x05] : List Byte) → S.error)
    (reg0 reg1 : Byte) (Z : Nat) :
  Uses S pc (
    if spmhelper.spmcsr = 0x11 then
      spmDone (fun i => if 0 ≤ i ∧ i < 256 then 0xff else spmhelper.pageBuffer i)
    else if spmhelper.spmcsr = 0x01 then
      spmDone (Function.update (Function.update spmhelper.pageBuffer (Z &&& 0xfe : Nat) reg0)
        ((Z &&& 0xfe : Nat) + 1) reg1)
    else if spmhelper.spmcsr = 0x03 then do
      spmErase ((Z >>> 1) &&& 0xff80 : Nat) 128
      spmDone spmhelper.pageBuffer
    else if spmhelper.spmcsr = 0x05 then do
      spmWritePage ((Z >>> 1) &&& 0xff80 : Nat) 0 128
      spmDone spmhelper.pageBuffer
    else
      avrError "SPM unknown operation %02x\n" [spmhelper.spmcsr.toNat] : CoreM δ Unit)
  := by
  split_ifs with hclear hfill herase hwrite
  · exact .action (.spmDone _)
  · exact .action (.spmDone _)
  · exact .bind (spmErase_uses hflash _ _) fun _ => .action (.spmDone _)
  · exact .bind (spmWritePage_uses hflash _ _ _) fun _ => .action (.spmDone _)
  · refine .action (.error (herror ?_) _ _)
    simp only [List.mem_cons, List.not_mem_nil, or_false, not_or]
    exact ⟨hclear, hfill, herase, hwrite⟩

theorem spmRun_uses
    (herror : S.error) (reg0 reg1 : Byte) (Z : Nat) :
  Uses S pc (spmRun reg0 reg1 Z : CoreM δ Unit)
  := .bind (.action .spmGet) fun _ => spmRest_uses hflash (fun _ => herror) reg0 reg1 Z

theorem avrOpSPM_advances
    (herror : S.error) :
  Advances S 1 (avrOpSPM : CoreM δ OpRet)
  := .bind extendedZ_uses fun _ => .bind (.action (.gpwrGet _)) fun _ =>
    .bind (.action (.gpwrGet _)) fun _ => .bind (spmRun_uses hflash herror _ _ _) fun _ =>
    .last _ _

end ProgramMemory

/-! ### Control flow -/

theorem branchIf_uses
    (val : Bool) (bit k : Int) :
  Uses S True (branchIf name val bit k : CoreM δ OpRet)
  := .bind (.action (.sregGetBit _)) fun _ =>
    .ite ((Advances.last _ _).uses) ((nextInst_advances name _).uses)

theorem skipIf_uses
    (cond : Bool) (skip : Int) :
  Uses S True (skipIf name cond skip : CoreM δ OpRet)
  := .ite ((Advances.last _ _).uses) ((nextInst_advances name _).uses)

theorem jump_uses
    (t cks : Int) :
  Uses S True (do avrCorePCSet t; avrCoreInstCKSSet cks; return .opcode name : CoreM δ OpRet)
  := .bind (.action (.pcSet trivial _)) fun _ => .bind (.action (.instCKSSet _)) fun _ => .pure _

theorem avrOpIJMP_uses :
  Uses S True (avrOpIJMP : CoreM δ OpRet)
  := .bind (pointerGet_uses _) fun _ => jump_uses _ _ _

theorem avrOpEIJMP_uses :
  Uses S True (avrOpEIJMP : CoreM δ OpRet)
  := .bind extendedIndirect_uses fun _ => jump_uses _ _ _

theorem avrOpRJMP_uses
    (arg1 : Int) :
  Uses S True (avrOpRJMP arg1 : CoreM δ OpRet)
  := (Advances.last _ _).uses

section Operand

variable (hoperand : S.operand)
include hoperand

theorem isNextInst2Words_uses :
  Uses S True (isNextInst2Words : CoreM δ Bool)
  := .bind (.action (.flashReadNext hoperand)) fun _ => .pure _

theorem addressOperand_uses
    (kh : Int) :
  Uses S True (addressOperand kh : CoreM δ Int)
  := .bind (.action (.flashReadNext hoperand)) fun _ => .pure _

theorem avrOpCPSE_uses
    (arg1 arg2 : Int) :
  Uses S True (avrOpCPSE arg1 arg2 : CoreM δ OpRet)
  := .bind (.action (.gpwrGet _)) fun _ => .bind (.action (.gpwrGet _)) fun _ =>
    .bind (isNextInst2Words_uses hoperand) fun _ => skipIf_uses _ _ _

theorem skipIfRegBit_uses
    (val : Bool) (Rd b : Int) :
  Uses S True (skipIfRegBit name val Rd b : CoreM δ OpRet)
  := .bind (isNextInst2Words_uses hoperand) fun _ => .bind (.action (.gpwrGet _)) fun _ =>
    skipIf_uses _ _ _

theorem avrOpJMP_uses
    (arg1 : Int) :
  Uses S True (avrOpJMP arg1 : CoreM δ OpRet)
  := .bind (addressOperand_uses hoperand _) fun _ => jump_uses _ _ _

end Operand

section Stack

variable (hcell : ∀ addr, 0 ≤ addr ∧ addr ≤ 0xffff → S.cell addr)
include hcell

theorem skipIfIoBit_uses
    (hoperand : S.operand) (val : Bool) {A : Int} (hA : 0 ≤ A ∧ A < 64) (b : Int) :
  Uses S True (skipIfIoBit name val A b : CoreM δ OpRet)
  := .bind (isNextInst2Words_uses hoperand) fun _ =>
    .bind (.action (.memRead (cell_io hcell hA))) fun _ => skipIf_uses _ _ _

/-- The rest of CALL after its second word is read. -/
theorem callRest_uses
    {pcBytes k : Int} (hk : pcBytes = 2 ∧ k > 0xffff → S.error)
    (hbytes : pcBytes < 0 ∨ pcBytes ≥ 4 → S.error) (pc : Int) :
  Uses S True (do
    avrErrorIf (pcBytes = 2 ∧ k > 0xffff) "Address out of allowed range: 0x%06x" [k]
    avrCoreStackPush pcBytes (.ofInt 32 (pc + 2))
    avrCorePCSet k
    avrCoreInstCKSSet (pcBytes + 2)
    return .opcode .CALL : CoreM δ OpRet)
  := .bind (avrErrorIf_uses hk _ _) fun _ => .bind (avrCoreStackPush_uses hcell hbytes _) fun _ =>
    jump_uses _ _ _

/-- The rest of RCALL after the size of the program counter is read. -/
theorem rcallRest_uses
    {pcBytes : Int} (hbytes : pcBytes < 0 ∨ pcBytes ≥ 4 → S.error) (pc k : Int) :
  Uses S True (do
    avrCoreStackPush pcBytes (.ofInt 32 (pc + 1))
    avrCorePCIncr (k + 1)
    avrCoreInstCKSSet (pcBytes + 1)
    return .opcode .RCALL : CoreM δ OpRet)
  := .bind (avrCoreStackPush_uses hcell hbytes _) fun _ => (Advances.last _ _).uses

/-- The rest of ICALL after the size of the program counter is read. -/
theorem icallRest_uses
    {pcBytes : Int} (hbytes : pcBytes < 0 ∨ pcBytes ≥ 4 → S.error) (pc : Int) :
  Uses S True (do
    let newPc ← pointerGet 30
    avrCoreStackPush pcBytes (.ofInt 32 (pc + 1))
    avrCorePCSet newPc.toNat
    avrCoreInstCKSSet (pcBytes + 1)
    return .opcode .ICALL : CoreM δ OpRet)
  := .bind (pointerGet_uses _) fun _ => .bind (avrCoreStackPush_uses hcell hbytes _) fun _ =>
    jump_uses _ _ _

theorem avrOpEICALL_uses :
  Uses S True (avrOpEICALL : CoreM δ OpRet)
  := .bind (.action .pcGet) fun _ => .bind extendedIndirect_uses fun _ =>
    .bind (avrCoreStackPush_uses hcell (fun h => absurd h (by decide)) _) fun _ => jump_uses _ _ _

/-- The rest of RET after the size of the program counter is read. -/
theorem retRest_uses
    {pcBytes : Int} (hbytes : pcBytes < 0 ∨ pcBytes ≥ 4 → S.error) :
  Uses S True (do
    let pc ← avrCoreStackPop pcBytes
    avrCorePCSet pc.toInt
    avrCoreInstCKSSet (pcBytes + 2)
    return .opcode .RET : CoreM δ OpRet)
  := .bind (avrCoreStackPop_uses hcell hbytes) fun _ => jump_uses _ _ _

/-- The rest of RETI after the size of the program counter is read. -/
theorem retiRest_uses
    {pcBytes : Int} (hbytes : pcBytes < 0 ∨ pcBytes ≥ 4 → S.error) :
  Uses S True (do
    let pc ← avrCoreStackPop pcBytes
    avrCorePCSet pc.toInt
    avrCoreInstCKSSet (pcBytes + 2)
    avrCoreSregSetBit SREG.I true
    return .opcode .RETI : CoreM δ OpRet)
  := .bind (avrCoreStackPop_uses hcell hbytes) fun _ =>
    .bind (.action (.pcSet trivial _)) fun _ => .bind (.action (.instCKSSet _)) fun _ =>
    .bind (.action (.sregSetBit _ _)) fun _ => .pure _

section AnySize

variable (herror : S.error)
include herror

theorem avrOpCALL_uses
    (hoperand : S.operand) (arg1 : Int) :
  Uses S True (avrOpCALL arg1 : CoreM δ OpRet)
  := .bind (.action .pcGet) fun pc => .bind (.action .pcSize) fun _ =>
    .bind (addressOperand_uses hoperand _) fun _ =>
    callRest_uses hcell (fun _ => herror) (fun _ => herror) pc

theorem avrOpRCALL_uses
    (arg1 : Int) :
  Uses S True (avrOpRCALL arg1 : CoreM δ OpRet)
  := .bind (.action .pcGet) fun pc => .bind (.action .pcSize) fun _ =>
    rcallRest_uses hcell (fun _ => herror) pc arg1

theorem avrOpICALL_uses :
  Uses S True (avrOpICALL : CoreM δ OpRet)
  := .bind (.action .pcGet) fun pc => .bind (.action .pcSize) fun _ =>
    icallRest_uses hcell (fun _ => herror) pc

theorem avrOpRET_uses :
  Uses S True (avrOpRET : CoreM δ OpRet)
  := .bind (.action .pcSize) fun _ => retRest_uses hcell fun _ => herror

theorem avrOpRETI_uses :
  Uses S True (avrOpRETI : CoreM δ OpRet)
  := .bind (.action .pcSize) fun _ => retiRest_uses hcell fun _ => herror

end AnySize

end Stack

end Shapes

/-! ### The scopes of the opcodes -/

/-- The opcodes of the loads and stores with displacement. -/
def dispOpcodes : List OpcodeName :=
  [.LDD_Y, .LDD_Z, .STD_Y, .STD_Z]

/-- The opcodes of the instructions that skip the next one. -/
def skipOpcodes : List OpcodeName :=
  [.CPSE, .SBRC, .SBRS, .SBIC, .SBIS]

/-- The opcodes of the instructions of two words. -/
def twoWordOpcodes : List OpcodeName :=
  [.CALL, .JMP, .LDS, .STS]

/-- The opcodes of the instructions that read or write flash data. -/
def flashOpcodes : List OpcodeName :=
  [.LPM, .LPM_Z, .LPM_Z_incr, .ELPM, .ELPM_Z, .ELPM_Z_incr, .SPM]

/-- The opcodes of the loads, the stores, the I/O instructions and those of the stack. -/
def dataOpcodes : List OpcodeName :=
  dispOpcodes ++ [.LDS, .STS, .LD_X, .LD_X_decr, .LD_X_incr, .LD_Y_decr, .LD_Y_incr, .LD_Z_decr,
    .LD_Z_incr, .ST_X, .ST_X_decr, .ST_X_incr, .ST_Y_decr, .ST_Y_incr, .ST_Z_decr, .ST_Z_incr,
    .CBI, .SBI, .IN, .OUT, .SBIC, .SBIS, .POP, .PUSH, .CALL, .RCALL, .ICALL, .EICALL, .RET, .RETI]

/-- The opcodes of the loads and stores that move the pointer register at `p`. -/
def pointerOpcodes (p : Int) : List OpcodeName :=
  if p = 26 then [.LD_X_decr, .LD_X_incr, .ST_X_decr, .ST_X_incr]
  else if p = 28 then [.LD_Y_decr, .LD_Y_incr, .ST_Y_decr, .ST_Y_incr]
  else if p = 30 then
    [.LD_Z_decr, .LD_Z_incr, .ST_Z_decr, .ST_Z_incr, .LPM_Z_incr, .ELPM_Z, .ELPM_Z_incr]
  else []

/-- The register `arg1` of the instruction is a half of the pointer register that it moves. -/
def OpcodeName.Overlaps (func : OpcodeName) (arg1 : Int) : Prop :=
  ∃ p, func ∈ pointerOpcodes p ∧ (arg1 = p ∨ arg1 = p + 1)

/-- The opcodes whose handlers call `avr_error` for other reasons than an overlap. -/
def errorOpcodes : List OpcodeName :=
  [.ESPM, .SLEEP, .WDR, .SPM, .CALL, .RCALL, .ICALL, .RET, .RETI]

/-- The opcodes whose handlers do more to the program counter than move it over the
instruction. -/
def controlOpcodes : List OpcodeName :=
  skipOpcodes ++ [.BRBC, .BRBS, .CALL, .RCALL, .ICALL, .EICALL, .JMP, .RJMP, .IJMP, .EIJMP,
    .RET, .RETI, .BREAK]

/-- The scope of an opcode. -/
def OpcodeName.scope (func : OpcodeName) : Scope where
  cell addr := (0 ≤ addr ∧ addr ≤ 0xffff) ∨ func ∈ dispOpcodes
  operand := func ∈ skipOpcodes ++ twoWordOpcodes
  flash := func ∈ flashOpcodes
  error := True

/-- A scope that an instruction with the register `arg1` stays within. -/
structure OpcodeName.Within (func : OpcodeName) (arg1 : Int) (S : Scope) : Prop where
  cell (h : func ∈ dataOpcodes) : ∀ addr, 0 ≤ addr ∧ addr ≤ 0xffff → S.cell addr
  disp (h : func ∈ dispOpcodes) : ∀ addr, S.cell addr
  operand (h : func ∈ skipOpcodes ++ twoWordOpcodes) : S.operand
  flash (h : func ∈ flashOpcodes) : S.flash
  error (h : func ∈ errorOpcodes ∨ func.Overlaps arg1) : S.error

theorem within_scope
    (func : OpcodeName) (arg1 : Int) :
  func.Within arg1 func.scope
  where
  cell _ _ h := .inl h
  disp h _ := .inr h
  operand h := h
  flash h := h
  error _ := trivial

/-- The number of words of an instruction. -/
def OpcodeName.words (func : OpcodeName) : Int :=
  if func ∈ twoWordOpcodes then 2 else 1

/-- The register operand of an I/O instruction is in range. -/
theorem io_admits
    {func : OpcodeName} {arg1 arg2 : Int} (hargs : func.form.Admits arg1 arg2) :
  (func ∈ [.CBI, .SBI, .SBIC, .SBIS] → 0 ≤ arg1 ∧ arg1 < 64) ∧
    (func ∈ [.IN, .OUT] → 0 ≤ arg2 ∧ arg2 < 64)
  := by
  have hbit : ∀ func ∈ [OpcodeName.CBI, .SBI, .SBIC, .SBIS], func.form = .a5bit := by
    decide +kernel
  have hreg : ∀ func ∈ [OpcodeName.IN, .OUT], func.form = .rd5a6 := by
    decide +kernel
  constructor
  · intro hfunc
    rw [hbit _ hfunc] at hargs
    obtain ⟨hA, -⟩ := hargs
    omega
  · intro hfunc
    rw [hreg _ hfunc] at hargs
    apply hargs.2

/-- The instructions that do not control the flow move the program counter over
themselves. -/
theorem handler_advances_within
    {S : Scope} {func : OpcodeName} {arg1 arg2 : Int} (hargs : func.form.Admits arg1 arg2)
    (hS : func.Within arg1 S) (hfunc : func ∉ controlOpcodes) (opcode : Word) :
  Advances S func.words (func.handler opcode arg1 arg2 : CoreM δ OpRet)
  := by
  have hio := io_admits hargs
  obtain ⟨hcell, hdisp, hoperand, hflash, herror⟩ := hS
  have hoverlap (p : Int) (hp : func ∈ pointerOpcodes p) (h : arg1 = p ∨ arg1 = p + 1) : S.error :=
    herror (.inr ⟨p, hp, h⟩)
  cases func with
  | ELPM =>
    have hform : OpcodeName.ELPM.form = .none := by decide +kernel
    rw [hform] at hargs
    obtain ⟨rfl, -⟩ := hargs
    exact (avrOpELPMZ_advances (hflash (by decide)) fun h => absurd h (by decide)).ret _
  | ESPM => exact .error (herror (.inl (by decide))) _ _
  | LPM => exact avrOpLPMZ_advances (hflash (by decide)) _
  | NOP => exact nextInst_advances _ _
  | SLEEP =>
    exact .bind (.action (.error (herror (.inl (by decide))) _ _)) fun mcucr => nomatch mcucr
  | SPM => exact avrOpSPM_advances (hflash (by decide)) (herror (.inl (by decide)))
  | WDR =>
    exact .bind (.action (.error (herror (.inl (by decide))) _ _)) fun wdtcr => nomatch wdtcr
  | ASR => exact aluRd_advances _ _ _
  | COM => exact aluRd_advances _ _ _
  | DEC => exact aluRd_advances _ _ _
  | ELPM_Z => exact avrOpELPMZ_advances (hflash (by decide)) (hoverlap 30 (by decide))
  | ELPM_Z_incr => exact avrOpELPMZIncr_advances (hflash (by decide)) (hoverlap 30 (by decide))
  | INC => exact aluRd_advances _ _ _
  | LDS => exact avrOpLDS_advances (hcell (by decide)) (hoperand (by decide)) _
  | LD_X => exact ldIndirect_advances _ (hcell (by decide)) _ _
  | LD_X_decr => exact ldDecr_advances _ (hcell (by decide)) _ (hoverlap 26 (by decide))
  | LD_X_incr => exact ldIncr_advances _ (hcell (by decide)) _ (hoverlap 26 (by decide))
  | LD_Y_decr => exact ldDecr_advances _ (hcell (by decide)) _ (hoverlap 28 (by decide))
  | LD_Y_incr => exact ldIncr_advances _ (hcell (by decide)) _ (hoverlap 28 (by decide))
  | LD_Z_decr => exact ldDecr_advances _ (hcell (by decide)) _ (hoverlap 30 (by decide))
  | LD_Z_incr => exact ldIncr_advances _ (hcell (by decide)) _ (hoverlap 30 (by decide))
  | LPM_Z => exact avrOpLPMZ_advances (hflash (by decide)) _
  | LPM_Z_incr => exact avrOpLPMZIncr_advances (hflash (by decide)) (hoverlap 30 (by decide))
  | LSR => exact aluRd_advances _ _ _
  | NEG => exact aluRd_advances _ _ _
  | POP => exact avrOpPOP_advances (hcell (by decide)) _
  | PUSH => exact avrOpPUSH_advances (hcell (by decide)) _
  | ROR => exact aluRd_advances _ _ _
  | STS => exact avrOpSTS_advances (hcell (by decide)) (hoperand (by decide)) _
  | ST_X => exact stIndirect_advances _ (hcell (by decide)) _ _
  | ST_X_decr => exact stDecr_advances _ (hcell (by decide)) _ _ (hoverlap 26 (by decide))
  | ST_X_incr => exact stIncr_advances _ (hcell (by decide)) _ _ (hoverlap 26 (by decide))
  | ST_Y_decr => exact stDecr_advances _ (hcell (by decide)) _ _ (hoverlap 28 (by decide))
  | ST_Y_incr => exact stIncr_advances _ (hcell (by decide)) _ _ (hoverlap 28 (by decide))
  | ST_Z_decr => exact stDecr_advances _ (hcell (by decide)) _ _ (hoverlap 30 (by decide))
  | ST_Z_incr => exact stIncr_advances _ (hcell (by decide)) _ _ (hoverlap 30 (by decide))
  | SWAP => exact avrOpSWAP_advances _
  | ADC => exact aluRdRr_advances _ _ _ _
  | ADD => exact aluRdRr_advances _ _ _ _
  | AND => exact aluRdRr_advances _ _ _ _
  | CP => exact compareRdRr_advances _ _ _ _
  | CPC => exact compareRdRr_advances _ _ _ _
  | EOR => exact aluRdRr_advances _ _ _ _
  | MOV => exact avrOpMOV_advances _ _
  | MUL => exact mulRdRr_advances _ _ _ _
  | OR => exact aluRdRr_advances _ _ _ _
  | SBC => exact aluRdRr_advances _ _ _ _
  | SUB => exact aluRdRr_advances _ _ _ _
  | MOVW => exact avrOpMOVW_advances _ _
  | MULS => exact mulRdRr_advances _ _ _ _
  | MULSU => exact mulRdRr_advances _ _ _ _
  | FMUL => exact mulRdRr_advances _ _ _ _
  | FMULS => exact mulRdRr_advances _ _ _ _
  | FMULSU => exact mulRdRr_advances _ _ _ _
  | ANDI => exact aluRdK_advances _ _ _ _
  | CPI => exact compareRdK_advances _ _ _ _
  | LDI => exact avrOpLDI_advances _ _
  | ORI => exact aluRdK_advances _ _ _ _
  | SBCI => exact aluRdK_advances _ _ _ _
  | SUBI => exact aluRdK_advances _ _ _ _
  | BLD => exact avrOpBLD_advances _ _
  | BST => exact avrOpBST_advances _ _
  | LDD_Y => exact ldDisp_advances _ (hdisp (by decide)) _ _ _
  | LDD_Z => exact ldDisp_advances _ (hdisp (by decide)) _ _ _
  | STD_Y => exact stDisp_advances _ (hdisp (by decide)) _ _ _
  | STD_Z => exact stDisp_advances _ (hdisp (by decide)) _ _ _
  | BCLR => exact sregSetBit_advances _ _ _
  | BSET => exact sregSetBit_advances _ _ _
  | ADIW => exact aluWord_advances _ _ _ _
  | SBIW => exact aluWord_advances _ _ _ _
  | CBI => exact avrOpCBI_advances (hcell (by decide)) (hio.1 (by decide)) _
  | SBI => exact avrOpSBI_advances (hcell (by decide)) (hio.1 (by decide)) _
  | IN => exact avrOpIN_advances (hcell (by decide)) _ (hio.2 (by decide))
  | OUT => exact avrOpOUT_advances (hcell (by decide)) _ (hio.2 (by decide))
  | UNKNOWN => exact (nextInst_advances _ _).ret _
  | _ => exact absurd (by decide) hfunc

theorem handler_advances
    {func : OpcodeName} {arg1 arg2 : Int} (hargs : func.form.Admits arg1 arg2)
    (hfunc : func ∉ controlOpcodes) (opcode : Word) :
  Advances func.scope func.words (func.handler opcode arg1 arg2 : CoreM δ OpRet)
  := handler_advances_within hargs (within_scope func arg1) hfunc opcode

/-- The handler of every opcode stays within its scopes. -/
theorem handler_uses_within
    {S : Scope} {func : OpcodeName} {arg1 arg2 : Int} (hargs : func.form.Admits arg1 arg2)
    (hS : func.Within arg1 S) (opcode : Word) :
  Uses S True (func.handler opcode arg1 arg2 : CoreM δ OpRet)
  := by
  by_cases hfunc : func ∈ controlOpcodes
  · have hio := io_admits hargs
    obtain ⟨hcell, -, hoperand, -, herror⟩ := hS
    cases func with
    | CPSE => exact avrOpCPSE_uses (hoperand (by decide)) _ _
    | SBRC => exact skipIfRegBit_uses _ (hoperand (by decide)) _ _ _
    | SBRS => exact skipIfRegBit_uses _ (hoperand (by decide)) _ _ _
    | SBIC => exact skipIfIoBit_uses _ (hcell (by decide)) (hoperand (by decide)) _ (hio.1 (by decide)) _
    | SBIS => exact skipIfIoBit_uses _ (hcell (by decide)) (hoperand (by decide)) _ (hio.1 (by decide)) _
    | BRBC => exact branchIf_uses _ _ _ _
    | BRBS => exact branchIf_uses _ _ _ _
    | CALL => exact avrOpCALL_uses (hcell (by decide)) (herror (.inl (by decide))) (hoperand (by decide)) _
    | RCALL => exact avrOpRCALL_uses (hcell (by decide)) (herror (.inl (by decide))) _
    | ICALL => exact avrOpICALL_uses (hcell (by decide)) (herror (.inl (by decide)))
    | EICALL => exact avrOpEICALL_uses (hcell (by decide))
    | JMP => exact avrOpJMP_uses (hoperand (by decide)) _
    | RJMP => exact avrOpRJMP_uses _
    | IJMP => exact avrOpIJMP_uses
    | EIJMP => exact avrOpEIJMP_uses
    | RET => exact avrOpRET_uses (hcell (by decide)) (herror (.inl (by decide)))
    | RETI => exact avrOpRETI_uses (hcell (by decide)) (herror (.inl (by decide)))
    | BREAK => exact .pure _
    | _ => exact absurd hfunc (by decide)
  · apply (handler_advances_within hargs hS hfunc opcode).uses

/-- The handler of every opcode only accesses the core within the scope of the opcode. -/
theorem handler_uses
    {func : OpcodeName} {arg1 arg2 : Int} (hargs : func.form.Admits arg1 arg2)
    (opcode : Word) :
  Uses func.scope True (func.handler opcode arg1 arg2 : CoreM δ OpRet)
  := handler_uses_within hargs (within_scope func arg1) opcode

end

end SimulAvr
