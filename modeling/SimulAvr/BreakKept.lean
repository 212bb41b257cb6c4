import SimulAvr.FlashUpdates
import SimulAvr.GdbSession
import SimulAvr.Twins

/-!
# The flash under gdb packets

Which programs of the core leave the flash, and what keeps the BREAK at a word: the handlers of
all packets, but for those that remove the breakpoint at the word or write to it
(`gdbParsePacket_keepsBreak`).
-/

namespace SimulAvr

open Program

section

variable {δ : Type} {pc : Int}

/-- There is a BREAK at the word `pc`. -/
structure AvrCore.BreakAt (pc : Int) (c : AvrCore δ) : Prop where
  valid : c.flash.Valid pc
  word : c.flash.word pc = breakOpcode

/-- The BREAK at `pc` stays when the program returns. -/
abbrev KeepsBreak {α : Type} (pc : Int) (x : CoreM δ α) : Prop :=
  Keeps (AvrCore.BreakAt pc) (fun _ => True) x

/-- The program leaves the flash. -/
def LeavesFlash {α : Type} (x : CoreM δ α) : Prop :=
  ∀ f b, Respects (Twins f f b b) x

theorem LeavesFlash.keepsBreak
    {α : Type} {x : CoreM δ α} (hx : LeavesFlash x) (pc : Int) :
  KeepsBreak pc x
  := by
  intro c hc
  have h := hx c.flash c.breakpoints c c ⟨rfl, rfl, rfl, rfl, rfl⟩
  cases hrun : x.run c with
  | error e => trivial
  | ok r =>
    rw [hrun] at h
    constructor
    · rw [h.2.flash]
      apply hc.valid
    · rw [h.2.flash]
      apply hc.word

/-- The BREAK depends on the extent of the flash and the word. -/
theorem AvrCore.BreakAt.congr
    {c c' : AvrCore δ} (hc : c.BreakAt pc) (hbase : c'.flash.base = c.flash.base)
    (hsize : c'.flash.size = c.flash.size) (hword : c'.flash.word pc = c.flash.word pc) :
  c'.BreakAt pc
  := by
  constructor
  · rw [Flash.Valid, hbase, hsize]
    apply hc.valid
  · rw [hword, hc.word]

/-- A write that leaves the BREAK is to another word, or of BREAK. -/
theorem flashWrite_keepsBreak
    {addr : Int} {val : Word} (haddr : addr = pc → val = breakOpcode) :
  KeepsBreak pc (avrCoreFlashWrite addr val : CoreM δ Unit)
  := by
  intro c hc
  by_cases hvalid : c.flash.Valid addr
  · rw [run_avrCoreFlashWrite_of_valid hvalid]
    change (c.writeWord addr val).BreakAt pc
    apply AvrCore.BreakAt.congr hc
    · rfl
    · rfl
    · rw [AvrCore.writeWord_flash]
      by_cases h : pc = addr
      · rw [← h, Flash.word_setWord_same, haddr h.symm, hc.word]
      · rw [Flash.word_setWord_of_ne h]
  · rw [run_avrCoreFlashWrite, Flash.storageWritew_of_not_valid hvalid]
    trivial

/-- A write of a byte to another word. -/
theorem AvrCore.BreakAt.setByte
    {c : AvrCore δ} (hc : c.BreakAt pc) {addr : Int} (haddr : pc ≠ addr / 2) (val : Byte) :
  { c with flash := c.flash.setByte addr val }.BreakAt pc
  := by
  apply AvrCore.BreakAt.congr hc
  · rfl
  · rfl
  · rw [Flash.word_setByte, Function.update_of_ne haddr]

theorem flashWriteLo8_keepsBreak
    {addr : Int} (haddr : addr ≠ pc) (val : Byte) :
  KeepsBreak pc (avrCoreFlashWriteLo8 addr val : CoreM δ Unit)
  := by
  intro c hc
  rw [avrCoreFlashWriteLo8, run_bind_of_ok (run_gets _ c)]
  by_cases hin : 0 ≤ addr * 2 + 1 - c.flash.base ∧ addr * 2 + 1 - c.flash.base < c.flash.size
  · rw [run_bind_of_ok (run_liftExcept_ok (Flash.storageWriteb_low hin val) c)]
    apply hc.setByte
    omega
  · have hout : storageWriteb c.flash (addr * 2 + 1) val
        = .error (.message "address out of bounds: 0x%x" [addr * 2 + 1]) := by
      apply if_pos
      omega
    rw [run_bind_of_error (run_liftExcept_error hout c)]
    trivial

theorem flashWriteHi8_keepsBreak
    {addr : Int} (haddr : addr ≠ pc) (val : Byte) :
  KeepsBreak pc (avrCoreFlashWriteHi8 addr val : CoreM δ Unit)
  := by
  intro c hc
  rw [avrCoreFlashWriteHi8, run_bind_of_ok (run_gets _ c)]
  by_cases hin : c.flash.Valid addr
  · rw [run_bind_of_ok (run_liftExcept_ok (Flash.storageWriteb_high hin val) c)]
    apply hc.setByte
    omega
  · have hout : storageWriteb c.flash (addr * 2) val
        = .error (.message "address out of bounds: 0x%x" [addr * 2]) := by
      rw [Flash.Valid] at hin
      apply if_pos
      omega
    rw [run_bind_of_error (run_liftExcept_error hout c)]
    trivial

/-- The writers of flash keep the BREAK where they write no other word than those that are
free. -/
theorem break_flashRelation
    (pc : Int) :
  FlashRelation (fun c d : AvrCore δ => c = d ∧ c.BreakAt pc) (fun addr => addr ≠ pc)
  := by
  constructor
  · intro addr _
    rw [Respects.diagonal_iff]
    intro c hc
    rw [run_avrCoreFlashRead]
    cases flashRead c.flash addr with
    | error e => trivial
    | ok word => apply hc
  · intro addr val haddr
    rw [Respects.diagonal_iff]
    apply flashWrite_keepsBreak
    intro h
    contradiction
  · intro addr val haddr
    rw [Respects.diagonal_iff]
    apply flashWriteLo8_keepsBreak haddr
  · intro addr val haddr
    rw [Respects.diagonal_iff]
    apply flashWriteHi8_keepsBreak haddr
  · rintro c d ⟨rfl, -⟩
    rfl
  · intro pageBuffer spmcsr
    rw [Respects.diagonal_iff]
    intro c hc
    exact ⟨hc.valid, hc.word⟩

/-! ### Breakpoints -/

/-- Inserting a breakpoint keeps the BREAK everywhere. -/
theorem insert_keepsBreak
    (addr : Int) :
  KeepsBreak pc (avrCoreInsertBreakpoint addr : CoreM δ Unit)
  := by
  have hread : LeavesFlash (avrCoreFlashRead addr : CoreM δ Word) := by
    intro f b
    apply Twins.flashRead rfl
  apply Triple.bind (hread.keepsBreak pc)
  intro insn
  apply Triple.bind (Q := fun _ => AvrCore.BreakAt pc)
  · intro c hc
    exact ⟨hc.valid, hc.word⟩
  · intro _
    apply flashWrite_keepsBreak
    intro _
    rfl

/-- Inserting a breakpoint leaves a BREAK. -/
theorem insert_breakAt
    {c c' : AvrCore δ} (hrun : (avrCoreInsertBreakpoint pc).run c = .ok ((), c')) :
  c'.BreakAt pc
  := by
  by_cases hvalid : c.flash.Valid pc
  · rw [run_avrCoreInsertBreakpoint hvalid] at hrun
    cases hrun
    constructor
    · apply hvalid
    · rw [AvrCore.writeWord_flash, Flash.word_setWord_same]
  · have hread : (avrCoreFlashRead pc).run c
        = .error (.message "address out of bounds: 0x%x" [pc * 2]) := by
      rw [run_avrCoreFlashRead, Flash.flashRead_of_not_valid hvalid]
      rfl
    rw [avrCoreInsertBreakpoint, run_bind_of_error hread] at hrun
    contradiction

/-- Removing a breakpoint elsewhere keeps the BREAK. -/
theorem remove_keepsBreak
    {addr : Int} (haddr : addr ≠ pc) :
  KeepsBreak pc (avrCoreRemoveBreakpoint addr : CoreM δ Unit)
  := by
  apply Triple.bind (Q := fun _ => AvrCore.BreakAt pc)
  · intro c hc
    apply hc
  · intro breakpoints
    split
    · apply Triple.pure
      intro c hc
      apply hc
    · apply Triple.bind (Q := fun _ => AvrCore.BreakAt pc)
      · intro c hc
        exact ⟨hc.valid, hc.word⟩
      · intro _
        apply flashWrite_keepsBreak
        intro h
        contradiction

end

/-! ### Programs that leave the flash -/

namespace LeavesFlash

section

variable {δ α β : Type}

theorem pure
    (a : α) :
  LeavesFlash (pure a : CoreM δ α)
  := fun _ _ => Respects.pure a

theorem throw
    (e : AvrError) :
  LeavesFlash (throw e : CoreM δ α)
  := fun _ _ => Respects.throw e

theorem bind
    {x : CoreM δ α} {f : α → CoreM δ β} (hx : LeavesFlash x) (hf : ∀ a, LeavesFlash (f a)) :
  LeavesFlash (x >>= f)
  := fun flash b => Respects.bind (hx flash b) fun a => hf a flash b

theorem ite
    {c : Prop} [Decidable c] {x y : CoreM δ α} (hx : LeavesFlash x) (hy : LeavesFlash y) :
  LeavesFlash (if c then x else y)
  := fun f b => Respects.ite (fun _ => hx f b) fun _ => hy f b

theorem loop
    {body : Int → α → CoreM δ α} (hbody : ∀ i a, LeavesFlash (body i a)) (i : Int) (n : Nat) (a : α) :
  LeavesFlash (loop body i n a)
  := fun f b => Respects.loop (fun j a _ _ => hbody j a f b) a

theorem gets
    {g : AvrCore δ → α} (hg : ∀ c f b display, g (c.twin f b display) = g c) :
  LeavesFlash (gets g)
  := fun _ _ => Twins.gets hg

theorem liftExcept
    (x : Except AvrError α) :
  LeavesFlash (liftExcept x : CoreM δ α)
  := fun _ _ => liftExcept_respects x

theorem avrErrorIf
    (c : Prop) [Decidable c] (fmt : String) (args : List Int) :
  LeavesFlash (avrErrorIf c fmt args : CoreM δ Unit)
  := fun _ _ => avrErrorIf_respects c fmt args

theorem flashRead
    (addr : Int) :
  LeavesFlash (avrCoreFlashRead addr : CoreM δ Word)
  := fun _ _ => Twins.flashRead rfl addr

theorem gpwrGet
    (reg : Int) :
  LeavesFlash (avrCoreGpwrGet reg : CoreM δ Byte)
  := fun _ _ => gpwrGet_respects (fun _ _ h => h.sameCells) reg

theorem gpwrSet
    (reg : Int) (val : Byte) :
  LeavesFlash (avrCoreGpwrSet reg val : CoreM δ Unit)
  := fun _ _ => Twins.gpwrSet reg val

theorem sregSet
    (val : Byte) :
  LeavesFlash (avrCoreSregSet val : CoreM δ Unit)
  := by
  intro f b
  apply Twins.update <;> intros <;> rfl

theorem pcSet
    (val : Int) :
  LeavesFlash (avrCorePCSet val : CoreM δ Unit)
  := by
  intro f b
  apply Twins.update <;> intros <;> rfl

theorem irqRaise
    (irq : Nat) (cond : Prop) [Decidable cond] :
  LeavesFlash (update fun c => if cond then c.irqRaise irq else c : CoreM δ Unit)
  := by
  intro f b
  apply update_respects
  intro c d h
  split
  · apply h.map (g := fun c => c.irqRaise irq) <;> intros <;> rfl
  · apply h

theorem sendReply
    (reply : List Char) :
  LeavesFlash (gdbSendReply reply : CoreM δ (List Char))
  := bind (avrErrorIf _ _ _) fun _ => pure _

theorem resume
    (isRunning : Bool) (step : Char) (pkt : List Char) :
  LeavesFlash (gdbContinue isRunning step pkt : CoreM δ Handled)
  := by
  rw [gdbContinue]
  apply ite (pure _)
  apply bind (avrErrorIf _ _ _) fun _ => pure _

end

section

variable {δ : Type} [IoDevices δ]

/-- The accesses of instructions that do not write the flash. -/
theorem uses
    {S : Scope} {pc : Prop} (hflash : ¬ S.flash) {α : Type} {x : CoreM δ α} (hx : Uses S pc x) :
  LeavesFlash x
  := fun _ _ => Twins.uses (fun _ => rfl) hflash hx

theorem memRead
    (addr : Int) :
  LeavesFlash (memRead addr : CoreM δ Byte)
  := fun _ _ => Twins.memRead addr

theorem memWrite
    (addr : Int) (val : Byte) :
  LeavesFlash (memWrite addr val : CoreM δ Unit)
  := fun _ _ => Twins.memWrite addr val

theorem reset :
  LeavesFlash (update AvrCore.reset : CoreM δ Unit)
  := fun _ _ => update_respects fun _ _ h => h.reset

/-! ### The handlers of packets -/

theorem readRegisters :
  LeavesFlash (gdbReadRegisters : CoreM δ (List Char))
  := by
  apply bind
  · apply loop
    intro i buf
    apply bind (gpwrGet i) fun _ => pure _
  · intro buf
    apply bind (gets fun _ _ _ _ => rfl)
    intro sreg
    apply bind (memRead _)
    intro spl
    apply bind (memRead _)
    intro sph
    apply bind (gets fun _ _ _ _ => rfl)
    intro pc
    apply sendReply

theorem writeRegisters
    (pkt : List Char) :
  LeavesFlash (gdbWriteRegisters pkt : CoreM δ (List Char))
  := by
  apply bind
  · apply loop
    intro i pkt
    apply bind (liftExcept _)
    rintro ⟨bval, pkt⟩
    apply bind (gpwrSet i bval) fun _ => pure _
  · intro pkt
    apply bind (liftExcept _)
    rintro ⟨sreg, pkt⟩
    apply bind (sregSet sreg)
    intro _
    apply bind (liftExcept _)
    rintro ⟨spl, pkt⟩
    apply bind (memWrite _ _)
    intro _
    apply bind (liftExcept _)
    rintro ⟨sph, pkt⟩
    apply bind (memWrite _ _)
    intro _
    apply bind (liftExcept _)
    rintro ⟨low, pkt⟩
    apply bind (liftExcept _)
    rintro ⟨val, pkt⟩
    apply bind (pcSet _)
    intro _
    apply sendReply

theorem readRegister
    (pkt : List Char) :
  LeavesFlash (gdbReadRegister pkt : CoreM δ (List Char))
  := by
  apply bind (liftExcept _)
  rintro ⟨reg, rest⟩
  apply ite (bind (gpwrGet _) fun _ => sendReply _)
  apply ite (bind (gets fun _ _ _ _ => rfl) fun _ => sendReply _)
  apply ite (bind (memRead _) fun _ => bind (memRead _) fun _ => sendReply _)
  apply ite (bind (gets fun _ _ _ _ => rfl) fun _ => sendReply _) (sendReply _)

theorem writeRegister
    (pkt : List Char) :
  LeavesFlash (gdbWriteRegister pkt : CoreM δ (List Char))
  := by
  apply bind (liftExcept _)
  rintro ⟨reg, pkt⟩
  apply bind (liftExcept _)
  rintro ⟨dval, pkt⟩
  apply ite
  · apply ite (bind (sregSet _) fun _ => sendReply _) (bind (gpwrSet _ _) fun _ => sendReply _)
  · apply ite
    · apply bind (liftExcept _)
      rintro ⟨hval, pkt⟩
      apply bind (memWrite _ _) fun _ => bind (memWrite _ _) fun _ => sendReply _
    · apply ite
      · apply bind (liftExcept _)
        rintro ⟨val, pkt⟩
        apply bind (pcSet _) fun _ => sendReply _
      · apply sendReply

omit [IoDevices δ] in
theorem readFlashEven
    (addr : Int) (len : Nat) (buf : List Char) :
  LeavesFlash (gdbReadFlashEven addr len buf : CoreM δ (List Char))
  := by
  apply bind
  · apply loop
    intro i buf
    apply bind (flashRead _) fun _ => pure _
  · intro buf
    apply ite (bind (flashRead _) fun _ => pure _) (pure _)

theorem readMemory
    (pkt : List Char) :
  LeavesFlash (gdbReadMemory pkt : CoreM δ (List Char))
  := by
  apply bind (liftExcept _)
  rintro ⟨addr, len, rest⟩
  apply bind _ fun _ => sendReply _
  apply ite
  · apply loop
    intro i buf
    apply bind (memRead _) fun _ => pure _
  · apply ite
    · apply ite
      · apply bind (flashRead _)
        intro wval
        apply readFlashEven
      · apply readFlashEven
    · apply loop
      intro i buf
      apply bind (gets fun _ _ _ _ => rfl) fun _ => pure _

/-- The writes of `gdb_write_memory` to data memory and EEPROM. -/
theorem writeSegment
    {addr : Int} (haddr : ¬ addr < sramOffset) (len : Int) (pkt : List Char) :
  LeavesFlash (gdbWriteSegment addr len pkt : CoreM δ Unit)
  := by
  rw [gdbWriteSegment, if_neg haddr]
  apply ite
  · apply bind _ fun _ => pure _
    apply loop
    intro i pkt
    apply bind (liftExcept _)
    rintro ⟨bval, pkt⟩
    apply bind (memWrite _ _) fun _ => pure _
  · apply bind _ fun _ => pure _
    apply loop
    intro i pkt
    apply bind (liftExcept _)
    rintro ⟨bval, pkt⟩
    apply bind _ fun _ => pure _
    intro f b
    apply Twins.update <;> intros <;> rfl

theorem ioFetch
    (cellName : Int → Option (List Char)) (addr : Int) :
  LeavesFlash (memIoFetch cellName addr : CoreM δ (List Char × Byte))
  := by
  apply bind (gets fun _ _ _ _ => rfl)
  intro mem
  apply ite _ (pure _)
  apply bind (fun _ _ => memGetCell_respects (fun _ _ h => h.sameCells) addr)
  rintro ⟨vdev, rdMask, wrMask⟩
  cases cellName addr with
  | none => apply pure
  | some name =>
    cases vdev with
    | none => apply pure
    | some vdev =>
      apply bind _ fun _ => pure _
      intro f b
      apply vdevRead_respects (fun _ _ h => h.sameCells)
      intro c d h dev
      apply h.map (g := fun c => { c with dev := dev }) <;> intros <;> rfl

theorem queryRequest
    (cellName : Int → Option (List Char)) (pkt : List Char) :
  LeavesFlash (gdbQueryRequest cellName pkt : CoreM δ (List Char))
  := by
  apply ite _ (sendReply _)
  apply ite (sendReply _)
  apply ite _ (sendReply _)
  apply bind (liftExcept _)
  rintro ⟨addr, len, rest⟩
  apply bind
  · apply loop
    intro i reply
    apply bind (ioFetch _ _)
    rintro ⟨name, val⟩
    apply pure
  · intro reply
    apply sendReply

theorem continueWithSignal
    (isRunning : Bool) (step : Char) (pkt : List Char) :
  LeavesFlash (gdbContinueWithSignal isRunning step pkt : CoreM δ Handled)
  := by
  apply bind (liftExcept _)
  rintro ⟨signo, rest⟩
  apply ite
  · apply bind reset
    intro _
    apply bind (sendReply _) fun _ => pure _
  · apply bind (irqRaise _ _)
    intro _
    apply ite (resume _ _ _)
    apply ite (resume _ _ _)
    apply bind (sendReply _) fun _ => pure _

theorem stopReply
    (signo : Byte) :
  LeavesFlash (gdbStopReply signo : CoreM δ (List Char))
  := by
  apply bind (gets fun _ _ _ _ => rfl)
  intro pc
  apply bind (gets fun _ _ _ _ => rfl)
  intro sreg
  apply bind (memRead _) fun _ => bind (memRead _) fun _ => sendReply _

end

end LeavesFlash

/-! ### The packets that write the flash -/

/-- The packet with the character `z` is for the breakpoint at the word `pc`. -/
def IsBreak (z : Char) (pc : Int) (pkt : List Char) : Prop :=
  ∃ rest addr len rest', pkt = z :: '0' :: rest ∧
    gdbGetAddrLen rest.tail ',' nul = .ok (addr, len, rest') ∧ addr.tdiv 2 = pc

/-- The packet writes to the word `pc` of the flash. -/
def Overwrites (pc : Int) (pkt : List Char) : Prop :=
  ∃ addr len rest, pkt.headD nul = 'M' ∧ gdbGetAddrLen pkt.tail ',' ':' = .ok (addr, len, rest) ∧
    addr < sramOffset ∧ TouchesFlash addr len pc

section

variable {δ : Type} [IoDevices δ] {pc : Int}

omit [IoDevices δ] in
/-- What is parsed may be used for the rest. -/
theorem KeepsBreak.parse
    {α β : Type} {x : Except AvrError α} {f : α → CoreM δ β}
    (hf : ∀ a, x = .ok a → KeepsBreak pc (f a)) :
  KeepsBreak pc (liftExcept x >>= f)
  := by
  intro c hc
  cases hx : x with
  | error e =>
    rw [run_bind_of_error (run_liftExcept_error rfl c)]
    trivial
  | ok a =>
    rw [run_bind_of_ok (run_liftExcept_ok rfl c)]
    apply hf a hx c hc

theorem gdbWriteMemory_keepsBreak
    {pkt : List Char} (hclear : ∀ addr len rest, gdbGetAddrLen pkt ',' ':' = .ok (addr, len, rest) →
      addr < sramOffset → ¬ TouchesFlash addr len pc) :
  KeepsBreak pc (gdbWriteMemory pkt : CoreM δ (List Char))
  := by
  apply KeepsBreak.parse
  rintro ⟨addr, len, rest⟩ hparse
  apply Triple.bind _ fun _ => (LeavesFlash.sendReply _).keepsBreak pc
  by_cases haddr : addr < sramOffset
  · have hnot : ¬ (sramOffset ≤ addr ∧ addr < eepromOffset) := by omega
    rw [gdbWriteSegment, if_neg hnot, if_pos haddr]
    apply Respects.diagonal_iff.mp
    apply gdbWriteFlash_respects (break_flashRelation pc)
    rintro addr' htouch rfl
    apply hclear addr len rest hparse haddr htouch
  · apply (LeavesFlash.writeSegment haddr len rest).keepsBreak

/-- The character that a packet begins with. -/
theorem eq_cons_of_headD
    {pkt : List Char} {z : Char} (hz : pkt.headD nul = z) (hnul : z ≠ nul) :
  pkt = z :: pkt.tail
  := by
  cases pkt with
  | nil =>
    rw [List.headD_nil] at hz
    exact absurd hz.symm hnul
  | cons ch pkt =>
    rw [List.headD_cons] at hz
    rw [hz, List.tail_cons]

omit [IoDevices δ] in
theorem gdbBreakPoint_keepsBreak
    {z : Char} {pkt : List Char} (hclear : ¬ IsBreak 'z' pc (z :: pkt)) :
  KeepsBreak pc (gdbBreakPoint z pkt : CoreM δ (List Char))
  := by
  have hreply (text : List Char) : KeepsBreak pc (gdbSendReply text : CoreM δ (List Char)) :=
    (LeavesFlash.sendReply text).keepsBreak pc
  apply KeepsBreak.parse
  rintro ⟨addr, len, rest⟩ hparse
  apply Triple.ite
  · intro ht
    apply Triple.bind ((LeavesFlash.gets fun _ _ _ _ => rfl).keepsBreak pc)
    intro maxPc
    apply Triple.ite fun _ => hreply _
    intro _
    apply Triple.ite
    · rintro rfl
      apply Triple.bind _ fun _ => hreply _
      apply remove_keepsBreak
      intro haddr
      apply hclear
      have hpkt : pkt = '0' :: pkt.tail := eq_cons_of_headD ht (by decide)
      refine ⟨pkt.tail, addr, len, rest, ?_, ?_, haddr⟩
      · rw [← hpkt]
      · rw [← List.drop_one, ← List.drop_one, List.drop_drop]
        apply hparse
    · intro _
      apply Triple.bind _ fun _ => hreply _
      apply insert_keepsBreak
  · intro _
    apply Triple.ite fun _ => hreply _
    intro _
    apply hreply

/-- The packets that neither remove the breakpoint nor overwrite it. -/
theorem gdbParsePacket_keepsBreak
    (cellName : Int → Option (List Char)) (isRunning : Bool) {pkt : List Char}
    (hremove : ¬ IsBreak 'z' pc pkt) (hwrite : ¬ Overwrites pc pkt) :
  KeepsBreak pc (gdbParsePacket cellName isRunning pkt : CoreM δ Handled)
  := by
  have hreturn {x : CoreM δ (List Char)} (handled : List Char → Handled) (hx : KeepsBreak pc x) :
      KeepsBreak pc (do return handled (← x) : CoreM δ Handled) :=
    Triple.bind hx fun _ => Triple.pure fun _ hc => hc
  have hleaves {x : CoreM δ (List Char)} (handled : List Char → Handled) (hx : LeavesFlash x) :
      KeepsBreak pc (do return handled (← x) : CoreM δ Handled) :=
    hreturn handled (hx.keepsBreak pc)
  rw [gdbParsePacket]
  split
  · apply hleaves _ (LeavesFlash.sendReply _)
  · apply hleaves _ LeavesFlash.readRegisters
  · apply hleaves _ (LeavesFlash.writeRegisters _)
  · apply hleaves _ (LeavesFlash.readRegister _)
  · apply hleaves _ (LeavesFlash.writeRegister _)
  · apply hleaves _ (LeavesFlash.readMemory _)
  · next hM =>
    apply hreturn
    apply gdbWriteMemory_keepsBreak
    intro addr len rest hparse haddr htouch
    apply hwrite
    use addr, len, rest
  · apply Triple.bind (LeavesFlash.reset.keepsBreak pc) fun _ => hleaves _ (LeavesFlash.sendReply _)
  · apply Triple.bind (LeavesFlash.reset.keepsBreak pc) fun _ => hleaves _ (LeavesFlash.sendReply _)
  · apply (LeavesFlash.continueWithSignal _ _ _).keepsBreak
  · apply (LeavesFlash.continueWithSignal _ _ _).keepsBreak
  · apply (LeavesFlash.resume _ _ _).keepsBreak
  · apply (LeavesFlash.resume _ _ _).keepsBreak
  · next hz =>
    apply hreturn
    apply gdbBreakPoint_keepsBreak
    rw [← eq_cons_of_headD hz (by decide)]
    apply hremove
  · apply hreturn
    apply gdbBreakPoint_keepsBreak
    rintro ⟨rest, addr, len, rest', heq, -⟩
    have hz : 'Z' = 'z' := List.head_eq_of_cons_eq heq
    contradiction
  · apply hleaves _ (LeavesFlash.queryRequest _ _)
  · apply hleaves _ (LeavesFlash.sendReply _)

end

end SimulAvr
