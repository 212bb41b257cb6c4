import SimulAvr.Device
import SimulAvr.GdbServer
import SimulAvr.Interrupts
import SimulAvr.Target

/-!
# The bounds of the data space

An access outside the array of cells is the error `cellOutOfBounds`.  The instructions,
the entry of an interrupt and the memory packets of the debugger stay inside the data
space but for two sums that no one reduces: a pointer plus a displacement, and the
address of a packet plus its length (`data_bounds`).
-/

namespace SimulAvr

open Program (Triple)

section

variable {δ α β : Type}

/-- The run of `x` from `c` hands no address outside the array of cells to `mem_read` or
`mem_write`. -/
def InDataSpace (x : CoreM δ α) (c : AvrCore δ) : Prop :=
  ∀ addr, x.run c ≠ .error (.cellOutOfBounds addr)

/-- The program does not access the data space, or only inside of it. -/
def Inside (x : CoreM δ α) : Prop :=
  ∀ c, InDataSpace x c

/-! ### Rules -/

theorem inDataSpace_bind_of_ok
    {x : CoreM δ α} {f : α → CoreM δ β} {c c' : AvrCore δ} {a : α}
    (h : x.run c = .ok (a, c')) :
  InDataSpace (x >>= f) c ↔ InDataSpace (f a) c'
  := by
  rw [InDataSpace, InDataSpace, Program.run_bind_of_ok h]

/-- A program is in the data space if it is so up to a point and goes on inside. -/
theorem inDataSpace_bind
    {x : CoreM δ α} {f : α → CoreM δ β} (hf : ∀ a, Inside (f a)) (c : AvrCore δ) :
  InDataSpace (x >>= f) c ↔ InDataSpace x c
  := by
  cases h : x.run c with
  | error e => simp only [InDataSpace, Program.run_bind_of_error h, h, ne_eq, Except.error.injEq]
  | ok r =>
    obtain ⟨a, c'⟩ := r
    rw [inDataSpace_bind_of_ok h]
    constructor
    · intro _ addr
      rw [h]
      intro heq
      cases heq
    · intro _
      apply hf a c'

namespace Inside

theorem pure
    (a : α) :
  Inside (pure a : CoreM δ α)
  := by
  intro c addr h
  cases h

theorem bind
    {x : CoreM δ α} {f : α → CoreM δ β} (hx : Inside x) (hf : ∀ a, Inside (f a)) :
  Inside (x >>= f)
  := fun c => (inDataSpace_bind hf c).mpr (hx c)

theorem ite
    {p : Prop} [Decidable p] {x y : CoreM δ α} (hx : Inside x) (hy : Inside y) :
  Inside (if p then x else y)
  := by
  split
  · apply hx
  · apply hy

theorem loop
    {body : Int → α → CoreM δ α} (hbody : ∀ i a, Inside (body i a)) (i : Int) (n : Nat) (a : α) :
  Inside (Program.loop body i n a)
  := by
  induction n generalizing i a with
  | zero => apply pure
  | succ n ih => exact bind (hbody i a) fun a => ih (i + 1) a

theorem gets
    (f : AvrCore δ → α) :
  Inside (gets f)
  := by
  intro c addr h
  cases h

theorem update
    (f : AvrCore δ → AvrCore δ) :
  Inside (update f)
  := by
  intro c addr h
  cases h

theorem avrErrorIf
    (p : Prop) [Decidable p] (fmt : String) (args : List Int) :
  Inside (avrErrorIf p fmt args : CoreM δ Unit)
  := by
  apply ite
  · intro c addr h
    cases h
  · apply pure

/-- A part of the program that aborts only by a call of `avr_error`. -/
theorem liftExcept
    {x : Except AvrError α} (hx : ∀ addr, x ≠ .error (.cellOutOfBounds addr)) :
  Inside (liftExcept x : CoreM δ α)
  := by
  intro c addr h
  cases hr : x with
  | ok a =>
    rw [run_liftExcept_ok hr] at h
    cases h
  | error e =>
    rw [run_liftExcept_error hr] at h
    cases h
    apply hx addr hr

end Inside

/-! ### The text of the packets -/

theorem hex2nib_ne
    (hex : Char) (addr : Int) :
  hex2nib hex ≠ .error (.cellOutOfBounds addr)
  := by
  rw [hex2nib]
  split_ifs <;> intro h <;> cases h

/-- Sequencing of parts that abort only by a call of `avr_error`. -/
theorem except_bind_ne
    {x : Except AvrError α} {f : α → Except AvrError β} {addr : Int}
    (hx : x ≠ .error (.cellOutOfBounds addr)) (hf : ∀ a, f a ≠ .error (.cellOutOfBounds addr)) :
  (x >>= f) ≠ .error (.cellOutOfBounds addr)
  := by
  cases x with
  | error e =>
    intro h
    cases h
    apply hx rfl
  | ok a => apply hf a

theorem gdbGetByte_ne
    (pkt : List Char) (addr : Int) :
  gdbGetByte pkt ≠ .error (.cellOutOfBounds addr)
  := by
  apply except_bind_ne (hex2nib_ne _ addr)
  intro high
  apply except_bind_ne (hex2nib_ne _ addr)
  intro low h
  cases h

theorem gdbScanNum_ne
    (stop : Char) (num : BitVec 32) (pkt : List Char) (addr : Int) :
  gdbScanNum stop num pkt ≠ .error (.cellOutOfBounds addr)
  := by
  induction pkt generalizing num with
  | nil =>
    rw [gdbScanNum]
    split_ifs
    · intro h
      cases h
    · apply except_bind_ne (hex2nib_ne _ addr)
      intro _ h
      cases h
  | cons ch pkt ih =>
    rw [gdbScanNum]
    split_ifs
    · intro h
      cases h
    · apply except_bind_ne (hex2nib_ne _ addr)
      intro nib
      apply ih

theorem gdbGetAddrLen_ne
    (pkt : List Char) (aEnd lEnd : Char) (addr : Int) :
  gdbGetAddrLen pkt aEnd lEnd ≠ .error (.cellOutOfBounds addr)
  := by
  apply except_bind_ne (gdbScanNum_ne _ _ _ addr)
  rintro ⟨a, pkt⟩
  apply except_bind_ne (gdbScanNum_ne _ _ _ addr)
  rintro ⟨len, pkt⟩ h
  cases h

/-! ### Loops of the debugger -/

section

variable [IoDevices δ]

omit [IoDevices δ] in
theorem not_inDataSpace_of_error
    {x : CoreM δ α} {c : AvrCore δ} {addr : Int} (h : x.run c = .error (.cellOutOfBounds addr)) :
  ¬ InDataSpace x c
  := fun hin => hin addr h

/-- A program whose accesses are all at one address of the data space. -/
theorem inDataSpace_of_uses
    {pc : Prop} {x : CoreM δ α} {a : Int} (hx : Uses ⟨(· = a), False, False, True⟩ pc x)
    {c : AvrCore δ} (ha : 0 ≤ a ∧ a ≤ c.mem.xramEnd) :
  InDataSpace x c
  := by
  intro addr herror
  obtain ⟨rfl, hout⟩ := hx.fault herror
  apply hout ha

/-- A loop over addresses of the data space, each of which it accesses after a part that
only may abort, leaves the data space if it goes on after the last address and does not
abort before. -/
theorem inDataSpace_loop
    (pre : α → Except AvrError β) (access : Int → β → CoreM δ α)
    (hpre : ∀ s addr, pre s ≠ .error (.cellOutOfBounds addr))
    (haccess : ∀ addr b, Uses ⟨(· = addr), False, False, True⟩ False (access addr b))
    (hout : ∀ b (c : AvrCore δ), c.mem.xramEnd = 0xffff → ¬ InDataSpace (access 0x10000 b) c)
    {addr : Int} (haddr : 0 ≤ addr ∧ addr ≤ 0x10000) (n : Nat) (s : α) {c : AvrCore δ}
    (hmem : c.mem.xramEnd = 0xffff) :
  InDataSpace (Program.loop (fun addr s => liftExcept (pre s) >>= access addr) addr n s) c ↔
    addr + n ≤ 0x10000 ∨ ∃ e, (do
      let s ← Program.loop (fun addr s => liftExcept (pre s) >>= access addr) addr
        (0x10000 - addr).toNat s
      liftExcept (pre s) : CoreM δ β).run c = .error e
  := by
  induction n generalizing addr s c with
  | zero =>
    constructor
    · intro _
      left
      omega
    · intro _
      apply Inside.pure
  | succ n ih =>
    rw [Program.loop]
    have hcases : (∃ e, pre s = .error e) ∨ ∃ b, pre s = .ok b := by
      cases pre s <;> simp
    obtain ⟨e, hs⟩ | ⟨b, hs⟩ := hcases
    · -- both loops abort at once
      have hrun := run_liftExcept_error hs c
      constructor
      · intro _
        right
        use e
        cases hk : (0x10000 - addr).toNat with
        | zero => exact hrun
        | succ k =>
          rw [Program.loop]
          apply Program.run_bind_of_error
          apply Program.run_bind_of_error
          apply Program.run_bind_of_error hrun
      · intro _ a ha
        rw [Program.run_bind_of_error (Program.run_bind_of_error hrun)] at ha
        cases ha
        apply hpre s a hs
    · have hrun := run_liftExcept_ok hs c
      by_cases hlast : addr = 0x10000
      · subst hlast
        have hleft : ¬ ((0x10000 : Int) + (n + 1 : Nat) ≤ 0x10000) := by omega
        constructor
        · intro hin
          apply absurd _ (hout b c hmem)
          intro a ha
          apply hin a
          apply Program.run_bind_of_error
          rw [Program.run_bind_of_ok hrun]
          apply ha
        · rintro (hle | ⟨e, he⟩)
          · contradiction
          · change (liftExcept (pre s)).run c = .error e at he
            rw [hrun] at he
            cases he
      · have hk : (0x10000 - addr).toNat = (0x10000 - (addr + 1)).toNat + 1 := by omega
        have hin : InDataSpace (access addr b) c :=
          inDataSpace_of_uses (haccess addr b) (by omega)
        rw [hk, Program.loop]
        cases hb : (access addr b).run c with
        | error e =>
          have hbody : (liftExcept (pre s) >>= access addr).run c = .error e := by
            rw [Program.run_bind_of_ok hrun, hb]
          constructor
          · intro _
            right
            use e
            apply Program.run_bind_of_error
            apply Program.run_bind_of_error hbody
          · intro _ a ha
            rw [Program.run_bind_of_error hbody] at ha
            cases ha
            apply hin a hb
        | ok r =>
          obtain ⟨s', c'⟩ := r
          have hbody : (liftExcept (pre s) >>= access addr).run c = .ok (s', c') := by
            rw [Program.run_bind_of_ok hrun, hb]
          have hmem' : c'.mem.xramEnd = 0xffff := by
            rw [((haccess addr b).frame hb).mem, hmem]
          rw [inDataSpace_bind_of_ok hbody, ih (by omega) s' hmem', bind_assoc]
          rw [Program.run_bind_of_ok hbody]
          have hsum : addr + 1 + n = addr + (n + 1 : Nat) := by omega
          rw [hsum]

/-! ### Displacements -/

/-- The address of a load or store with displacement is in the data space: the pointer plus
the displacement does not exceed `0xffff`. -/
def OpcodeInfo.DispFits (opi : OpcodeInfo) (c : AvrCore δ) : Prop :=
  match opi.func with
  | .LDD_Y | .STD_Y => (c.gpwr 29 ++ c.gpwr 28).toNat + opi.arg2 ≤ 0xffff
  | .LDD_Z | .STD_Z => (c.gpwr 31 ++ c.gpwr 30).toNat + opi.arg2 ≤ 0xffff
  | _ => True

theorem memRead_outside
    {c : AvrCore δ} {addr : Int} (h : ¬ (0 ≤ addr ∧ addr ≤ c.mem.xramEnd)) :
  (memRead addr).run c = .error (.cellOutOfBounds addr)
  := Program.run_bind_of_error (run_memGetCell_error c addr h)

theorem memWrite_outside
    {c : AvrCore δ} {addr : Int} (h : ¬ (0 ≤ addr ∧ addr ≤ c.mem.xramEnd)) (val : Byte) :
  (memWrite addr val).run c = .error (.cellOutOfBounds addr)
  := Program.run_bind_of_error (run_memGetCell_error c addr h)

theorem inDataSpace_ldDisp
    {c : AvrCore δ} (hmem : c.mem.xramEnd = 0xffff) {p : Int} {Y : Word}
    (hY : (pointerGet p).run c = .ok (Y, c)) (name : OpcodeName) (Rd : Int) {q : Int}
    (hq : 0 ≤ q) :
  InDataSpace (ldDisp name p Rd q) c ↔ Y.toNat + q ≤ 0xffff
  := by
  rw [ldDisp, inDataSpace_bind_of_ok hY]
  constructor
  · intro hin
    by_contra hgt
    apply hin (Y.toNat + q)
    apply Program.run_bind_of_error
    apply memRead_outside
    omega
  · intro hle
    have huses : Uses ⟨(· = (Y.toNat : Int) + q), False, False, True⟩ True (do
        let val ← memRead (Y.toNat + q)
        avrCoreGpwrSet Rd val
        nextInst name 2 : CoreM δ OpRet) :=
      .bind (.action (.memRead rfl)) fun _ => .bind (.action (.gpwrSet _ _)) fun _ =>
        (nextInst_advances name 2).uses
    apply inDataSpace_of_uses huses
    omega

theorem inDataSpace_stDisp
    {c : AvrCore δ} (hmem : c.mem.xramEnd = 0xffff) {p : Int} {Y : Word}
    (hY : (pointerGet p).run c = .ok (Y, c)) (name : OpcodeName) {Rd : Int}
    (hRd : 0 ≤ Rd ∧ Rd < 32) {q : Int} (hq : 0 ≤ q) :
  InDataSpace (stDisp name p Rd q) c ↔ Y.toNat + q ≤ 0xffff
  := by
  obtain ⟨r, rfl⟩ := exists_fin_of_mem hRd
  rw [stDisp, inDataSpace_bind_of_ok hY, inDataSpace_bind_of_ok (run_avrCoreGpwrGet c r)]
  constructor
  · intro hin
    by_contra hgt
    apply hin (Y.toNat + q)
    apply Program.run_bind_of_error
    apply memWrite_outside
    omega
  · intro hle
    have huses : Uses ⟨(· = (Y.toNat : Int) + q), False, False, True⟩ True (do
        memWrite (Y.toNat + q) (c.gpwr r)
        nextInst name 2 : CoreM δ OpRet) :=
      .bind (.action (.memWrite rfl)) fun _ => (nextInst_advances name 2).uses
    apply inDataSpace_of_uses huses
    omega

/-- The handlers stay in the data space but for the sums of a pointer and a displacement. -/
theorem inDataSpace_handler
    {opi : OpcodeInfo} (hargs : opi.func.form.Admits opi.arg1 opi.arg2) (opcode : Word)
    {c : AvrCore δ} (hmem : c.mem.xramEnd = 0xffff) :
  InDataSpace (opi.func.handler opcode opi.arg1 opi.arg2) c ↔ opi.DispFits c
  := by
  obtain ⟨func, arg1, arg2⟩ := opi
  have hY := run_pointerGet 28 29 rfl c
  have hZ := run_pointerGet 30 31 rfl c
  by_cases hfunc : func ∈ dispOpcodes
  · have hform : ∀ func ∈ dispOpcodes, func.form = .rd5q := by decide +kernel
    change func.form.Admits arg1 arg2 at hargs
    rw [hform func hfunc] at hargs
    obtain ⟨hRd, hq⟩ := hargs
    cases func with
    | LDD_Y => exact inDataSpace_ldDisp hmem hY _ _ hq.1
    | LDD_Z => exact inDataSpace_ldDisp hmem hZ _ _ hq.1
    | STD_Y => exact inDataSpace_stDisp hmem hY _ hRd hq.1
    | STD_Z => exact inDataSpace_stDisp hmem hZ _ hRd hq.1
    | _ => exact absurd hfunc (by decide)
  · have hfits : OpcodeInfo.DispFits ⟨func, arg1, arg2⟩ c := by
      cases func <;> trivial
    constructor
    · intro _
      apply hfits
    · intro _ addr herror
      obtain ⟨hcell | hdisp, hout⟩ := (handler_uses hargs opcode).fault herror
      · apply hout
        omega
      · contradiction

/-- An instruction is in the data space if its displacement fits. -/
theorem inDataSpace_execNextInstruction
    {c : AvrCore δ} (hmem : c.mem.xramEnd = 0xffff) :
  InDataSpace execNextInstruction c ↔
    ∀ opcode, flashRead c.flash c.pc = .ok opcode → (decodeOpcode opcode).DispFits c
  := by
  cases hfetch : flashRead c.flash c.pc with
  | error e =>
    have hread : (avrCoreFlashRead c.pc).run c = .error e := by
      rw [run_avrCoreFlashRead, hfetch]
      rfl
    have herror : execNextInstruction.run c = .error e := by
      rw [execNextInstruction, Program.run_bind_of_ok (run_avrCorePCGet c)]
      apply Program.run_bind_of_error hread
    constructor
    · intro _ opcode h
      cases h
    · intro _ addr h
      rw [herror] at h
      cases h
      rw [flashRead, storageReadw] at hfetch
      split at hfetch <;> cases hfetch
  | ok opcode =>
    have hrun : InDataSpace execNextInstruction c ↔ InDataSpace (execOpcode opcode) c.fetched := by
      rw [InDataSpace, InDataSpace, execNextInstruction_of_fetch hfetch]
    rw [hrun]
    have hhandler := inDataSpace_handler (lookupOpcode_admits opcode) opcode
      (c := c.fetched) hmem
    constructor
    · intro h opcode' heq
      cases heq
      apply hhandler.mp h
    · intro h
      apply hhandler.mpr (h opcode rfl)

/-! ### Interrupts -/

/-- The check for interrupts is in the data space. -/
theorem inDataSpace_check
    {c : AvrCore δ} (hmem : c.mem.xramEnd = 0xffff) :
  InDataSpace avrCoreCheckInterrupts c
  := by
  intro addr herror
  rw [avrCoreCheckInterrupts, Program.run_bind_of_ok (run_gets _ c)] at herror
  by_cases hpending : c.irqPending.entries = []
  · rw [if_pos hpending] at herror
    cases herror
  · rw [if_neg hpending] at herror
    obtain hget | ⟨irq, hget⟩ := avrCoreIrqGetPending_cases c
    · rw [Program.run_bind_of_error hget] at herror
      cases herror
    · rw [Program.run_bind_of_ok hget] at herror
      by_cases hname : irq.name = none
      · have hinvalid := run_avrErrorIf_pos hname "Raised an invalid irq for device" [] c
        rw [takeInterrupt, Program.run_bind_of_error hinvalid] at herror
        cases herror
      · rw [run_takeInterrupt hname] at herror
        have hmem' : (c.resetFor irq).mem = c.mem := congrArg Layout.mem (resetFor_layout c irq)
        generalize c.resetFor irq = c₁ at herror hmem'
        split at herror
        · rw [run_vectorTo] at herror
          have huses : Uses stackScope False
              (avrCoreStackPush c₁.pcSize (.ofInt 32 c₁.pc) : CoreM δ Unit) :=
            avrCoreStackPush_uses (fun _ h => h) (fun _ => trivial) _
          cases hpush : (avrCoreStackPush c₁.pcSize (.ofInt 32 c₁.pc)).run c₁ with
          | ok r =>
            rw [hpush] at herror
            cases herror
          | error e =>
            rw [hpush] at herror
            cases herror
            obtain ⟨hcell, hout⟩ := huses.fault hpush
            apply hout
            rw [hmem', hmem]
            apply hcell
        · cases herror

/-! ### Memory packets -/

omit [IoDevices δ] in
theorem inside_gdbSendReply
    (reply : List Char) :
  Inside (gdbSendReply reply : CoreM δ (List Char))
  := by
  apply Inside.bind (Inside.avrErrorIf _ _ _)
  intro _
  apply Inside.pure

omit [IoDevices δ] in
theorem inside_gdbReadFlash
    (addr len : Int) :
  Inside (gdbReadFlash addr len : CoreM δ (List Char))
  := by
  have hread (addr : Int) : Inside (avrCoreFlashRead addr : CoreM δ Word) := by
    intro c addr' h
    rw [run_avrCoreFlashRead, flashRead, storageReadw] at h
    split at h <;> cases h
  have heven (addr : Int) (len : Nat) (buf : List Char) :
      Inside (gdbReadFlashEven addr len buf : CoreM δ (List Char)) := by
    apply Inside.bind
    · apply Inside.loop
      intro i buf
      exact Inside.bind (hread _) fun _ => Inside.pure _
    · intro buf
      apply Inside.ite
      · exact Inside.bind (hread _) fun _ => Inside.pure _
      · apply Inside.pure
  apply Inside.ite
  · exact Inside.bind (hread _) fun _ => heven _ _ _
  · apply heven

omit [IoDevices δ] in
theorem inside_gdbWriteFlash
    (addr len : Int) (pkt : List Char) :
  Inside (gdbWriteFlash addr len pkt : CoreM δ Unit)
  := by
  have hbyte (pkt : List Char) : Inside (liftExcept (gdbGetByte pkt) : CoreM δ _) :=
    Inside.liftExcept (gdbGetByte_ne pkt)
  have hwriteb (stor : Storage) (addr : Int) (val : Byte) :
      Inside (liftExcept (storageWriteb stor addr val) : CoreM δ Storage) := by
    apply Inside.liftExcept
    intro addr' h
    rw [storageWriteb] at h
    split at h <;> cases h
  have hhi8 (addr : Int) (val : Byte) : Inside (avrCoreFlashWriteHi8 addr val : CoreM δ Unit) :=
    Inside.bind (Inside.gets _) fun _ => Inside.bind (hwriteb _ _ _) fun _ => Inside.update _
  have hlo8 (addr : Int) (val : Byte) : Inside (avrCoreFlashWriteLo8 addr val : CoreM δ Unit) :=
    Inside.bind (Inside.gets _) fun _ => Inside.bind (hwriteb _ _ _) fun _ => Inside.update _
  have hwrite (addr : Int) (val : Word) : Inside (avrCoreFlashWrite addr val : CoreM δ Unit) := by
    intro c addr' h
    rw [run_avrCoreFlashWrite, storageWritew] at h
    split at h <;> cases h
  have heven (addr : Int) (len : Nat) (pkt : List Char) :
      Inside (gdbWriteFlashEven addr len pkt : CoreM δ Unit) := by
    apply Inside.bind
    · apply Inside.loop
      intro i pkt
      exact Inside.bind (hbyte _) fun _ => Inside.bind (hbyte _) fun _ =>
        Inside.bind (hwrite _ _) fun _ => Inside.pure _
    · intro pkt
      apply Inside.ite
      · exact Inside.bind (hbyte _) fun _ => hlo8 _ _
      · apply Inside.pure
  apply Inside.ite
  · exact Inside.bind (hbyte _) fun _ => Inside.bind (hhi8 _ _) fun _ => heven _ _ _
  · apply heven

/-- Reading data memory for a packet. -/
theorem inDataSpace_gdbReadSram
    {addr : Int} (haddr : 0 ≤ addr ∧ addr ≤ 0x10000) (len : Nat) {c : AvrCore δ}
    (hmem : c.mem.xramEnd = 0xffff) :
  InDataSpace (gdbReadSram addr len) c ↔
    addr + len ≤ 0x10000 ∨ ∃ e, (gdbReadSram addr (0x10000 - addr).toNat).run c = .error e
  := by
  have h := inDataSpace_loop Except.ok (fun addr buf => do
    let bval ← memRead addr
    return buf ++ hexByte bval) (fun _ _ h => nomatch h)
    (fun _ _ => .bind (.action (.memRead rfl)) fun _ => .pure _)
    (fun buf c' hmem' => not_inDataSpace_of_error
      (Program.run_bind_of_error (memRead_outside (by omega))))
    haddr len [] hmem
  have hpure : (fun s => liftExcept (.ok s)) = (pure : List Char → CoreM δ (List Char)) := rfl
  rw [hpure, bind_pure] at h
  exact h

/-- Writing data memory for a packet. -/
theorem inDataSpace_gdbWriteSram
    {addr : Int} (haddr : 0 ≤ addr ∧ addr ≤ 0x10000) (len : Nat) (pkt : List Char)
    {c : AvrCore δ} (hmem : c.mem.xramEnd = 0xffff) :
  InDataSpace (gdbWriteSram addr len pkt) c ↔
    addr + len ≤ 0x10000 ∨ ∃ e, (do
      let pkt ← gdbWriteSram addr (0x10000 - addr).toNat pkt
      liftExcept (gdbGetByte pkt)).run c = .error e
  := by
  exact inDataSpace_loop gdbGetByte (fun addr (r : Byte × List Char) => do
    memWrite addr r.1
    return r.2) gdbGetByte_ne
    (fun _ _ => .bind (.action (.memWrite rfl)) fun _ => .pure _)
    (fun r c' hmem' => not_inDataSpace_of_error
      (Program.run_bind_of_error (memWrite_outside (by omega) _)))
    haddr len pkt hmem

/-- A packet that reads data memory stays in the data space: its address plus its length
does not exceed `0x10000`, or it aborts at one of the addresses below. -/
def ReadFits (pkt : List Char) (c : AvrCore δ) : Prop :=
  ∀ addr len rest, gdbGetAddrLen pkt ',' nul = .ok (addr, len, rest) →
    sramOffset ≤ addr ∧ addr < eepromOffset →
    addr - sramOffset + len ≤ 0x10000 ∨
      ∃ e, (gdbReadSram (addr - sramOffset) (0x10000 - (addr - sramOffset)).toNat).run c = .error e

/-- A packet that writes data memory stays in the data space: its address plus its length
does not exceed `0x10000`, or it aborts at one of the addresses below, or in the digits of
the byte for the next one. -/
def WriteFits (pkt : List Char) (c : AvrCore δ) : Prop :=
  ∀ addr len rest, gdbGetAddrLen pkt ',' ':' = .ok (addr, len, rest) →
    sramOffset ≤ addr ∧ addr < eepromOffset →
    addr - sramOffset + len ≤ 0x10000 ∨ ∃ e, (do
      let pkt ← gdbWriteSram (addr - sramOffset) (0x10000 - (addr - sramOffset)).toNat rest
      liftExcept (gdbGetByte pkt)).run c = .error e

omit [IoDevices δ] in
theorem sram_segment_range
    {addr : Int} (h : sramOffset ≤ addr ∧ addr < eepromOffset) :
  0 ≤ addr - sramOffset ∧ addr - sramOffset < 0x10000
  := by
  rw [sramOffset, eepromOffset] at h
  rw [sramOffset]
  omega

theorem inDataSpace_gdbReadMemory
    (pkt : List Char) {c : AvrCore δ} (hmem : c.mem.xramEnd = 0xffff) :
  InDataSpace (gdbReadMemory pkt) c ↔ ReadFits pkt c
  := by
  rw [gdbReadMemory, ReadFits]
  cases hpkt : gdbGetAddrLen pkt ',' nul with
  | error e =>
    constructor
    · intro _ addr len rest h
      cases h
    · intro _ addr h
      cases h
      apply gdbGetAddrLen_ne pkt ',' nul addr hpkt
  | ok r =>
    obtain ⟨addr, len, rest⟩ := r
    rw [inDataSpace_bind_of_ok (run_liftExcept_ok rfl c)]
    rw [inDataSpace_bind inside_gdbSendReply, gdbReadSegment]
    by_cases hsram : sramOffset ≤ addr ∧ addr < eepromOffset
    · have hrange := sram_segment_range hsram
      rw [if_pos hsram, inDataSpace_gdbReadSram (by omega) _ hmem]
      have hlen : addr - sramOffset + len.toNat ≤ 0x10000 ↔ addr - sramOffset + len ≤ 0x10000
          := by
        omega
      rw [hlen]
      constructor
      · intro h addr' len' rest' heq _
        cases heq
        apply h
      · intro h
        apply h addr len rest rfl hsram
    · rw [if_neg hsram]
      constructor
      · intro _ addr' len' rest' heq hsram'
        cases heq
        contradiction
      · intro _
        split
        · apply inside_gdbReadFlash
        · apply Inside.loop
          intro i buf
          exact Inside.bind (Inside.gets _) fun _ => Inside.pure _

theorem inDataSpace_gdbWriteMemory
    (pkt : List Char) {c : AvrCore δ} (hmem : c.mem.xramEnd = 0xffff) :
  InDataSpace (gdbWriteMemory pkt) c ↔ WriteFits pkt c
  := by
  rw [gdbWriteMemory, WriteFits]
  cases hpkt : gdbGetAddrLen pkt ',' ':' with
  | error e =>
    constructor
    · intro _ addr len rest h
      cases h
    · intro _ addr h
      cases h
      apply gdbGetAddrLen_ne pkt ',' ':' addr hpkt
  | ok r =>
    obtain ⟨addr, len, rest⟩ := r
    rw [inDataSpace_bind_of_ok (run_liftExcept_ok rfl c)]
    rw [inDataSpace_bind (fun _ => inside_gdbSendReply _), gdbWriteSegment]
    by_cases hsram : sramOffset ≤ addr ∧ addr < eepromOffset
    · have hrange := sram_segment_range hsram
      rw [if_pos hsram, inDataSpace_bind fun _ => Inside.pure _]
      rw [inDataSpace_gdbWriteSram (by omega) _ _ hmem]
      have hlen : addr - sramOffset + len.toNat ≤ 0x10000 ↔ addr - sramOffset + len ≤ 0x10000
          := by
        omega
      rw [hlen]
      constructor
      · intro h addr' len' rest' heq _
        cases heq
        apply h
      · intro h
        apply h addr len rest rfl hsram
    · rw [if_neg hsram]
      constructor
      · intro _ addr' len' rest' heq hsram'
        cases heq
        contradiction
      · intro _
        split
        · apply inside_gdbWriteFlash
        · apply Inside.bind _ fun _ => Inside.pure _
          apply Inside.loop
          intro i pkt
          exact Inside.bind (Inside.liftExcept (gdbGetByte_ne _)) fun _ =>
            Inside.bind (Inside.update _) fun _ => Inside.pure _

/-- In a core with a data space of `0x10000` cells, an instruction accesses only cells of it
if and only if its displacement fits, every check for interrupts does, and a packet of the
debugger does if and only if its length fits. -/
theorem data_bounds
    {c : AvrCore δ} (hmem : c.mem.xramEnd = 0xffff) :
  (InDataSpace execNextInstruction c ↔
    ∀ opcode, flashRead c.flash c.pc = .ok opcode → (decodeOpcode opcode).DispFits c) ∧
  InDataSpace avrCoreCheckInterrupts c ∧
  (∀ pkt, InDataSpace (gdbReadMemory pkt) c ↔ ReadFits pkt c) ∧
  ∀ pkt, InDataSpace (gdbWriteMemory pkt) c ↔ WriteFits pkt c
  := by
  refine ⟨inDataSpace_execNextInstruction hmem, inDataSpace_check hmem, ?_, ?_⟩
  · intro pkt
    apply inDataSpace_gdbReadMemory pkt hmem
  · intro pkt
    apply inDataSpace_gdbWriteMemory pkt hmem

end

/-- The instruction `LDD R0, Z+1` in an at90s2313 with Z clear stays in the data space. -/
theorem data_bounds_ldd :
  InDataSpace execNextInstruction (AvrCore.atOpcode 0 0x8001)
  := by
  apply (data_bounds (c := AvrCore.atOpcode 0 0x8001) rfl).1.mpr
  intro opcode h
  have hopcode : opcode = 0x8001 := by
    cases h
    rfl
  rw [hopcode]
  have hdisp : decodeOpcode 0x8001 = ⟨.LDD_Z, 0, 1⟩ := by decide +kernel
  rw [hdisp]
  change (((0 : Byte) ++ (0 : Byte)).toNat : Int) + 1 ≤ 0xffff
  decide

/-- The instruction `LDD R0, Z+1` with Z = `0xffff`, and the packet `m80ffff,2`, leave the data
space. -/
theorem data_bounds_fails :
  ¬ InDataSpace execNextInstruction { AvrCore.atOpcode 0 0x8001 with gpwr := fun _ => 0xff } ∧
  ¬ InDataSpace (gdbReadMemory "80ffff,2".toList) AvrCore.at90s2313
  := by
  constructor
  · intro h
    apply h 0x10000
    rfl
  · intro h
    apply h 0x10000
    rfl

end

end SimulAvr
