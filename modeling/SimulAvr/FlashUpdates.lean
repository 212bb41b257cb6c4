import SimulAvr.Breakpoints
import SimulAvr.GdbServer

/-!
# Flash writes under breakpoints

Writes to the flash by gdb and by SPM, in between the operations on breakpoints.  The
breakpoints keep a copy of the words that BREAK stands for, of which the writers know nothing:
where no write touches the word of a breakpoint, the removal of all breakpoints leaves the
flash that the writes alone would have left (`flash_updates_kept`).
-/

namespace SimulAvr

open Program

section

variable {δ : Type} {c d : AvrCore δ} {l : UniqueList BreakPt.pc} {pc : Int}

/-! ### A core and its shadow -/

/-- The core `c`, with the breakpoints `l`, stands for the flash of `d`. -/
structure Shadowed (l : UniqueList BreakPt.pc) (c d : AvrCore δ) : Prop where
  breakpoints : c.breakpoints = l
  stored : Stored d.flash c
  spmhelper : c.spmhelper = d.spmhelper

namespace Shadowed

/-- A word without a breakpoint is the same. -/
theorem word_eq
    (h : Shadowed l c d) (hpc : ∀ bp ∈ l.entries, bp.pc ≠ pc) :
  c.flash.word pc = d.flash.word pc
  := by
  apply h.stored.patched.free
  rw [h.breakpoints]
  apply hpc

/-- The same change of a word without a breakpoint. -/
theorem of_update
    (h : Shadowed l c d) (hpc : ∀ bp ∈ l.entries, bp.pc ≠ pc) {c' d' : AvrCore δ} (val : Word)
    (hbreakpoints : c'.breakpoints = c.breakpoints) (hspmhelper : c'.spmhelper = d'.spmhelper)
    (hbase : c'.flash.base = c.flash.base ∧ d'.flash.base = d.flash.base)
    (hsize : c'.flash.size = c.flash.size ∧ d'.flash.size = d.flash.size)
    (hword : c'.flash.word = Function.update c.flash.word pc val)
    (hword' : d'.flash.word = Function.update d.flash.word pc val) :
  Shadowed l c' d'
  := by
  constructor
  · rw [hbreakpoints, h.breakpoints]
  · constructor
    · rw [hbase.1, hbase.2, h.stored.base]
    · rw [hsize.1, hsize.2, h.stored.size]
    · intro bp hbp
      rw [hbreakpoints] at hbp
      rw [Flash.Valid, hbase.1, hsize.1]
      apply h.stored.valid bp hbp
    · rw [hword, hword', hbreakpoints]
      apply h.stored.patched.write
      rw [h.breakpoints]
      apply hpc
  · apply hspmhelper

end Shadowed

/-! ### Access to a word without a breakpoint -/

theorem flashRead_respects
    (hpc : ∀ bp ∈ l.entries, bp.pc ≠ pc) :
  Respects (Shadowed l) (avrCoreFlashRead pc : CoreM δ Word)
  := by
  intro c d h
  have hword := h.word_eq hpc
  have hvalid := h.stored.valid_iff pc
  by_cases hpc' : c.flash.Valid pc
  · rw [run_avrCoreFlashRead_of_valid hpc', run_avrCoreFlashRead_of_valid (hvalid.mp hpc')]
    exact ⟨hword, h⟩
  · rw [run_avrCoreFlashRead, run_avrCoreFlashRead, Flash.flashRead_of_not_valid hpc',
      Flash.flashRead_of_not_valid (fun hd => hpc' (hvalid.mpr hd))]
    rfl

theorem flashWrite_respects
    (hpc : ∀ bp ∈ l.entries, bp.pc ≠ pc) (val : Word) :
  Respects (Shadowed l) (avrCoreFlashWrite pc val : CoreM δ Unit)
  := by
  intro c d h
  have hvalid := h.stored.valid_iff pc
  by_cases hpc' : c.flash.Valid pc
  · rw [run_avrCoreFlashWrite_of_valid hpc', run_avrCoreFlashWrite_of_valid (hvalid.mp hpc')]
    refine ⟨rfl, ?_⟩
    refine h.of_update hpc val rfl h.spmhelper ⟨rfl, rfl⟩ ⟨rfl, rfl⟩ ?_ ?_
    · apply Flash.word_setWord
    · apply Flash.word_setWord
  · rw [run_avrCoreFlashWrite, run_avrCoreFlashWrite, Flash.storageWritew_of_not_valid hpc',
      Flash.storageWritew_of_not_valid (fun hd => hpc' (hvalid.mpr hd))]
    rfl

/-- A write of a byte of a word without a breakpoint. -/
theorem Shadowed.setByte
    (h : Shadowed l c d) {addr : Int} (hpc : ∀ bp ∈ l.entries, bp.pc ≠ addr / 2) (val : Byte) :
  Shadowed l { c with flash := c.flash.setByte addr val }
    { d with flash := d.flash.setByte addr val }
  := by
  refine h.of_update hpc _ rfl h.spmhelper ⟨rfl, rfl⟩ ⟨rfl, rfl⟩ (Flash.word_setByte _ _ _) ?_
  rw [Flash.word_setByte_congr (h.word_eq hpc)]
  apply Flash.word_setByte

theorem flashWriteLo8_respects
    (hpc : ∀ bp ∈ l.entries, bp.pc ≠ pc) (val : Byte) :
  Respects (Shadowed l) (avrCoreFlashWriteLo8 pc val : CoreM δ Unit)
  := by
  intro c d h
  rw [avrCoreFlashWriteLo8, run_bind_of_ok (run_gets _ c), run_bind_of_ok (run_gets _ d)]
  by_cases hin : 0 ≤ pc * 2 + 1 - c.flash.base ∧ pc * 2 + 1 - c.flash.base < c.flash.size
  · have hin' := hin
    rw [h.stored.base, h.stored.size] at hin'
    rw [run_bind_of_ok (run_liftExcept_ok (Flash.storageWriteb_low hin val) c),
      run_bind_of_ok (run_liftExcept_ok (Flash.storageWriteb_low hin' val) d)]
    refine ⟨rfl, h.setByte ?_ val⟩
    rw [Int.mul_ediv_cancel_left _ (by decide)]
    apply hpc
  · have hout (f : Flash) (hf : ¬ (0 ≤ pc * 2 + 1 - f.base ∧ pc * 2 + 1 - f.base < f.size)) :
        storageWriteb f (pc * 2 + 1) val
          = .error (.message "address out of bounds: 0x%x" [pc * 2 + 1]) := by
      apply if_pos
      omega
    have hin' := hin
    rw [h.stored.base, h.stored.size] at hin'
    rw [run_bind_of_error (run_liftExcept_error (hout _ hin) c),
      run_bind_of_error (run_liftExcept_error (hout _ hin') d)]

theorem flashWriteHi8_respects
    (hpc : ∀ bp ∈ l.entries, bp.pc ≠ pc) (val : Byte) :
  Respects (Shadowed l) (avrCoreFlashWriteHi8 pc val : CoreM δ Unit)
  := by
  intro c d h
  have hvalid := h.stored.valid_iff pc
  rw [avrCoreFlashWriteHi8, run_bind_of_ok (run_gets _ c), run_bind_of_ok (run_gets _ d)]
  by_cases hin : c.flash.Valid pc
  · rw [run_bind_of_ok (run_liftExcept_ok (Flash.storageWriteb_high hin val) c),
      run_bind_of_ok (run_liftExcept_ok (Flash.storageWriteb_high (hvalid.mp hin) val) d)]
    refine ⟨rfl, h.setByte ?_ val⟩
    rw [show (2 * pc + 1) / 2 = pc by omega]
    apply hpc
  · have hout (f : Flash) (hf : ¬ f.Valid pc) :
        storageWriteb f (pc * 2) val
          = .error (.message "address out of bounds: 0x%x" [pc * 2]) := by
      rw [Flash.Valid] at hf
      apply if_pos
      omega
    rw [run_bind_of_error (run_liftExcept_error (hout _ hin) c),
      run_bind_of_error (run_liftExcept_error (hout _ (fun hd => hin (hvalid.mpr hd))) d)]

/-- The relation `R` is respected by accesses to the words `free` of the flash, and by changes
of SPMCSR and the page buffer. -/
structure FlashRelation (R : AvrCore δ → AvrCore δ → Prop) (free : Int → Prop) : Prop where
  read : ∀ pc, free pc → Respects R (avrCoreFlashRead pc)
  write : ∀ pc val, free pc → Respects R (avrCoreFlashWrite pc val)
  writeLo8 : ∀ pc val, free pc → Respects R (avrCoreFlashWriteLo8 pc val)
  writeHi8 : ∀ pc val, free pc → Respects R (avrCoreFlashWriteHi8 pc val)
  spmhelper : ∀ c d, R c d → c.spmhelper = d.spmhelper
  setSpm : ∀ pageBuffer spmcsr, Respects R (update fun c =>
    { c with spmhelper := { c.spmhelper with pageBuffer := pageBuffer, spmcsr := spmcsr } })

/-- The words without a breakpoint are free. -/
theorem Shadowed.flashRelation
    (l : UniqueList BreakPt.pc) :
  FlashRelation (Shadowed (δ := δ) l) (fun pc => ∀ bp ∈ l.entries, bp.pc ≠ pc)
  := by
  constructor
  · intro pc hpc
    apply flashRead_respects hpc
  · intro pc val hpc
    apply flashWrite_respects hpc
  · intro pc val hpc
    apply flashWriteLo8_respects hpc
  · intro pc val hpc
    apply flashWriteHi8_respects hpc
  · intro c d h
    apply h.spmhelper
  · intro pageBuffer spmcsr
    apply update_respects
    intro c d h
    refine ⟨h.breakpoints, ?_, ?_⟩
    · exact ⟨h.stored.base, h.stored.size, h.stored.valid, h.stored.patched⟩
    · simp only [h.spmhelper]

/-! ### The writers -/

/-- The words that `gdb_write_memory` writes in flash, after an odd byte. -/
def TouchesEven (addr : Int) (len : Nat) (pc : Int) : Prop :=
  addr / 2 ≤ pc ∧ 2 * pc < addr + len

/-- The words that `gdb_write_memory` writes in flash. -/
def TouchesFlash (addr len : Int) (pc : Int) : Prop :=
  if addr % 2 = 1 then
    pc = addr.tdiv 2 ∨ TouchesEven (addr + 1) (len - 1).toNat pc
  else
    TouchesEven addr len.toNat pc

section

variable {R : AvrCore δ → AvrCore δ → Prop} {free : Int → Prop} (hR : FlashRelation R free)

include hR

theorem gdbWriteFlashEven_respects
    {addr : Int} (heven : addr % 2 = 0) {len : Nat} (hfree : ∀ pc, TouchesEven addr len pc → free pc)
    (pkt : List Char) :
  Respects R (gdbWriteFlashEven addr len pkt : CoreM δ Unit)
  := by
  rw [gdbWriteFlashEven]
  apply Respects.bind
  · apply Respects.loop
    intro pc pkt hlow hhigh
    apply Respects.bind (liftExcept_respects _)
    rintro ⟨low, pkt⟩
    apply Respects.bind (liftExcept_respects _)
    rintro ⟨high, pkt⟩
    apply Respects.bind _ fun _ => Respects.pure _
    apply hR.write
    apply hfree pc
    use hlow
    omega
  · intro pkt
    apply Respects.ite
    · intro hodd
      apply Respects.bind (liftExcept_respects _)
      rintro ⟨bval, pkt⟩
      apply hR.writeLo8
      apply hfree
      constructor
      · omega
      · omega
    · intro _
      apply Respects.pure

theorem gdbWriteFlash_respects
    {addr len : Int} (hfree : ∀ pc, TouchesFlash addr len pc → free pc) (pkt : List Char) :
  Respects R (gdbWriteFlash addr len pkt : CoreM δ Unit)
  := by
  rw [gdbWriteFlash]
  apply Respects.ite
  · intro hodd
    simp only [TouchesFlash, if_pos hodd] at hfree
    apply Respects.bind (liftExcept_respects _)
    rintro ⟨bval, pkt⟩
    apply Respects.bind
    · apply hR.writeHi8
      apply hfree
      left
      rfl
    · intro _
      apply gdbWriteFlashEven_respects hR (by omega)
      intro pc htouch
      apply hfree
      right
      apply htouch
  · intro heven
    simp only [TouchesFlash, if_neg heven] at hfree
    apply gdbWriteFlashEven_respects hR (by omega) hfree

theorem spmErase_respects
    {addr : Int} {n : Nat} (hfree : ∀ pc, addr ≤ pc → pc < addr + n → free pc) :
  Respects R (spmErase addr n : CoreM δ Unit)
  := by
  induction n generalizing addr with
  | zero => apply Respects.pure
  | succ n ih =>
    apply Respects.bind
    · apply hR.write
      apply hfree
      · apply Int.le_refl
      · omega
    · intro _
      apply ih
      intro pc hlow hhigh
      apply hfree
      · omega
      · omega

theorem spmWritePage_respects
    {Z i : Int} {n : Nat} (hfree : ∀ pc, Z + i ≤ pc → pc < Z + i + n → free pc) :
  Respects R (spmWritePage Z i n : CoreM δ Unit)
  := by
  induction n generalizing i with
  | zero => apply Respects.pure
  | succ n ih =>
    have hword : free (Z + i) := by
      apply hfree
      · apply Int.le_refl
      · omega
    apply Respects.bind (hR.read _ hword)
    intro f
    apply Respects.bind
    · apply gets_respects hR.spmhelper
    · intro spmhelper
      apply Respects.bind (hR.write _ _ hword)
      intro _
      apply ih
      intro pc hlow hhigh
      apply hfree
      · omega
      · omega

theorem spmDone_respects
    (pageBuffer : Int → Byte) :
  Respects R (spmDone pageBuffer : CoreM δ Unit)
  := hR.setSpm pageBuffer 0

/-- The rest of `spm_run`, for a known SPMCSR. -/
theorem spmRun_coupled
    {spmcsr : Byte} {Z : Nat}
    (hfree : spmcsr = 0x03 ∨ spmcsr = 0x05 → ∀ pc : Int,
      ((Z >>> 1) &&& 0xff80 : Nat) ≤ pc → pc < ((Z >>> 1) &&& 0xff80 : Nat) + 128 → free pc)
    (reg0 reg1 : Byte) :
  Coupled (fun c d => R c d ∧ c.spmhelper.spmcsr = spmcsr)
    (spmRun reg0 reg1 Z : CoreM δ Unit) (spmRun reg0 reg1 Z) (fun a c b d => a = b ∧ R c d)
  := by
  rintro c d ⟨h, rfl⟩
  rw [spmRun, run_bind_of_ok (run_gets _ c), run_bind_of_ok (run_gets _ d), ← hR.spmhelper c d h]
  revert h
  generalize hspm : c.spmhelper = spm at hfree
  intro h
  have hrest : Respects R (
      if spm.spmcsr = 0x11 then
        spmDone (fun i => if 0 ≤ i ∧ i < 256 then 0xff else spm.pageBuffer i)
      else if spm.spmcsr = 0x01 then
        spmDone (Function.update (Function.update spm.pageBuffer (Z &&& 0xfe : Nat) reg0)
          ((Z &&& 0xfe : Nat) + 1) reg1)
      else if spm.spmcsr = 0x03 then do
        spmErase ((Z >>> 1) &&& 0xff80 : Nat) 128
        spmDone spm.pageBuffer
      else if spm.spmcsr = 0x05 then do
        spmWritePage ((Z >>> 1) &&& 0xff80 : Nat) 0 128
        spmDone spm.pageBuffer
      else
        avrError "SPM unknown operation %02x\n" [spm.spmcsr.toNat] : CoreM δ Unit) := by
    apply Respects.ite (fun _ => spmDone_respects hR _)
    intro _
    apply Respects.ite (fun _ => spmDone_respects hR _)
    intro _
    apply Respects.ite
    · intro herase
      apply Respects.bind _ fun _ => spmDone_respects hR _
      apply spmErase_respects hR
      apply hfree
      left
      apply herase
    · intro _
      apply Respects.ite
      · intro hwrite
        apply Respects.bind _ fun _ => spmDone_respects hR _
        apply spmWritePage_respects hR
        rw [Int.add_zero]
        apply hfree
        right
        apply hwrite
      · intro _
        apply Respects.throw
  apply hrest c d h

end

end

/-! ### Sequences of writes and operations on breakpoints -/

/-- A write to the flash. -/
inductive FlashWrite where
  /-- `gdb_write_memory` for the packet `pkt` -/
  | packet (pkt : List Char)
  /-- `spm_run`, with SPMCSR and the page buffer as given -/
  | spm (spmcsr : Byte) (pageBuffer : Int → Byte) (reg0 reg1 : Byte) (Z : Nat)

namespace FlashWrite

/-- The address of a packet is in flash. -/
def InFlash : FlashWrite → Prop
  | packet pkt => ∀ addr len rest, gdbGetAddrLen pkt ',' ':' = .ok (addr, len, rest) →
      addr < sramOffset
  | spm _ _ _ _ _ => True

/-- The write changes the word at `pc`. -/
def Touches (pc : Int) : FlashWrite → Prop
  | packet pkt => ∃ addr len rest, gdbGetAddrLen pkt ',' ':' = .ok (addr, len, rest) ∧
      TouchesFlash addr len pc
  | spm spmcsr _ _ _ Z => (spmcsr = 0x03 ∨ spmcsr = 0x05) ∧
      ((Z >>> 1) &&& 0xff80 : Nat) ≤ pc ∧ pc < ((Z >>> 1) &&& 0xff80 : Nat) + 128

end FlashWrite

section

variable {δ : Type} [IoDevices δ] {c c' d : AvrCore δ} {l : UniqueList BreakPt.pc}

/-- The write as a program of the core. -/
def FlashWrite.program : FlashWrite → CoreM δ Unit
  | packet pkt => do
    let _ ← gdbWriteMemory pkt
  | spm spmcsr pageBuffer reg0 reg1 Z => do
    update fun c =>
      { c with spmhelper := { c.spmhelper with pageBuffer := pageBuffer, spmcsr := spmcsr } }
    spmRun reg0 reg1 Z

/-- A write that touches free words. -/
theorem FlashWrite.program_respects
    {R : AvrCore δ → AvrCore δ → Prop} {free : Int → Prop} (hR : FlashRelation R free)
    {w : FlashWrite} (hflash : w.InFlash) (hfree : ∀ pc, w.Touches pc → free pc) :
  Respects R (w.program : CoreM δ Unit)
  := by
  cases w with
  | packet pkt =>
    apply Respects.bind _ fun _ => Respects.pure _
    rw [gdbWriteMemory]
    cases hparse : gdbGetAddrLen pkt ',' ':' with
    | error e => apply Respects.throw
    | ok r =>
      obtain ⟨addr, len, rest⟩ := r
      have haddr := hflash addr len rest hparse
      have hnot : ¬ (sramOffset ≤ addr ∧ addr < eepromOffset) := by omega
      have hwrite : Respects R (gdbWriteSegment addr len rest : CoreM δ Unit) := by
        rw [gdbWriteSegment, if_neg hnot, if_pos haddr]
        apply gdbWriteFlash_respects hR
        intro pc htouch
        apply hfree
        use addr, len, rest
      have hreply : Respects R (gdbSendReply "OK".toList : CoreM δ (List Char)) :=
        Respects.bind (avrErrorIf_respects _ _ _) fun _ => Respects.pure _
      intro c d h
      exact Respects.bind hwrite (fun _ => hreply) c d h
  | spm spmcsr pageBuffer reg0 reg1 Z =>
    apply Coupled.bind (Q := fun _ c _ d => R c d ∧ c.spmhelper.spmcsr = spmcsr)
    · apply (hR.setSpm pageBuffer spmcsr).strengthen
      rintro c d _ c' _ d' - hc - ⟨-, h⟩
      cases hc
      exact ⟨h, rfl⟩
    · intro _ _
      apply spmRun_coupled hR
      intro hwrites pc hlow hhigh
      apply hfree
      exact ⟨hwrites, hlow, hhigh⟩

/-- An operation on breakpoints, or a write to the flash. -/
inductive FlashOp where
  | breakpoint (op : BpOp)
  | write (w : FlashWrite)

namespace FlashOp

def program : FlashOp → CoreM δ Unit
  | breakpoint op => op.program
  | write w => w.program

/-- The write touches no word of a breakpoint of the core. -/
def Clear (c : AvrCore δ) : FlashOp → Prop
  | breakpoint _ => True
  | write w => ∀ bp ∈ c.breakpoints.entries, ¬ w.Touches bp.pc

end FlashOp

/-- The operations of a list, one after the other. -/
def flashProgram : List FlashOp → CoreM δ Unit
  | [] => return ()
  | op :: ops => do
    op.program
    flashProgram ops

/-- In the run of the operations from a core, every write is clear of the breakpoints. -/
def ClearRun : List FlashOp → AvrCore δ → Prop
  | [], _ => True
  | op :: ops, c => op.Clear c ∧ ∀ c', op.program.run c = .ok ((), c') → ClearRun ops c'

/-- The writes among the operations. -/
def writesOf : List FlashOp → List FlashOp
  | [] => []
  | .breakpoint _ :: ops => writesOf ops
  | .write w :: ops => .write w :: writesOf ops

omit [IoDevices δ] in
/-- An operation on breakpoints leaves the shadow of the core. -/
theorem BpOp.program_shadowed
    {op : BpOp} (h : Shadowed c.breakpoints c d) (hrun : op.program.run c = .ok ((), c')) :
  Shadowed c'.breakpoints c' d
  := by
  have hbare : c'.bare = c.bare := (op.program_bare c.bare).of_ok rfl hrun
  have hspm : c'.bare.spmhelper = c.bare.spmhelper := by rw [hbare]
  constructor
  · rfl
  · apply BpOp.program_stored h.stored hrun
  · apply hspm.trans h.spmhelper

/-- The operations on a core, and the writes among them on its shadow. -/
theorem flashProgram_shadowed
    {ops : List FlashOp} (hflash : ∀ w, .write w ∈ ops → w.InFlash) (hclear : ClearRun ops c)
    (h : Shadowed c.breakpoints c d) (hrun : (flashProgram ops).run c = .ok ((), c')) :
  ∃ d', (flashProgram (writesOf ops)).run d = .ok ((), d') ∧ Shadowed c'.breakpoints c' d'
  := by
  induction ops generalizing c d with
  | nil =>
    cases hrun
    exact ⟨d, rfl, h⟩
  | cons op ops ih =>
    obtain ⟨⟨⟩, c₁, hop, hrest⟩ := run_bind_eq_ok.mp hrun
    have hflash' : ∀ w, .write w ∈ ops → w.InFlash :=
      fun w hw => hflash w (List.mem_cons_of_mem _ hw)
    have hclear' := hclear.2 c₁ hop
    cases op with
    | breakpoint op => apply ih hflash' hclear' (BpOp.program_shadowed h hop) hrest
    | write w =>
      have hfree (pc : Int) (htouch : w.Touches pc) : ∀ bp ∈ c.breakpoints.entries, bp.pc ≠ pc := by
        rintro bp hbp rfl
        apply hclear.1 bp hbp htouch
      have hw := FlashWrite.program_respects (Shadowed.flashRelation _)
        (hflash w (List.mem_cons_self ..)) hfree c d h
      change w.program.run c = .ok ((), c₁) at hop
      rw [hop] at hw
      cases hd : w.program.run d with
      | error e =>
        rw [hd] at hw
        contradiction
      | ok r =>
        obtain ⟨⟨⟩, d₁⟩ := r
        rw [hd] at hw
        obtain ⟨-, h₁⟩ := hw
        have hlist := h₁.breakpoints
        rw [← hlist] at h₁
        obtain ⟨d', hrun', h'⟩ := ih hflash' hclear' h₁ hrest
        refine ⟨d', ?_, h'⟩
        rw [writesOf, flashProgram, FlashOp.program, run_bind_of_ok hd, hrun']

/-- In a run in which no write touches the word of a breakpoint, the removal of all breakpoints
leaves the flash that the writes alone leave. -/
theorem flash_updates_kept
    {ops : List FlashOp} (hnil : c.breakpoints.entries = [])
    (hflash : ∀ w, .write w ∈ ops → w.InFlash) (hclear : ClearRun ops c)
    (hrun : (flashProgram ops).run c = .ok ((), c')) :
  ∃ d, (flashProgram (writesOf ops)).run c = .ok ((), d) ∧
    ∀ pcs : List Int, (∀ bp ∈ c'.breakpoints.entries, bp.pc ∈ pcs) →
      ∃ c'', (bpProgram (pcs.map .remove)).run c' = .ok ((), c'') ∧ c''.flash = d.flash ∧
        c''.breakpoints.entries = []
  := by
  obtain ⟨d, hrun', h⟩ := flashProgram_shadowed hflash hclear ⟨rfl, .refl hnil, rfl⟩ hrun
  use d, hrun'
  intro pcs hpcs
  apply remove_all_spec h.stored hpcs

end

/-- A word that gdb writes while a breakpoint is at it is lost when the breakpoint is
removed. -/
theorem flash_updates_lost :
  ((flashProgram [.breakpoint (.insert 3), .write (.packet "6,2:3412".toList),
      .breakpoint (.remove 3)]).run AvrCore.at90s2313).toOption.map
        (fun r => (r.2.flash.word 3, r.2.breakpoints.entries.length)) = some (0xffff, 0) ∧
    ((flashProgram [.write (.packet "6,2:3412".toList)]).run AvrCore.at90s2313).toOption.map
        (fun r => r.2.flash.word 3) = some 0x1234
  := by
  decide +kernel


/-- A word that gdb writes next to a breakpoint is kept. -/
theorem flash_updates_kept_next :
  ∃ (c' d c'' : AvrCore Unit) (pcs : List Int),
    (flashProgram [.breakpoint (.insert 3), .write (.packet "8,2:3412".toList)]).run
      AvrCore.at90s2313 = .ok ((), c') ∧
    (flashProgram [.write (.packet "8,2:3412".toList)]).run AvrCore.at90s2313 = .ok ((), d) ∧
    (bpProgram (pcs.map .remove)).run c' = .ok ((), c'') ∧ c''.breakpoints.entries = [] ∧
    c''.flash = d.flash
  := by
  have hparse : gdbGetAddrLen "8,2:3412".toList ',' ':' = .ok (8, 2, "3412".toList) := by
    rfl
  have hvalid : AvrCore.at90s2313.flash.Valid 3 := by decide
  have hflash : (FlashWrite.packet "8,2:3412".toList).InFlash := by
    intro addr len rest h
    rw [hparse] at h
    cases h
    decide
  have htouch : ¬ (FlashWrite.packet "8,2:3412".toList).Touches 3 := by
    rintro ⟨addr, len, rest, h, htouch⟩
    rw [hparse] at h
    cases h
    obtain ⟨hlow, -⟩ := htouch
    contradiction
  have hclear : ClearRun [.breakpoint (.insert 3), .write (.packet "8,2:3412".toList)]
      AvrCore.at90s2313 := by
    refine ⟨trivial, ?_⟩
    intro c' hrun
    have hinsert := run_avrCoreInsertBreakpoint hvalid
    change (avrCoreInsertBreakpoint 3).run AvrCore.at90s2313 = _ at hrun
    rw [hinsert] at hrun
    cases hrun
    refine ⟨?_, fun _ _ => trivial⟩
    intro bp hbp
    obtain rfl := List.mem_singleton.mp hbp
    apply htouch
  have hok : ((flashProgram [.breakpoint (.insert 3), .write (.packet "8,2:3412".toList)]).run
      AvrCore.at90s2313).isOk = true := by
    decide +kernel
  cases hrun : (flashProgram [.breakpoint (.insert 3), .write (.packet "8,2:3412".toList)]).run
      AvrCore.at90s2313 with
  | error e =>
    rw [hrun] at hok
    contradiction
  | ok r =>
    obtain ⟨⟨⟩, c'⟩ := r
    obtain ⟨d, hd, hall⟩ := flash_updates_kept rfl (by simpa using hflash) hclear hrun
    obtain ⟨c'', hremove, heq, hnone⟩ := hall (c'.breakpoints.entries.map BreakPt.pc)
      fun bp hbp => List.mem_map_of_mem hbp
    exact ⟨c', d, c'', _, rfl, hd, hremove, hnone, heq⟩

end SimulAvr
