import SimulAvr.StackMemory
import SimulAvr.FlashProgramming
import SimulAvr.WordImmediate

/-!
# Walks of a pointer register

Instructions that move their pointer, executed one after the other.  Bytes that ST P+ stores
are what LD -P finds on the way back; LD P+ loads the bytes of a range of the SRAM, and LPM Z+
and ELPM Z+ those of a range of the flash, where Z and RAMPZ:Z begin again at zero
(`pointer_walks`).
-/

namespace SimulAvr

open Program

/-! ### The pointers -/

/-- A pointer register -/
inductive Pointer where
  | X
  | Y
  | Z
  deriving DecidableEq

namespace Pointer

/-- The low register of the pair -/
def low : Pointer → BitVec 5
  | X => 26
  | Y => 28
  | Z => 30

/-- The high register of the pair -/
def high : Pointer → BitVec 5
  | X => 27
  | Y => 29
  | Z => 31

/-- A register outside of the pair -/
abbrev Reg (P : Pointer) : Type :=
  { r : BitVec 5 // r ≠ P.low ∧ r ≠ P.high }

theorem low_ne_high
    (P : Pointer) :
  P.low ≠ P.high
  := by
  cases P <;> decide

theorem high_val
    (P : Pointer) :
  P.high.toFin.val = P.low.toFin.val + 1
  := by
  cases P <;> rfl

/-- The opcode of `ST P+, Rr` -/
def stIncrOpcode : Pointer → OpcodeName
  | X => .ST_X_incr
  | Y => .ST_Y_incr
  | Z => .ST_Z_incr

/-- The opcode of `LD Rd, -P` -/
def ldDecrOpcode : Pointer → OpcodeName
  | X => .LD_X_decr
  | Y => .LD_Y_decr
  | Z => .LD_Z_decr

/-- The opcode of `LD Rd, P+` -/
def ldIncrOpcode : Pointer → OpcodeName
  | X => .LD_X_incr
  | Y => .LD_Y_incr
  | Z => .LD_Z_incr

/-- `ST P+, Rr` -/
def stIncr (P : Pointer) (r : P.Reg) : Instr where
  func := P.stIncrOpcode
  operands := .rd5 r.val
  known := by cases P <;> nofun
  form := by cases P <;> rfl
  words := ⟨nofun, fun h => absurd h (by cases P <;> decide)⟩

/-- `LD Rd, -P` -/
def ldDecr (P : Pointer) (r : P.Reg) : Instr where
  func := P.ldDecrOpcode
  operands := .rd5 r.val
  known := by cases P <;> nofun
  form := by cases P <;> rfl
  words := ⟨nofun, fun h => absurd h (by cases P <;> decide)⟩

/-- `LD Rd, P+` -/
def ldIncr (P : Pointer) (r : P.Reg) : Instr where
  func := P.ldIncrOpcode
  operands := .rd5 r.val
  known := by cases P <;> nofun
  form := by cases P <;> rfl
  words := ⟨nofun, fun h => absurd h (by cases P <;> decide)⟩

/-- `LPM Rd, Z+` -/
def lpmIncr (r : Z.Reg) : Instr where
  func := .LPM_Z_incr
  operands := .rd5 r.val
  known := nofun
  form := rfl
  words := ⟨nofun, fun h => absurd h (by decide)⟩

/-- `ELPM Rd, Z+` -/
def elpmIncr (r : Z.Reg) : Instr where
  func := .ELPM_Z_incr
  operands := .rd5 r.val
  known := nofun
  form := rfl
  words := ⟨nofun, fun h => absurd h (by decide)⟩

end Pointer

section

variable {δ : Type}

/-- The value of a pointer register -/
def AvrCore.pointer (c : AvrCore δ) (P : Pointer) : Word :=
  c.register P.high ++ c.register P.low

/-- RAMPZ:Z -/
def AvrCore.extendedZ (c : AvrCore δ) : Nat :=
  (c.rampzGet &&& 0x3f).toNat * 2 ^ 16 + (c.pointer .Z).toNat

/-- The number of values of RAMPZ:Z, which is Z where a device has no RAMPZ -/
def AvrCore.extendedSize (c : AvrCore δ) : Nat :=
  if c.hasRampz then 2 ^ 22 else 2 ^ 16

/-- The core with the pair of `P` at `X`, and other messages to the display -/
def AvrCore.setPointer (c : AvrCore δ) (P : Pointer) (X : Word) : AvrCore δ :=
  (c.gpwrSet P.low.toFin (X.extractLsb' 0 8)).gpwrSet P.high.toFin (X.extractLsb' 8 8)

section

variable (c : AvrCore δ) (P : Pointer) (X : Word)

theorem register_gpwrSet
    (r s : BitVec 5) (val : Byte) :
  (c.gpwrSet r.toFin val).register s = if s = r then val else c.register s
  := by
  change Function.update c.gpwr r.toFin val s.toFin = _
  split
  · next heq =>
    rw [heq]
    apply Function.update_self
  · next hne =>
    apply Function.update_of_ne
    intro heq
    apply hne (BitVec.eq_of_toFin_eq heq)

theorem register_setPointer
    {s : BitVec 5} (hlow : s ≠ P.low) (hhigh : s ≠ P.high) :
  (c.setPointer P X).register s = c.register s
  := by
  rw [AvrCore.setPointer, register_gpwrSet, if_neg hhigh, register_gpwrSet, if_neg hlow]

theorem pointer_setPointer :
  (c.setPointer P X).pointer P = X
  := by
  rw [AvrCore.pointer, AvrCore.setPointer, register_gpwrSet, if_pos rfl, register_gpwrSet,
    if_neg P.low_ne_high, register_gpwrSet, if_pos rfl]
  apply extractLsb'_append_self

theorem pointer_gpwrSet
    (r : P.Reg) (val : Byte) :
  (c.gpwrSet r.val.toFin val).pointer P = c.pointer P
  := by
  rw [AvrCore.pointer, register_gpwrSet, if_neg r.property.2.symm, register_gpwrSet,
    if_neg r.property.1.symm]
  rfl

theorem run_pointerGet_pointer :
  (pointerGet P.low.toFin.val).run c = .ok (c.pointer P, c)
  := run_pointerGet P.low.toFin P.high.toFin P.high_val c

theorem run_pointerSet :
  (pointerSet P.low.toFin.val X).run c = .ok ((), c.setPointer P X)
  := by
  have hhigh : ((P.low.toFin.val : Int) + 1) = P.high.toFin.val := by
    rw [P.high_val]
    rfl
  rw [pointerSet, hhigh, run_bind_of_ok (run_avrCoreGpwrSet c _ _), run_avrCoreGpwrSet]
  rfl

theorem run_avrErrorIf_pair
    (r : P.Reg) (msg : String) (args : List Int) :
  (avrErrorIf ((r.val.toFin.val : Int) = P.low.toFin.val ∨
    (r.val.toFin.val : Int) = P.low.toFin.val + 1) msg args).run c = .ok ((), c)
  := by
  apply run_avrErrorIf_neg
  have hval {s : BitVec 5} (h : r.val.toFin.val = s.toFin.val) : r.val = s :=
    BitVec.eq_of_toFin_eq (Fin.ext h)
  have hhigh := P.high_val
  rintro (heq | heq)
  · apply r.property.1 (hval (by omega))
  · apply r.property.2 (hval (by omega))

end

/-! ### What a walk leaves alone -/

/-- The core `c'` is `c` with other values of the pair `P`, the registers `regs` and RAMPZ, other
bytes in the SRAM, and another program counter. -/
structure Walks (P : Pointer) (regs : List P.Reg) (c c' : AvrCore δ) : Prop where
  rest : c' = { c with
    gpwr := c'.gpwr, rampz := c'.rampz, sram := { c.sram with data := c'.sram.data },
    pc := c'.pc, instCKS := c'.instCKS, display := c'.display }
  register : ∀ s, s ≠ P.low → s ≠ P.high → s ∉ regs.map (·.val) → c'.register s = c.register s

namespace Walks

variable {P : Pointer} {regs regs' : List P.Reg} {c c' c'' : AvrCore δ}

theorem refl :
  Walks P regs c c
  := ⟨rfl, fun _ _ _ _ => rfl⟩

theorem trans
    (h : Walks P regs c c') (h' : Walks P regs' c' c'') :
  Walks P (regs ++ regs') c c''
  := by
  constructor
  · have hrest' := h'.rest
    rw [h.rest] at hrest'
    exact hrest'
  · intro s hlow hhigh hs
    rw [List.map_append, List.mem_append, not_or] at hs
    rw [h'.register s hlow hhigh hs.2, h.register s hlow hhigh hs.1]

theorem layout
    (h : Walks P regs c c') :
  c'.layout = c.layout
  := by
  rw [h.rest]
  rfl

theorem flash
    (h : Walks P regs c c') :
  c'.flash = c.flash
  := by
  rw [h.rest]

end Walks

/-! ### One instruction -/

/-- The core after the last two statements of a handler -/
def AvrCore.nextInst (c : AvrCore δ) (cks : Int) : AvrCore δ :=
  { c.pcIncr 1 with instCKS := cks }

theorem run_nextInst
    (name : OpcodeName) (cks : Int) (c : AvrCore δ) :
  (nextInst name cks).run c = .ok (.opcode name, c.nextInst cks)
  := rfl

variable {P : Pointer} [IoDevices δ]

theorem execOpcode_first
    (i : Instr) :
  (execOpcode i.first : CoreM δ OpRet)
    = i.func.handler i.first i.operands.arg1 i.operands.arg2
  := by
  rw [execOpcode, show decodeOpcode i.first = i.info from decode_encode i]
  rfl

/-- The instruction of a walk completes in `c` and leaves the core `c'`. -/
def Executes (i : Instr) (c c' : AvrCore δ) : Prop :=
  ∃ ret, (execOpcode i.first).run c = .ok (ret, c')

/-- `ST P+, Rr` -/
theorem exec_stIncr
    {c : AvrCore δ} (h : c.layout.IsSram (c.pointer P)) (r : P.Reg) :
  ∃ c', Executes (P.stIncr r) c c' ∧ c'.pointer P = c.pointer P + 1 ∧ Walks P [] c c' ∧
    c'.rampz = c.rampz ∧
    ∀ a, c'.sramByte a = if a = c.pointer P then c.register r.val else c.sramByte a
  := by
  obtain ⟨display, hwrite⟩ := memWrite_sram h (c.register r.val)
  have hbyte := fun a => sramByte_update c (c.pointer P) a (c.register r.val) display
  generalize hc₁ : c.withSram _ display = c₁ at hwrite hbyte
  use (c₁.setPointer P (c.pointer P + 1)).nextInst 2
  refine ⟨⟨.opcode P.stIncrOpcode, ?_⟩, ?_, ⟨?_, ?_⟩, ?_, hbyte⟩
  · have hhandler : (execOpcode (P.stIncr r).first : CoreM δ OpRet)
        = stIncr P.stIncrOpcode P.low.toFin.val (P.stIncr r).first r.val.toFin.val := by
      rw [execOpcode_first]
      cases P <;> rfl
    rw [hhandler, stIncr, run_bind_of_ok (run_avrErrorIf_pair c P r _ _),
      run_bind_of_ok (run_pointerGet_pointer c P), run_bind_of_ok (run_avrCoreGpwrGet c _)]
    apply (run_bind_of_ok hwrite).trans
    rw [run_bind_of_ok (run_pointerSet c₁ P _), run_nextInst]
  · apply pointer_setPointer
  · rw [← hc₁]
    rfl
  · intro s hlow hhigh _
    rw [← hc₁]
    apply register_setPointer _ P _ hlow hhigh
  · rw [← hc₁]
    rfl

/-- What a load through `P` into `r` leaves: the byte in `r`, and the pointer at `X` -/
structure LoadEffect (P : Pointer) (r : P.Reg) (X : Word) (val : Byte) (c c' : AvrCore δ) :
    Prop where
  pointer : c'.pointer P = X
  loaded : c'.register r.val = val
  walks : Walks P [r] c c'
  rampz : c'.rampz = c.rampz
  sram : c'.sram = c.sram

omit [IoDevices δ] in
/-- The load of a byte, before the pointer moves -/
theorem loadEffect_before
    (c : AvrCore δ) (r : P.Reg) (X : Word) (val : Byte) (cks : Int) :
  LoadEffect P r X val c (((c.gpwrSet r.val.toFin val).setPointer P X).nextInst cks)
  := by
  constructor
  · apply pointer_setPointer
  · apply (register_setPointer _ P X r.property.1 r.property.2).trans
    rw [register_gpwrSet, if_pos rfl]
  · constructor
    · rfl
    · intro s hlow hhigh hs
      apply (register_setPointer _ P X hlow hhigh).trans
      rw [register_gpwrSet, if_neg (by simpa using hs)]
  · rfl
  · rfl

omit [IoDevices δ] in
/-- The load of a byte, after the pointer has moved -/
theorem loadEffect_after
    (c : AvrCore δ) (r : P.Reg) (X : Word) (val : Byte) (cks : Int) :
  LoadEffect P r X val c (((c.setPointer P X).gpwrSet r.val.toFin val).nextInst cks)
  := by
  constructor
  · apply (pointer_gpwrSet _ P r val).trans
    apply pointer_setPointer
  · apply (register_gpwrSet _ _ _ val).trans
    rw [if_pos rfl]
  · constructor
    · rfl
    · intro s hlow hhigh hs
      apply (register_gpwrSet _ _ _ val).trans
      rw [if_neg (by simpa using hs)]
      apply register_setPointer _ P X hlow hhigh
  · rfl
  · rfl

/-- `LD Rd, P+` -/
theorem exec_ldIncr
    {c : AvrCore δ} (h : c.layout.IsSram (c.pointer P)) (r : P.Reg) :
  ∃ c', Executes (P.ldIncr r) c c' ∧
    LoadEffect P r (c.pointer P + 1) (c.sramByte (c.pointer P)) c c'
  := by
  refine ⟨_, ⟨.opcode P.ldIncrOpcode, ?_⟩, loadEffect_before c r _ _ 2⟩
  have hhandler : (execOpcode (P.ldIncr r).first : CoreM δ OpRet)
      = ldIncr P.ldIncrOpcode P.low.toFin.val r.val.toFin.val := by
    rw [execOpcode_first]
    cases P <;> rfl
  rw [hhandler, ldIncr, run_bind_of_ok (run_avrErrorIf_pair c P r _ _),
    run_bind_of_ok (run_pointerGet_pointer c P), run_bind_of_ok (memRead_sram h),
    run_bind_of_ok (run_avrCoreGpwrSet c _ _), run_bind_of_ok (run_pointerSet _ P _),
    run_nextInst]

/-- `LD Rd, -P` -/
theorem exec_ldDecr
    {c : AvrCore δ} (h : c.layout.IsSram (c.pointer P - 1)) (r : P.Reg) :
  ∃ c', Executes (P.ldDecr r) c c' ∧
    LoadEffect P r (c.pointer P - 1) (c.sramByte (c.pointer P - 1)) c c'
  := by
  refine ⟨_, ⟨.opcode P.ldDecrOpcode, ?_⟩, loadEffect_after c r _ _ 2⟩
  have hhandler : (execOpcode (P.ldDecr r).first : CoreM δ OpRet)
      = ldDecr P.ldDecrOpcode P.low.toFin.val r.val.toFin.val := by
    rw [execOpcode_first]
    cases P <;> rfl
  have hread : (memRead (c.pointer P - 1).toNat).run (c.setPointer P (c.pointer P - 1))
      = .ok (c.sramByte (c.pointer P - 1), c.setPointer P (c.pointer P - 1)) :=
    memRead_sram (c := c.setPointer P (c.pointer P - 1)) h
  rw [hhandler, ldDecr, run_bind_of_ok (run_avrErrorIf_pair c P r _ _),
    run_bind_of_ok (run_pointerGet_pointer c P), run_bind_of_ok (run_pointerSet c P _),
    run_bind_of_ok hread, run_bind_of_ok (run_avrCoreGpwrSet _ _ _), run_nextInst]

/-- `LPM Rd, Z+` -/
theorem exec_lpmIncr
    {c : AvrCore δ} (h : c.flash.Valid ((c.pointer .Z).toNat / 2 : Nat)) (r : Pointer.Z.Reg) :
  ∃ c', Executes (Pointer.lpmIncr r) c c' ∧
    LoadEffect .Z r (c.pointer .Z + 1) (c.flash.byte (c.pointer .Z).toNat) c c'
  := by
  refine ⟨_, ⟨.opcode .LPM_Z_incr, ?_⟩, loadEffect_before c r _ _ 3⟩
  have hhandler : (execOpcode (Pointer.lpmIncr r).first : CoreM δ OpRet)
      = avrOpLPMZIncr r.val.toFin.val := by
    rw [execOpcode_first]
    rfl
  have hZ : (pointerGet 30).run c = .ok (c.pointer .Z, c) := run_pointerGet_pointer c .Z
  rw [hhandler, avrOpLPMZIncr]
  apply (run_bind_of_ok (run_avrErrorIf_pair c .Z r _ _)).trans
  rw [run_bind_of_ok hZ, getLsbD_zero, run_load h]
  apply (run_bind_of_ok (run_pointerSet _ .Z _)).trans
  apply run_nextInst

omit [IoDevices δ] in
/-- The bytes of the next pointer -/
theorem ofNat_bytes
    (Z : Nat) :
  BitVec.ofNat 8 Z = (BitVec.ofNat 16 Z).extractLsb' 0 8 ∧
    BitVec.ofNat 8 (Z / 2 ^ 8) = (BitVec.ofNat 16 Z).extractLsb' 8 8
  := by
  constructor
  · apply BitVec.eq_of_toNat_eq
    simp
  · apply BitVec.eq_of_toNat_eq
    simp [Nat.shiftRight_eq_div_pow]
    omega

omit [IoDevices δ] in
theorem rampzSet_eq
    (c : AvrCore δ) (v : Byte) :
  c.rampzSet v = { c with rampz := if c.hasRampz then v else c.rampz }
  := by
  rw [AvrCore.rampzSet]
  split <;> rfl

omit [IoDevices δ] in
/-- The next value of RAMPZ:Z, from its byte in RAMPZ and its word in Z -/
theorem extendedZ_succ
    {c c' : AvrCore δ} (hhas : c'.hasRampz = c.hasRampz)
    (hrampz : c.hasRampz → c'.rampz = .ofNat 8 ((c.extendedZ + 1) / 2 ^ 16 % 64))
    (hpointer : c'.pointer .Z = .ofNat 16 (c.extendedZ + 1)) :
  c'.extendedZ = (c.extendedZ + 1) % c.extendedSize
  := by
  have hmask (v : Byte) : (v &&& 0x3f).toNat = v.toNat % 64 :=
    BitVec.toNat_and v 0x3f |>.trans (Nat.and_two_pow_sub_one_eq_mod v.toNat 6)
  cases hcase : c.hasRampz with
  | true =>
    rw [AvrCore.extendedSize, hcase, if_pos rfl, AvrCore.extendedZ, AvrCore.rampzGet, hhas, hcase,
      if_pos rfl, hrampz hcase, hpointer, hmask, BitVec.toNat_ofNat, BitVec.toNat_ofNat]
    omega
  | false =>
    have hZ : c.extendedZ = (c.pointer .Z).toNat := by
      rw [AvrCore.extendedZ, AvrCore.rampzGet, hcase]
      simp
    rw [AvrCore.extendedSize, hcase, AvrCore.extendedZ, AvrCore.rampzGet, hhas, hcase, hpointer]
    simp

/-- `ELPM Rd, Z+` -/
theorem exec_elpmIncr
    {c : AvrCore δ} (h : c.flash.Valid (c.extendedZ / 2 : Nat)) (r : Pointer.Z.Reg) :
  ∃ c', Executes (Pointer.elpmIncr r) c c' ∧
    c'.extendedZ = (c.extendedZ + 1) % c.extendedSize ∧
    c'.register r.val = c.flash.byte c.extendedZ ∧ Walks .Z [r] c c' ∧ c'.sram = c.sram
  := by
  have hhandler : (execOpcode (Pointer.elpmIncr r).first : CoreM δ OpRet)
      = avrOpELPMZIncr r.val.toFin.val := by
    rw [execOpcode_first]
    rfl
  have hZ : SimulAvr.extendedZ.run c = .ok (c.extendedZ, c) := by
    have hpair : (c.pointer .Z).toNat = (c.gpwr 31).toNat * 2 ^ 8 + (c.gpwr 30).toNat := by
      have := toNat_pair (c.gpwr 31) (c.gpwr 30)
      change ((c.gpwr 31 ++ c.gpwr 30 : Word).toNat : Nat) = _
      omega
    rw [run_extendedZ, AvrCore.extendedZ, hpair, ← Nat.add_assoc]
  generalize hval : c.flash.byte c.extendedZ = val
  generalize hX : BitVec.ofNat 16 (c.extendedZ + 1) = X
  generalize hv : BitVec.ofNat 8 ((c.extendedZ + 1) / 2 ^ 16 % 64) = v
  obtain ⟨hpointer, hloaded, hwalks, -, hsram⟩ := loadEffect_before c r X val 3
  generalize hw : (if c.hasRampz then v else c.rampz) = w
  use AvrCore.nextInst { (c.gpwrSet r.val.toFin val).setPointer .Z X with rampz := w } 3
  refine ⟨⟨.opcode .ELPM_Z_incr, ?_⟩, ?_, hloaded, ⟨?_, hwalks.register⟩, hsram⟩
  · rw [hhandler, avrOpELPMZIncr]
    apply (run_bind_of_ok (run_avrErrorIf_pair c .Z r _ _)).trans
    rw [run_bind_of_ok hZ]
    apply (run_load h r.val.toFin _).trans
    obtain ⟨hlow, hhigh⟩ := ofNat_bytes (c.extendedZ + 1)
    rw [hval]
    dsimp only
    rw [hv, hlow, hhigh, hX]
    apply (run_bind_of_ok (run_avrCoreGpwrSet _ 30 _)).trans
    apply (run_bind_of_ok (run_avrCoreGpwrSet _ 31 _)).trans
    have hset : (avrCoreRampzSet v).run ((c.gpwrSet r.val.toFin val).setPointer .Z X)
        = .ok ((), { (c.gpwrSet r.val.toFin val).setPointer .Z X with rampz := w }) := by
      rw [avrCoreRampzSet, run_update, rampzSet_eq, ← hw]
      rfl
    apply (run_bind_of_ok hset).trans
    apply run_nextInst
  · apply extendedZ_succ
    · rfl
    · intro hhas
      rw [hv]
      change w = v
      rw [← hw, if_pos hhas]
    · rw [hX]
      apply hpointer
  · rfl

/-! ### Walks -/

/-- `n` executions of loads, with the registers that they load: the bytes that they load -/
def loadAll (load : P.Reg → Instr) : List P.Reg → CoreM δ (List Byte)
  | [] => return []
  | r :: regs => do
    let _ ← execOpcode (load r).first
    let val ← gets (·.register r.val)
    let vals ← loadAll load regs
    return val :: vals

/-- Executions of `ST P+, Rr` that store bytes, each of which a register gets before -/
def storeAll (P : Pointer) : List (P.Reg × Byte) → CoreM δ Unit
  | [] => return ()
  | (r, val) :: stores => do
    avrCoreGpwrSet r.val.toFin.val val
    let _ ← execOpcode (P.stIncr r).first
    storeAll P stores

/-- Loads whose states follow each other load the byte of each state. -/
theorem loadAll_run
    (load : P.Reg → Instr) (state : Nat → AvrCore δ → Prop) (byte : Nat → Byte) {n : Nat}
    (hstep : ∀ i < n, ∀ c, state i c → ∀ r, ∃ c', Executes (load r) c c' ∧
      c'.register r.val = byte i ∧ state (i + 1) c' ∧ Walks P [r] c c')
    (regs : List P.Reg) {i : Nat} (hn : i + regs.length = n) {c : AvrCore δ} (hc : state i c) :
  ∃ c', (loadAll load regs).run c = .ok ((List.range' i regs.length).map byte, c') ∧
    state n c' ∧ Walks P regs c c'
  := by
  induction regs generalizing i c with
  | nil =>
    obtain rfl : i = n := hn
    exact ⟨c, rfl, hc, .refl⟩
  | cons r regs ih =>
    rw [List.length_cons] at hn
    obtain ⟨c₁, ⟨ret, hexec⟩, hloaded, hc₁, hwalks₁⟩ := hstep i (by omega) c hc r
    obtain ⟨c', hrun, hc', hwalks'⟩ := ih (by omega) hc₁
    refine ⟨c', ?_, hc', hwalks₁.trans hwalks'⟩
    rw [loadAll, run_bind_of_ok hexec, run_bind_of_ok (run_gets _ c₁), run_bind_of_ok hrun,
      hloaded]
    rfl

omit [IoDevices δ] in
/-- Addresses of a walk -/
theorem add_ofNat_succ
    (a : Word) (i : Nat) :
  a + .ofNat 16 i + 1 = a + .ofNat 16 (i + 1) ∧ a + 1 + .ofNat 16 i = a + .ofNat 16 (i + 1) ∧
    a - .ofNat 16 i - 1 = a - .ofNat 16 (i + 1)
  := by
  rw [BitVec.ofNat_add]
  bv_omega

/-- The bytes that stores leave in SRAM -/
theorem storeAll_run
    (stores : List (P.Reg × Byte)) {c : AvrCore δ} (hn : stores.length ≤ 2 ^ 16)
    (hsram : ∀ i < stores.length, c.layout.IsSram (c.pointer P + .ofNat 16 i)) :
  ∃ c', (storeAll P stores).run c = .ok ((), c') ∧
    c'.pointer P = c.pointer P + .ofNat 16 stores.length ∧ c'.rampz = c.rampz ∧
    Walks P (stores.map (·.1)) c c' ∧
    (∀ i (h : i < stores.length), c'.sramByte (c.pointer P + .ofNat 16 i) = stores[i].2) ∧
    ∀ a, (∀ i < stores.length, a ≠ c.pointer P + .ofNat 16 i) → c'.sramByte a = c.sramByte a
  := by
  induction stores generalizing c with
  | nil =>
    refine ⟨c, rfl, ?_, rfl, .refl, nofun, fun _ _ => rfl⟩
    simp
  | cons store stores ih =>
    obtain ⟨r, val⟩ := store
    rw [List.length_cons] at hn
    have hlen : ((r, val) :: stores).length = stores.length + 1 := List.length_cons
    have hset := run_avrCoreGpwrSet c r.val.toFin val
    have hpointer₀ := pointer_gpwrSet c P r val
    have hvalue := register_gpwrSet c r.val r.val val
    have hwalks₀ : Walks P [r] c (c.gpwrSet r.val.toFin val) := by
      constructor
      · rfl
      · intro s _ _ hs
        rw [register_gpwrSet, if_neg (by simpa using hs)]
    have hbyte₀ (a : Word) : (c.gpwrSet r.val.toFin val).sramByte a = c.sramByte a := rfl
    have hrampz₀ : (c.gpwrSet r.val.toFin val).rampz = c.rampz := rfl
    generalize c.gpwrSet r.val.toFin val = c₀ at hset hpointer₀ hvalue hwalks₀ hbyte₀ hrampz₀
    rw [if_pos rfl] at hvalue
    have hfirst : c₀.layout.IsSram (c₀.pointer P) := by
      rw [hwalks₀.layout, hpointer₀]
      simpa using hsram 0 (by omega)
    obtain ⟨c₁, ⟨ret, hexec⟩, hpointer₁, hwalks₁, hrampz₁, hbyte₁⟩ := exec_stIncr hfirst r
    rw [hpointer₀] at hpointer₁ hbyte₁
    have hrest : ∀ i < stores.length, c₁.layout.IsSram (c₁.pointer P + .ofNat 16 i) := by
      intro i hi
      rw [hwalks₁.layout, hwalks₀.layout, hpointer₁, (add_ofNat_succ _ i).2.1]
      apply hsram (i + 1) (by omega)
    obtain ⟨c', hrun, hpointer', hrampz', hwalks', hstored, hkeep⟩ := ih (by omega) hrest
    rw [hpointer₁] at hpointer' hstored hkeep
    refine ⟨c', ?_, ?_, ?_, ?_, ?_, ?_⟩
    · rw [storeAll, run_bind_of_ok hset, run_bind_of_ok hexec, hrun]
    · rw [hpointer', (add_ofNat_succ _ _).2.1]
      rfl
    · rw [hrampz', hrampz₁, hrampz₀]
    · apply (hwalks₀.trans hwalks₁).trans hwalks'
    · intro i hi
      cases i with
      | zero =>
        rw [show c.pointer P + BitVec.ofNat 16 0 = c.pointer P from by simp, hkeep, hbyte₁,
          if_pos rfl, hvalue]
        · rfl
        · intro i hi heq
          have hnat := congrArg BitVec.toNat heq
          rw [(add_ofNat_succ _ i).2.1, BitVec.toNat_add, BitVec.toNat_ofNat] at hnat
          have := (c.pointer P).isLt
          omega
      | succ i =>
        rw [← (add_ofNat_succ _ i).2.1]
        apply hstored
    · intro a ha
      have hne : a ≠ c.pointer P := by
        simpa using ha 0 (by omega)
      rw [hkeep, hbyte₁, if_neg hne, hbyte₀]
      intro i hi
      rw [(add_ofNat_succ _ i).2.1]
      apply ha (i + 1) (by omega)

omit [IoDevices δ] in
/-- The core `d` reads what `c` reads, with the pointer `P` at `X`. -/
structure AtPointer (P : Pointer) (c : AvrCore δ) (X : Word) (d : AvrCore δ) : Prop where
  pointer : d.pointer P = X
  rampz : d.rampz = c.rampz
  sram : d.sram = c.sram
  layout : d.layout = c.layout
  flash : d.flash = c.flash

omit [IoDevices δ] in
theorem AtPointer.load
    {c d d' : AvrCore δ} {X Y : Word} {r : P.Reg} {val : Byte} (h : AtPointer P c X d)
    (heffect : LoadEffect P r Y val d d') :
  AtPointer P c Y d'
  := by
  constructor
  · apply heffect.pointer
  · rw [heffect.rampz, h.rampz]
  · rw [heffect.sram, h.sram]
  · rw [heffect.walks.layout, h.layout]
  · rw [heffect.walks.flash, h.flash]

/-- Loads that move the pointer from each of its positions to the next -/
theorem loadAll_at
    {load : P.Reg → Instr} (pos : Nat → Word) (byte : Nat → Byte) (regs : List P.Reg)
    {c : AvrCore δ} (hpos : c.pointer P = pos 0)
    (hstep : ∀ i < regs.length, ∀ d, AtPointer P c (pos i) d → ∀ r, ∃ d',
      Executes (load r) d d' ∧ LoadEffect P r (pos (i + 1)) (byte i) d d') :
  ∃ c', (loadAll load regs).run c = .ok ((List.range regs.length).map byte, c') ∧
    AtPointer P c (pos regs.length) c' ∧ Walks P regs c c'
  := by
  rw [List.range_eq_range']
  apply loadAll_run load (fun i d => AtPointer P c (pos i) d) byte
  · intro i hi d hd r
    obtain ⟨d', hexec, heffect⟩ := hstep i hi d hd r
    exact ⟨d', hexec, heffect.loaded, hd.load heffect, heffect.walks⟩
  · omega
  · exact ⟨hpos, rfl, rfl, rfl, rfl⟩

/-- The bytes that a walk up the SRAM loads -/
theorem ldIncr_run
    (regs : List P.Reg) {c : AvrCore δ}
    (hsram : ∀ i < regs.length, c.layout.IsSram (c.pointer P + .ofNat 16 i)) :
  ∃ c', (loadAll P.ldIncr regs).run c = .ok ((List.range regs.length).map fun i =>
      c.sramByte (c.pointer P + .ofNat 16 i), c') ∧
    AtPointer P c (c.pointer P + .ofNat 16 regs.length) c' ∧ Walks P regs c c'
  := by
  apply loadAll_at (fun i => c.pointer P + .ofNat 16 i) _ regs
  · simp
  · intro i hi d hd r
    have h : d.layout.IsSram (d.pointer P) := by
      rw [hd.pointer, hd.layout]
      apply hsram i hi
    obtain ⟨d', hexec, heffect⟩ := exec_ldIncr h r
    rw [hd.pointer, (add_ofNat_succ _ i).1, AvrCore.sramByte, hd.sram] at heffect
    exact ⟨d', hexec, heffect⟩

/-- The bytes that a walk down the SRAM loads -/
theorem ldDecr_run
    (regs : List P.Reg) {c : AvrCore δ}
    (hsram : ∀ i < regs.length, c.layout.IsSram (c.pointer P - .ofNat 16 (i + 1))) :
  ∃ c', (loadAll P.ldDecr regs).run c = .ok ((List.range regs.length).map fun i =>
      c.sramByte (c.pointer P - .ofNat 16 (i + 1)), c') ∧
    AtPointer P c (c.pointer P - .ofNat 16 regs.length) c' ∧ Walks P regs c c'
  := by
  apply loadAll_at (fun i => c.pointer P - .ofNat 16 i) _ regs
  · simp
  · intro i hi d hd r
    have hdecr : d.pointer P - 1 = c.pointer P - .ofNat 16 (i + 1) := by
      rw [hd.pointer, (add_ofNat_succ _ i).2.2]
    have h : d.layout.IsSram (d.pointer P - 1) := by
      rw [hdecr, hd.layout]
      apply hsram i hi
    obtain ⟨d', hexec, heffect⟩ := exec_ldDecr h r
    rw [hdecr, AvrCore.sramByte, hd.sram] at heffect
    exact ⟨d', hexec, heffect⟩

/-- The bytes that a walk up the flash loads through Z -/
theorem lpmIncr_run
    (regs : List Pointer.Z.Reg) {c : AvrCore δ} (hvalid : ∀ i < regs.length,
      c.flash.Valid (((c.pointer .Z).toNat + i) % 2 ^ 16 / 2 : Nat)) :
  ∃ c', (loadAll Pointer.lpmIncr regs).run c = .ok ((List.range regs.length).map fun i =>
      c.flash.byte (((c.pointer .Z).toNat + i) % 2 ^ 16 : Nat), c') ∧
    AtPointer .Z c (c.pointer .Z + .ofNat 16 regs.length) c' ∧ Walks .Z regs c c'
  := by
  apply loadAll_at (fun i => c.pointer .Z + .ofNat 16 i) _ regs
  · simp
  · intro i hi d hd r
    have hZ : (d.pointer .Z).toNat = ((c.pointer .Z).toNat + i) % 2 ^ 16 := by
      rw [hd.pointer, BitVec.toNat_add, BitVec.toNat_ofNat, Nat.add_mod_mod]
    have h : d.flash.Valid ((d.pointer .Z).toNat / 2 : Nat) := by
      rw [hZ, hd.flash]
      apply hvalid i hi
    obtain ⟨d', hexec, heffect⟩ := exec_lpmIncr h r
    rw [hZ, hd.pointer, (add_ofNat_succ _ i).1, hd.flash] at heffect
    exact ⟨d', hexec, heffect⟩

omit [IoDevices δ] in
theorem extendedZ_lt
    (c : AvrCore δ) :
  c.extendedZ < c.extendedSize
  := by
  have hZ := (c.pointer .Z).isLt
  have hmask : (c.rampzGet &&& 0x3f).toNat < 64 := by
    have := BitVec.toNat_and c.rampzGet 0x3f |>.trans
      (Nat.and_two_pow_sub_one_eq_mod c.rampzGet.toNat 6)
    omega
  rw [AvrCore.extendedZ, AvrCore.extendedSize]
  split
  · omega
  · next hnot =>
    rw [AvrCore.rampzGet, if_neg hnot]
    simp
    omega

/-- The core `d` after `i` loads through RAMPZ:Z from `c` -/
structure AfterLoads (c : AvrCore δ) (i : Nat) (d : AvrCore δ) : Prop where
  extendedZ : d.extendedZ = (c.extendedZ + i) % c.extendedSize
  hasRampz : d.hasRampz = c.hasRampz
  flash : d.flash = c.flash
  sram : d.sram = c.sram

/-- The bytes that a walk up the flash loads through RAMPZ:Z -/
theorem elpmIncr_run
    (regs : List Pointer.Z.Reg) {c : AvrCore δ} (hvalid : ∀ i < regs.length,
      c.flash.Valid ((c.extendedZ + i) % c.extendedSize / 2 : Nat)) :
  ∃ c', (loadAll Pointer.elpmIncr regs).run c = .ok ((List.range regs.length).map fun i =>
      c.flash.byte ((c.extendedZ + i) % c.extendedSize : Nat), c') ∧
    AfterLoads c regs.length c' ∧ Walks .Z regs c c'
  := by
  rw [List.range_eq_range']
  apply loadAll_run Pointer.elpmIncr (AfterLoads c)
    (fun i => c.flash.byte ((c.extendedZ + i) % c.extendedSize : Nat))
  · intro i hi d hd r
    have hsize : d.extendedSize = c.extendedSize := by
      rw [AvrCore.extendedSize, hd.hasRampz]
      rfl
    have h : d.flash.Valid (d.extendedZ / 2 : Nat) := by
      rw [hd.extendedZ, hd.flash]
      apply hvalid i hi
    obtain ⟨d', hexec, hnext, hloaded, hwalks, hsram⟩ := exec_elpmIncr h r
    refine ⟨d', hexec, ?_, ⟨?_, ?_, ?_, ?_⟩, hwalks⟩
    · rw [hloaded, hd.extendedZ, hd.flash]
    · rw [hnext, hd.extendedZ, hsize, Nat.mod_add_mod, Nat.add_assoc]
    · rw [hwalks.rest, hd.hasRampz]
    · rw [hwalks.flash, hd.flash]
    · rw [hsram, hd.sram]
  · omega
  · constructor
    · rw [Nat.add_zero, Nat.mod_eq_of_lt (extendedZ_lt c)]
    · rfl
    · rfl
    · rfl

/-- Loads down the bytes that stores up have stored -/
theorem stIncr_ldDecr_run
    (stores : List (P.Reg × Byte)) (regs : List P.Reg) (hlen : regs.length = stores.length)
    {c : AvrCore δ} (hn : stores.length ≤ 2 ^ 16)
    (hsram : ∀ i < stores.length, c.layout.IsSram (c.pointer P + .ofNat 16 i)) :
  ∃ c', (do storeAll P stores; loadAll P.ldDecr regs : CoreM δ (List Byte)).run c
      = .ok ((stores.map (·.2)).reverse, c') ∧
    c'.pointer P = c.pointer P ∧ c'.rampz = c.rampz ∧
    Walks P (stores.map (·.1) ++ regs) c c' ∧
    ∀ a, (∀ i < stores.length, a ≠ c.pointer P + .ofNat 16 i) → c'.sramByte a = c.sramByte a
  := by
  obtain ⟨c₁, hrun₁, hpointer₁, hrampz₁, hwalks₁, hstored, hkeep⟩ := storeAll_run stores hn hsram
  have hback (i : Nat) (hi : i < stores.length) :
      c₁.pointer P - .ofNat 16 (i + 1)
        = c.pointer P + .ofNat 16 (stores.length - 1 - i) := by
    rw [hpointer₁]
    have hsum : stores.length = stores.length - 1 - i + (i + 1) := by omega
    generalize stores.length - 1 - i = k at hsum ⊢
    rw [hsum, BitVec.ofNat_add]
    bv_omega
  have hsram₁ : ∀ i < regs.length, c₁.layout.IsSram (c₁.pointer P - .ofNat 16 (i + 1)) := by
    intro i hi
    rw [hwalks₁.layout, hback i (by omega)]
    apply hsram _ (by omega)
  obtain ⟨c', hrun', hat, hwalks'⟩ := ldDecr_run regs hsram₁
  refine ⟨c', ?_, ?_, ?_, hwalks₁.trans hwalks', ?_⟩
  · have hbytes : ((List.range regs.length).map fun i =>
        c₁.sramByte (c₁.pointer P - .ofNat 16 (i + 1))) = (stores.map (·.2)).reverse := by
      apply List.ext_getElem
      · rw [List.length_map, List.length_range, List.length_reverse, List.length_map, hlen]
      · intro i h₁ h₂
        have hi : i < stores.length := by
          rwa [List.length_reverse, List.length_map] at h₂
        rw [List.getElem_map, List.getElem_range, hback i hi, hstored _ (by omega),
          List.getElem_reverse, List.getElem_map]
        simp only [List.length_map]
    rw [run_bind_of_ok hrun₁, hrun', hbytes]
  · rw [hat.pointer, hpointer₁, hlen]
    apply BitVec.add_sub_cancel
  · rw [hat.rampz, hrampz₁]
  · intro a ha
    rw [AvrCore.sramByte, hat.sram, ← hkeep a ha]
    rfl

/-! ### The walks of a pointer register -/

/-- The loads of a walk up the flash through Z load the bytes that follow each other. -/
def LoadsInOrder (c : AvrCore δ) (regs : List Pointer.Z.Reg) : Prop :=
  ∃ c', (loadAll Pointer.lpmIncr regs).run c = .ok ((List.range regs.length).map fun i =>
    c.flash.byte ((c.pointer .Z).toNat + i : Nat), c')

/-- Stores that move the pointer up are undone by loads that move it down, and the loads that
move a pointer up load the bytes of the SRAM, or of the flash, from the pointer on, where Z and
RAMPZ:Z begin again at zero.  Nothing else in the SRAM changes. -/
theorem pointer_walks
    (P : Pointer) (c : AvrCore δ) :
  (∀ (stores : List (P.Reg × Byte)) (regs : List P.Reg), regs.length = stores.length →
    stores.length ≤ 2 ^ 16 →
    (∀ i < stores.length, c.layout.IsSram (c.pointer P + .ofNat 16 i)) →
    ∃ c', (do storeAll P stores; loadAll P.ldDecr regs : CoreM δ (List Byte)).run c
        = .ok ((stores.map (·.2)).reverse, c') ∧
      c'.pointer P = c.pointer P ∧ c'.rampz = c.rampz ∧
      Walks P (stores.map (·.1) ++ regs) c c' ∧
      ∀ a, (∀ i < stores.length, a ≠ c.pointer P + .ofNat 16 i) →
        c'.sramByte a = c.sramByte a) ∧
  (∀ regs : List P.Reg,
    (∀ i < regs.length, c.layout.IsSram (c.pointer P + .ofNat 16 i)) →
    ∃ c', (loadAll P.ldIncr regs).run c = .ok ((List.range regs.length).map fun i =>
        c.sramByte (c.pointer P + .ofNat 16 i), c') ∧
      AtPointer P c (c.pointer P + .ofNat 16 regs.length) c' ∧ Walks P regs c c') ∧
  (∀ regs : List Pointer.Z.Reg,
    (∀ i < regs.length, c.flash.Valid (((c.pointer .Z).toNat + i) % 2 ^ 16 / 2 : Nat)) →
    ∃ c', (loadAll Pointer.lpmIncr regs).run c = .ok ((List.range regs.length).map fun i =>
        c.flash.byte (((c.pointer .Z).toNat + i) % 2 ^ 16 : Nat), c') ∧
      AtPointer .Z c (c.pointer .Z + .ofNat 16 regs.length) c' ∧ Walks .Z regs c c') ∧
  (∀ regs : List Pointer.Z.Reg,
    (∀ i < regs.length, c.flash.Valid ((c.extendedZ + i) % c.extendedSize / 2 : Nat)) →
    ∃ c', (loadAll Pointer.elpmIncr regs).run c = .ok ((List.range regs.length).map fun i =>
        c.flash.byte ((c.extendedZ + i) % c.extendedSize : Nat), c') ∧
      AfterLoads c regs.length c' ∧ Walks .Z regs c c')
  := by
  refine ⟨?_, ?_, ?_, ?_⟩
  · intro stores regs hlen hn hsram
    apply stIncr_ldDecr_run stores regs hlen hn hsram
  · intro regs hsram
    apply ldIncr_run regs hsram
  · intro regs hvalid
    apply lpmIncr_run regs hvalid
  · intro regs hvalid
    apply elpmIncr_run regs hvalid

end

/-- An OsEID128 with `0x01ff` in X and `0xffff` in Z, and one byte in the flash -/
def AvrCore.walking : AvrCore Unit :=
  let c := AvrCore.construct defnOsEID128 ()
  { c with
    gpwr := fun r => if r = 27 then 0x01 else 0xff
    flash := { c.flash with data := fun i => if i = 1 then 7 else 0 } }

/-- Three bytes stored and loaded through X, and three loaded through Z and RAMPZ:Z, in an
OsEID128. -/
theorem pointer_walks_oseid128 :
  ∃ c₁ c₂ c₃ c₄,
    (do
      storeAll .X [(⟨16, by decide⟩, 1), (⟨17, by decide⟩, 2), (⟨16, by decide⟩, 3)]
      loadAll Pointer.X.ldDecr [⟨18, by decide⟩, ⟨18, by decide⟩, ⟨19, by decide⟩]
        : CoreM Unit (List Byte)).run .walking = .ok ([3, 2, 1], c₁) ∧
    (loadAll Pointer.X.ldIncr [⟨18, by decide⟩, ⟨18, by decide⟩]).run .walking
      = .ok ([AvrCore.walking.sramByte 0x01ff, AvrCore.walking.sramByte 0x0200], c₂) ∧
    (loadAll Pointer.lpmIncr [⟨18, by decide⟩, ⟨18, by decide⟩]).run .walking
      = .ok ([0, 7], c₃) ∧
    (loadAll Pointer.elpmIncr [⟨18, by decide⟩, ⟨18, by decide⟩]).run .walking
      = .ok ([0, 0], c₄)
  := by
  obtain ⟨hstores, hloads, hlpm, helpm⟩ := pointer_walks .X AvrCore.walking
  obtain ⟨c₁, h₁, -⟩ := hstores
    [(⟨16, by decide⟩, 1), (⟨17, by decide⟩, 2), (⟨16, by decide⟩, 3)]
    [⟨18, by decide⟩, ⟨18, by decide⟩, ⟨19, by decide⟩] rfl (by decide) (by decide)
  obtain ⟨c₂, h₂, -⟩ := hloads [⟨18, by decide⟩, ⟨18, by decide⟩] (by decide)
  obtain ⟨c₃, h₃, -⟩ := hlpm [⟨18, by decide⟩, ⟨18, by decide⟩] (by decide)
  obtain ⟨c₄, h₄, -⟩ := helpm [⟨18, by decide⟩, ⟨18, by decide⟩] (by decide)
  have hlow : ((List.range 2).map fun i => AvrCore.walking.flash.byte
      (((AvrCore.walking.pointer .Z).toNat + i) % 2 ^ 16 : Nat)) = [0, 7] := by decide
  have hall : ((List.range 2).map fun i => AvrCore.walking.flash.byte
      ((AvrCore.walking.extendedZ + i) % AvrCore.walking.extendedSize : Nat)) = [0, 0] := by
    decide
  refine ⟨c₁, c₂, c₃, c₄, h₁, h₂, ?_, ?_⟩
  · apply h₃.trans (congrArg (fun vals => Except.ok (vals, c₃)) hlow)
  · apply h₄.trans (congrArg (fun vals => Except.ok (vals, c₄)) hall)

/-- LPM Z+ at the end of the first 64 KB of the flash goes on at its start. -/
theorem lpm_walk_wraps :
  ¬ ∀ (c : AvrCore Unit) (regs : List Pointer.Z.Reg),
    (∀ i < regs.length, c.flash.Valid (((c.pointer .Z).toNat + i) / 2 : Nat)) →
    LoadsInOrder c regs
  := by
  intro h
  obtain ⟨c', hrun⟩ := h .walking [⟨18, by decide⟩, ⟨18, by decide⟩] (by decide)
  obtain ⟨c₁, hwrap, -⟩ := lpmIncr_run [⟨18, by decide⟩, ⟨18, by decide⟩]
    (c := AvrCore.walking) (by decide)
  rw [hwrap] at hrun
  have hbytes := congrArg Prod.fst (Except.ok.inj hrun)
  have hne : AvrCore.walking.flash.byte 0 ≠ AvrCore.walking.flash.byte 0x10000 := by decide
  apply hne
  apply congrArg (fun vals : List Byte => vals.getD 1 0) hbytes

end SimulAvr
