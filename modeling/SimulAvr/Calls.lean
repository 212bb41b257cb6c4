import SimulAvr.Device
import SimulAvr.StackMemory
import SimulAvr.Lib.Runs
import SimulAvr.System
import SimulAvr.Target

/-!
# Calls and returns

A call pushes the address of the next instruction, and a RET on the same stack comes back
to it with the original stack pointer exactly when the call pushes as many bytes as RET
pops, which EICALL does only for a program counter of three bytes, and when the address
fits these bytes (`call_return_iff`).  Nested calls then return in LIFO order
(`calls_return`).
-/

namespace SimulAvr

open Transition

section

variable {δ : Type} [IoDevices δ]

/-! ### Calls -/

/-- The opcodes of the calls. -/
def callOpcodes : List OpcodeName :=
  [.CALL, .RCALL, .ICALL, .EICALL]

/-- The number of bytes that a call pushes. -/
def OpcodeName.pushes (func : OpcodeName) (c : AvrCore δ) : Int :=
  if func = .EICALL then 3 else c.pcSize

/-- The address of the instruction after a call. -/
def OpcodeName.returnAddress (func : OpcodeName) (c : AvrCore δ) : Int :=
  c.pc + func.words

/-- The core is about to execute an instruction of the opcode `func`. -/
def AtOpcode (c : AvrCore δ) (func : OpcodeName) : Prop :=
  ∃ opcode, flashRead c.flash c.pc = .ok opcode ∧ (decodeOpcode opcode).func = func

/-- The end of a call leaves the stack that its push leaves. -/
theorem push_effect
    {bytes : Int} {val : BitVec 32} {x : CoreM δ OpRet} {c c' : AvrCore δ} {ret : OpRet}
    (h : (do avrCoreStackPush bytes val; x).run c = .ok (ret, c')) (hstack : SramStack c bytes)
    (hx : ∀ c₁, x.run c₁ = .ok (ret, c') →
      c'.sp = c₁.sp ∧ c'.sram = c₁.sram ∧ c'.stack = c₁.stack ∧ c'.layout = c₁.layout) :
  PushEffect c bytes val c'
  := by
  obtain ⟨data, display, hpush, hholds, hkeep⟩ :=
    stackPush_run hstack.range val hstack.stack hstack.sram
  rw [Program.run_bind_of_ok hpush] at h
  obtain ⟨hsp, hsram, hstack', hlayout⟩ := hx _ h
  have hbyte (a : Word) : c'.sramByte a = (c.withSram data display).sramByte a := by
    rw [AvrCore.sramByte, hsram]
    rfl
  constructor
  · intro i hi
    rw [hbyte, hholds i hi]
  · rw [AvrCore.spGet, hsp]
    apply spGet_spSet
  · intro a ha
    rw [hbyte, hkeep a ha]
  · rw [hstack']
    rfl
  · rw [hlayout]
    rfl

omit [IoDevices δ] in
theorem Silent.avrErrorIf
    {p : Prop} [Decidable p] (fmt : String) (args : List Int) :
  Silent (avrErrorIf p fmt args : CoreM δ Unit)
  := by
  intro c a c' h
  by_cases hp : p
  · rw [run_avrErrorIf_pos hp] at h
    contradiction
  · rw [run_avrErrorIf_neg hp] at h
    cases h
    rfl

/-- The handler of a call pushes the address of the next instruction. -/
theorem handler_call
    {func : OpcodeName} (hfunc : func ∈ callOpcodes) {opcode : Word} {arg1 arg2 : Int}
    {c c' : AvrCore δ} {ret : OpRet} (hstack : SramStack c (func.pushes c))
    (h : (func.handler opcode arg1 arg2).run c = .ok (ret, c')) :
  PushEffect c (func.pushes c) (.ofInt 32 (func.returnAddress c)) c'
  := by
  simp only [callOpcodes, List.mem_cons, List.not_mem_nil, or_false] at hfunc
  obtain rfl | rfl | rfl | rfl := hfunc
  · change (avrOpCALL arg1).run c = _ at h
    rw [avrOpCALL, Program.run_bind_of_ok (run_avrCorePCGet c),
      Program.run_bind_of_ok (run_avrCorePCSize c)] at h
    obtain ⟨k, -, h⟩ := (Silent.bind Silent.flashReadNext fun _ => Silent.pure _).bind_eq_ok h
    obtain ⟨⟨⟩, -, h⟩ := (Silent.avrErrorIf _ _).bind_eq_ok h
    apply push_effect h hstack
    intro c₁ h₁
    cases h₁
    exact ⟨rfl, rfl, rfl, rfl⟩
  · change (avrOpRCALL arg1).run c = _ at h
    rw [avrOpRCALL, Program.run_bind_of_ok (run_avrCorePCGet c),
      Program.run_bind_of_ok (run_avrCorePCSize c)] at h
    apply push_effect h hstack
    intro c₁ h₁
    cases h₁
    exact ⟨rfl, rfl, rfl, rfl⟩
  · change avrOpICALL.run c = _ at h
    rw [avrOpICALL, Program.run_bind_of_ok (run_avrCorePCGet c),
      Program.run_bind_of_ok (run_avrCorePCSize c)] at h
    obtain ⟨Z, -, h⟩ := (Silent.pointerGet 30).bind_eq_ok h
    apply push_effect h hstack
    intro c₁ h₁
    cases h₁
    exact ⟨rfl, rfl, rfl, rfl⟩
  · change avrOpEICALL.run c = _ at h
    rw [avrOpEICALL, Program.run_bind_of_ok (run_avrCorePCGet c)] at h
    obtain ⟨t, -, h⟩ := Silent.extendedIndirect.bind_eq_ok h
    apply push_effect h hstack
    intro c₁ h₁
    cases h₁
    exact ⟨rfl, rfl, rfl, rfl⟩

/-- A call pushes the address of the next instruction. -/
theorem call_effect
    {func : OpcodeName} (hfunc : func ∈ callOpcodes) {c c' : AvrCore δ} {ret : OpRet}
    (hat : AtOpcode c func) (hstack : SramStack c (func.pushes c))
    (h : execNextInstruction.run c = .ok (ret, c')) :
  PushEffect c (func.pushes c) (.ofInt 32 (func.returnAddress c)) c'
  := by
  obtain ⟨opcode, hfetch, hdecode⟩ := hat
  rw [execNextInstruction_of_fetch hfetch, execOpcode, hdecode] at h
  obtain ⟨hpushed, hsp, hsram, hstack', hlayout⟩ := handler_call (c := c.fetched) hfunc
    ⟨hstack.stack, hstack.range, hstack.sram⟩ h
  exact ⟨hpushed, hsp, hsram, hstack', hlayout⟩

/-- The return address of a call is at most `PC_max`. -/
theorem returnAddress_le
    {func : OpcodeName} (hfunc : func ∈ callOpcodes) {c c' : AvrCore δ} {ret : OpRet}
    (hat : AtOpcode c func) (hsize : c.flash.base = 0 ∧ c.flash.size = 2 * c.pcMax)
    (hpc : c.pc < c.pcMax) (h : execNextInstruction.run c = .ok (ret, c')) :
  func.returnAddress c ≤ c.pcMax
  := by
  by_cases hcall : func = .CALL
  · -- the second word of a CALL is in the flash
    subst hcall
    obtain ⟨opcode, hfetch, hdecode⟩ := hat
    rw [execNextInstruction_of_fetch hfetch, execOpcode, hdecode] at h
    change (avrOpCALL _).run c.fetched = _ at h
    rw [avrOpCALL, Program.run_bind_of_ok (run_avrCorePCGet _),
      Program.run_bind_of_ok (run_avrCorePCSize _)] at h
    obtain ⟨k, c₁, hk, -⟩ := Program.run_bind_eq_ok.mp h
    obtain ⟨kl, c₂, hkl, -⟩ := Program.run_bind_eq_ok.mp hk
    rw [flashReadNext, Program.run_bind_of_ok (run_avrCorePCGet _), run_avrCoreFlashRead] at hkl
    by_contra hgt
    change ¬ c.pc + 2 ≤ c.pcMax at hgt
    obtain ⟨hbase, hbytes⟩ := hsize
    have herror : flashRead c.fetched.flash (c.fetched.pc + 1)
        = .error (.message "address out of bounds: 0x%x" [(c.pc + 1) * 2]) := by
      change storageReadw c.flash ((c.pc + 1) * 2) = _
      rw [storageReadw, if_pos (by omega)]
    rw [herror] at hkl
    contradiction
  · have hwords : func.words = 1 := by
      simp only [callOpcodes, List.mem_cons, List.not_mem_nil, or_false] at hfunc
      obtain rfl | rfl | rfl | rfl := hfunc
      · contradiction
      · rfl
      · rfl
      · rfl
    rw [OpcodeName.returnAddress, hwords]
    omega

/-! ### Returns -/

omit [IoDevices δ] in
/-- The stack pointer after the loop of a pop. -/
theorem memPopLoop_sp
    [IoDevices δ] {n : Nat} {sp sp' : Word} {val val' : BitVec 32} {c c' : AvrCore δ}
    (h : (memPopLoop n sp val).run c = .ok ((val', sp'), c')) :
  sp' = sp + .ofNat 16 n
  := by
  induction n generalizing sp val c with
  | zero =>
    cases h
    simp
  | succ n ih =>
    obtain ⟨b, c₁, -, h⟩ := Program.run_bind_eq_ok.mp h
    rw [ih h, BitVec.ofNat_add]
    bv_omega

/-- The stack pointer after a pop. -/
theorem stackPop_sp
    {bytes : Int} {val : BitVec 32} {c c' : AvrCore δ} (hstack : c.stack = .mem)
    (h : (avrCoreStackPop bytes).run c = .ok (val, c')) :
  (0 ≤ bytes ∧ bytes < 4) ∧ c'.spGet = c.spGet + .ofNat 16 bytes.toNat
  := by
  rw [avrCoreStackPop, Program.run_bind_of_ok (run_gets _ c), hstack] at h
  change (memPop bytes).run c = _ at h
  rw [memPop, Program.run_bind_of_ok (run_gets _ c)] at h
  by_cases hbytes : bytes < 0 ∨ bytes ≥ 4
  · rw [Program.run_bind_of_error (run_avrErrorIf_pos hbytes _ _ c)] at h
    contradiction
  · rw [Program.run_bind_of_ok (run_avrErrorIf_neg hbytes _ _ c)] at h
    obtain ⟨⟨val', sp'⟩, c₁, hloop, h⟩ := Program.run_bind_eq_ok.mp h
    cases h
    refine ⟨by omega, ?_⟩
    rw [spGet_spSet, memPopLoop_sp hloop]

/-- A RET in the state `d` comes back to the address `pc` with the stack pointer `sp`. -/
def ReturnsTo (d : AvrCore δ) (pc : Int) (sp : Word) : Prop :=
  ∃ d', execNextInstruction.run d = .ok (.opcode .RET, d') ∧ d'.pc = pc ∧ d'.spGet = sp

/-- The execution of a RET. -/
theorem exec_RET
    {d : AvrCore δ} (hat : AtOpcode d .RET) :
  execNextInstruction.run d = avrOpRET.run d.fetched
  := by
  obtain ⟨opcode, hfetch, hdecode⟩ := hat
  rw [execNextInstruction_of_fetch hfetch, execOpcode, hdecode]
  rfl

/-- The core after a RET whose pop of `pc` left `c`. -/
def AvrCore.retTo (c : AvrCore δ) (pc : Int) : AvrCore δ :=
  { c.pcSet pc with instCKS := c.pcSize + 2 }

/-- A RET on a stack whose top bytes hold a value. -/
theorem exec_RET_of_holds
    {d : AvrCore δ} {top : Word} {val : BitVec 32} (hat : AtOpcode d .RET)
    (hrange : 0 ≤ d.pcSize ∧ d.pcSize < 4) (hstack : d.stack = .mem)
    (hsp : d.spGet = top - .ofNat 16 d.pcSize.toNat)
    (hsram : ∀ i < d.pcSize.toNat, d.layout.IsSram (top - .ofNat 16 i))
    (hholds : d.HoldsBytes top d.pcSize.toNat val) :
  execNextInstruction.run d = .ok (.opcode .RET,
    (d.fetched.spSet top).retTo (lowBytes d.pcSize.toNat val).toInt)
  := by
  have hpop : (avrCoreStackPop d.fetched.pcSize).run d.fetched
      = .ok (lowBytes d.pcSize.toNat val, d.fetched.spSet top) :=
    stackPop_run (c := d.fetched) hrange hstack hsp hsram hholds
  rw [exec_RET hat, avrOpRET, Program.run_bind_of_ok (run_avrCorePCSize _),
    Program.run_bind_of_ok hpop]
  rfl

/-- Where a RET on a stack whose top bytes hold an integer comes back to. -/
theorem returnsTo_of_holds
    {d : AvrCore δ} {top : Word} {k : Int} (hat : AtOpcode d .RET)
    (hrange : 0 ≤ d.pcSize ∧ d.pcSize < 4) (hstack : d.stack = .mem)
    (hsp : d.spGet = top - .ofNat 16 d.pcSize.toNat)
    (hsram : ∀ i < d.pcSize.toNat, d.layout.IsSram (top - .ofNat 16 i))
    (hholds : d.HoldsBytes top d.pcSize.toNat (.ofInt 32 k)) {pc : Int} {sp : Word} :
  ReturnsTo d pc sp ↔
    AvrCore.adjustPCToMax d.pcMax (k % 2 ^ (8 * d.pcSize.toNat)) = pc ∧ top = sp
  := by
  have hexec := exec_RET_of_holds hat hrange hstack hsp hsram hholds
  rw [lowBytes_ofInt_emod (by omega)] at hexec
  have hsp' : ((d.fetched.spSet top).retTo (k % 2 ^ (8 * d.pcSize.toNat))).spGet = top :=
    spGet_spSet d.fetched top
  rw [← hsp']
  constructor
  · rintro ⟨d', hexec', hpc, hsp⟩
    rw [hexec] at hexec'
    cases hexec'
    exact ⟨hpc, hsp⟩
  · rintro ⟨hpc, hsp⟩
    exact ⟨_, hexec, hpc, hsp⟩

/-- A RET after the push of `k` comes back to the corrected residue of `k`. -/
theorem returnsTo_of_push
    {c c₁ d : AvrCore δ} {k : Int} (hpush : PushEffect c c.pcSize (.ofInt 32 k) c₁)
    (hstack : SramStack c c.pcSize) (hleft : StackAsLeft c₁ d c.spGet c.pcSize.toNat)
    (hat : AtOpcode d .RET) {pc : Int} {sp : Word} :
  ReturnsTo d pc sp ↔
    AvrCore.adjustPCToMax c.pcMax (k % 2 ^ (8 * c.pcSize.toNat)) = pc ∧ c.spGet = sp
  := by
  have hlayout : d.layout = c.layout := hleft.layout.trans hpush.layout
  have hpcSize : d.pcSize = c.pcSize := congrArg Layout.pcSize hlayout
  have hmax : d.pcMax = c.pcMax := congrArg Layout.pcMax hlayout
  have hholds := hleft.holdsBytes hpush.pushed
  have hsp := hleft.sp.trans hpush.sp
  have hsram := hstack.sram
  have hrange := hstack.range
  rw [← hpcSize] at hholds hsp hsram hrange ⊢
  rw [← hmax]
  rw [← hlayout] at hsram
  apply returnsTo_of_holds hat hrange hleft.stack hsp hsram hholds

/-- The bytes that RET pops hold the return address of a call, or it is `PC_max` and they
are zero. -/
def ReturnFits (func : OpcodeName) (c : AvrCore δ) : Prop :=
  func.returnAddress c < 2 ^ (8 * c.pcSize.toNat) ∨
    func.returnAddress c = c.pcMax ∧ 2 ^ (8 * c.pcSize.toNat) ∣ c.pcMax

/-- The flash of the core has `PC_max` words, and the program counter is in it. -/
structure InFlash (c : AvrCore δ) : Prop where
  pc : 0 ≤ c.pc ∧ c.pc < c.pcMax
  base : c.flash.base = 0
  size : c.flash.size = 2 * c.pcMax

omit [IoDevices δ] in
theorem returnAddress_pos
    {c : AvrCore δ} (hflash : InFlash c) (func : OpcodeName) :
  0 < func.returnAddress c
  := by
  have hwords : 0 < func.words := by
    rw [OpcodeName.words]
    split <;> decide
  have := hflash.pc.1
  rw [OpcodeName.returnAddress]
  omega

/-- A RET after a call that pushed other than it pops does not restore the stack pointer. -/
theorem not_returnsTo_of_pushes
    {func : OpcodeName} {c c₁ d : AvrCore δ} {val : BitVec 32} {pc : Int}
    (hpush : PushEffect c (func.pushes c) val c₁) (hstack : SramStack c (func.pushes c))
    (hleft : StackAsLeft c₁ d c.spGet (func.pushes c).toNat) (hat : AtOpcode d .RET)
    (hne : func.pushes c ≠ c.pcSize) :
  ¬ ReturnsTo d pc c.spGet
  := by
  rintro ⟨d', hexec, -, hsp⟩
  have hpcSize : d.fetched.pcSize = c.pcSize :=
    congrArg Layout.pcSize (hleft.layout.trans hpush.layout)
  rw [exec_RET hat, avrOpRET, Program.run_bind_of_ok (run_avrCorePCSize _)] at hexec
  obtain ⟨val', d₁, hpop, hexec⟩ := Program.run_bind_eq_ok.mp hexec
  obtain ⟨hrange, hsp₁⟩ := stackPop_sp (c := d.fetched) hleft.stack hpop
  rw [hpcSize] at hrange hsp₁
  have hsp' : d'.spGet = d₁.spGet := by
    cases hexec
    rfl
  have hd : d.fetched.spGet = c.spGet - .ofNat 16 (func.pushes c).toNat :=
    hleft.sp.trans hpush.sp
  rw [hsp', hsp₁, hd] at hsp
  have hpushes := hstack.range
  have heq : BitVec.ofNat 16 c.pcSize.toNat = BitVec.ofNat 16 (func.pushes c).toNat := by
    bv_omega
  have hnat := congrArg BitVec.toNat heq
  rw [BitVec.toNat_ofNat, BitVec.toNat_ofNat, Nat.mod_eq_of_lt (by omega),
    Nat.mod_eq_of_lt (by omega)] at hnat
  omega

/-- A RET on the stack as a call left it comes back to the next instruction, with the stack
pointer of the call, exactly when the call is not an EICALL that pushes other than RET pops,
and the return address fits the bytes that RET pops. -/
theorem call_return_iff
    {func : OpcodeName} (hfunc : func ∈ callOpcodes) {c c₁ d : AvrCore δ} {ret : OpRet}
    (hcall : AtOpcode c func) (hexec : execNextInstruction.run c = .ok (ret, c₁))
    (hflash : InFlash c) (hstack : SramStack c (func.pushes c))
    (hleft : StackAsLeft c₁ d c.spGet (func.pushes c).toNat) (hret : AtOpcode d .RET) :
  ReturnsTo d (func.returnAddress c % c.pcMax) c.spGet
    ↔ (func = .EICALL → c.pcSize = 3) ∧ ReturnFits func c
  := by
  have hpush := call_effect hfunc hcall hstack hexec
  by_cases hpushes : func.pushes c = c.pcSize
  · have hle := returnAddress_le hfunc hcall ⟨hflash.base, hflash.size⟩ hflash.pc.2 hexec
    have hpos := returnAddress_pos hflash func
    have heicall : func = .EICALL → c.pcSize = 3 := by
      intro h
      rw [← hpushes, OpcodeName.pushes, if_pos h]
    rw [hpushes] at hpush hstack hleft
    rw [returnsTo_of_push hpush hstack hleft hret,
      AvrCore.adjustPCToMax_emod_iff ⟨hpos, hle⟩ (Int.pow_pos (by decide))]
    constructor
    · rintro ⟨hfits, -⟩
      exact ⟨heicall, hfits⟩
    · rintro ⟨-, hfits⟩
      exact ⟨hfits, rfl⟩
  · constructor
    · intro h
      exact absurd h (not_returnsTo_of_pushes hpush hstack hleft hret hpushes)
    · rintro ⟨heicall, -⟩
      rw [OpcodeName.pushes] at hpushes
      split at hpushes
      · next h => exact absurd (heicall h).symm hpushes
      · contradiction

/-! ### Nested calls -/

/-- The events of a run of calls and returns; `other` is a step that leaves the stack. -/
inductive CallEvent where
  | call (func : OpcodeName)
  | ret
  | other

/-- The core `c'` has the stack pointer of `c` and the bytes above it. -/
structure KeepsStack (c c' : AvrCore δ) : Prop where
  layout : c'.layout = c.layout
  stack : c'.stack = c.stack
  sp : c'.spGet = c.spGet
  above : ∀ a : Word, c.spGet.toNat < a.toNat → c'.sramByte a = c.sramByte a

/-- The steps of a core with the list of the return addresses due, the newest first; a
return takes the newest. -/
inductive CallStep : CallEvent → AvrCore δ × List Int → AvrCore δ × List Int → Prop
  | call {func : OpcodeName} {c c' : AvrCore δ} {ret : OpRet} {due : List Int}
      (hfunc : func ∈ callOpcodes) (hat : AtOpcode c func)
      (hexec : execNextInstruction.run c = .ok (ret, c')) :
      CallStep (.call func) (c, due) (c', func.returnAddress c % c.pcMax :: due)
  | ret {c c' : AvrCore δ} {ret : OpRet} {r : Int} {due : List Int} (hat : AtOpcode c .RET)
      (hexec : execNextInstruction.run c = .ok (ret, c')) :
      CallStep .ret (c, r :: due) (c', due)
  | other {c c' : AvrCore δ} {due : List Int} (h : KeepsStack c c') :
      CallStep .other (c, due) (c', due)

/-- A call that returns: it is in the flash, its stack is in SRAM, and RET undoes it. -/
def CallEvent.Returns (s : AvrCore δ × List Int) : CallEvent → Prop
  | .call func => InFlash s.1 ∧ SramStack s.1 (func.pushes s.1) ∧
      (func = .EICALL → s.1.pcSize = 3) ∧ ReturnFits func s.1
  | _ => True

/-- The stack from the position `p` to `top` holds the return addresses due. -/
def Frames (c : AvrCore δ) (top : Nat) : Nat → List Int → Prop
  | p, [] => p = top
  | p, r :: due =>
    (0 ≤ c.pcSize ∧ c.pcSize < 4) ∧
    (∀ i < c.pcSize.toNat, c.layout.IsSram (.ofNat 16 (p + c.pcSize.toNat) - .ofNat 16 i)) ∧
    (∃ k, c.HoldsBytes (.ofNat 16 (p + c.pcSize.toNat)) c.pcSize.toNat (.ofInt 32 k) ∧
      AvrCore.adjustPCToMax c.pcMax (k % 2 ^ (8 * c.pcSize.toNat)) = r) ∧
    Frames c top (p + c.pcSize.toNat) due

namespace Frames

variable {c c' : AvrCore δ} {top p : Nat} {due : List Int}

omit [IoDevices δ] in
theorem le
    (h : Frames c top p due) :
  p ≤ top
  := by
  induction due generalizing p with
  | nil => exact h.le
  | cons r due ih =>
    obtain ⟨-, -, -, hdue⟩ := h
    have := ih hdue
    omega

omit [IoDevices δ] in
/-- The bytes up to `p` do not matter. -/
theorem keep
    (h : Frames c top p due) (htop : top < 2 ^ 16) (hlayout : c'.layout = c.layout)
    (habove : ∀ a : Word, p < a.toNat → c'.sramByte a = c.sramByte a) :
  Frames c' top p due
  := by
  have hpcSize : c'.pcSize = c.pcSize := congrArg Layout.pcSize hlayout
  have hmax : c'.pcMax = c.pcMax := congrArg Layout.pcMax hlayout
  induction due generalizing p with
  | nil => apply h
  | cons r due ih =>
    obtain ⟨hrange, hsram, ⟨k, hholds, hk⟩, hdue⟩ := h
    have hle := hdue.le
    rw [Frames, hpcSize, hlayout, hmax]
    refine ⟨hrange, hsram, ⟨k, ?_, hk⟩, ?_⟩
    · intro i hi
      rw [← hholds i hi]
      apply habove
      rw [BitVec.toNat_sub, BitVec.toNat_ofNat, BitVec.toNat_ofNat]
      omega
    · apply ih hdue
      intro a ha
      apply habove
      omega

end Frames

/-- A call that returns adds its return address to the stack. -/
theorem Frames.push
    {func : OpcodeName} {c c' : AvrCore δ} {ret : OpRet} {top : Nat} {due : List Int}
    (h : Frames c top c.spGet.toNat due) (htop : top < 2 ^ 16) (hbase : 0 < c.sram.base)
    (hfunc : func ∈ callOpcodes) (hat : AtOpcode c func)
    (hexec : execNextInstruction.run c = .ok (ret, c'))
    (hreturns : (CallEvent.call func).Returns (c, due)) :
  Frames c' top c'.spGet.toNat (func.returnAddress c % c.pcMax :: due) ∧
    c'.stack = .mem ∧ c'.layout = c.layout
  := by
  obtain ⟨hflash, hstack, heicall, hfits⟩ := hreturns
  have hpushes : func.pushes c = c.pcSize := by
    rw [OpcodeName.pushes]
    split
    · next heq => rw [heicall heq]
    · rfl
  have hpush := call_effect hfunc hat hstack hexec
  change SramStack c (func.pushes c) at hstack
  rw [hpushes] at hpush hstack
  have hpcSize : c'.pcSize = c.pcSize := congrArg Layout.pcSize hpush.layout
  have hmax : c'.pcMax = c.pcMax := congrArg Layout.pcMax hpush.layout
  -- a push that wraps around would write to address 0, which is not in SRAM
  have hroom : c.pcSize.toNat ≤ c.spGet.toNat := by
    by_contra hlt
    obtain ⟨-, -, hlo, -⟩ := hstack.sram c.spGet.toNat (by omega)
    rw [BitVec.ofNat_toNat, BitVec.setWidth_eq, BitVec.sub_self] at hlo
    change c.sram.base ≤ 0 at hlo
    omega
  have hsp : c'.spGet.toNat + c.pcSize.toNat = c.spGet.toNat := by
    rw [hpush.sp, BitVec.toNat_sub, BitVec.toNat_ofNat]
    omega
  have hspWord : BitVec.ofNat 16 c.spGet.toNat = c.spGet := by
    rw [BitVec.ofNat_toNat, BitVec.setWidth_eq]
  refine ⟨?_, hpush.stack.trans hstack.stack, hpush.layout⟩
  rw [Frames, hpcSize, hsp, hspWord, hpush.layout, hmax]
  refine ⟨hstack.range, hstack.sram, ⟨func.returnAddress c, hpush.pushed, ?_⟩, ?_⟩
  · have hle := returnAddress_le hfunc hat ⟨hflash.base, hflash.size⟩ hflash.pc.2 hexec
    rw [AvrCore.adjustPCToMax_emod_iff ⟨returnAddress_pos hflash func, hle⟩ (Int.pow_pos (by decide))]
    apply hfits
  · apply h.keep htop hpush.layout
    intro a ha
    apply hpush.sram
    intro i hi heq
    rw [heq, BitVec.toNat_sub, BitVec.toNat_ofNat] at ha
    omega

omit [IoDevices δ] in
/-- The end of the bytes of the newest return address. -/
theorem spGet_add_pcSize
    (c : AvrCore δ) :
  BitVec.ofNat 16 (c.spGet.toNat + c.pcSize.toNat) = c.spGet + BitVec.ofNat 16 c.pcSize.toNat
  := by
  rw [BitVec.ofNat_add, BitVec.ofNat_toNat, BitVec.setWidth_eq]

/-- A RET goes to the newest return address. -/
theorem Frames.returnsTo
    {d : AvrCore δ} {top : Nat} {r : Int} {due : List Int}
    (h : Frames d top d.spGet.toNat (r :: due)) (hstack : d.stack = .mem)
    (hat : AtOpcode d .RET) :
  ReturnsTo d r (d.spGet + .ofNat 16 d.pcSize.toNat)
  := by
  obtain ⟨hrange, hsram, ⟨k, hholds, hk⟩, hdue⟩ := h
  rw [spGet_add_pcSize] at hsram hholds
  rw [returnsTo_of_holds hat hrange hstack (by bv_omega) hsram hholds]
  exact ⟨hk, rfl⟩

/-- A RET takes the newest return address from the stack. -/
theorem Frames.pop
    {d d' : AvrCore δ} {ret : OpRet} {top : Nat} {r : Int} {due : List Int}
    (h : Frames d top d.spGet.toNat (r :: due)) (htop : top < 2 ^ 16) (hstack : d.stack = .mem)
    (hat : AtOpcode d .RET) (hexec : execNextInstruction.run d = .ok (ret, d')) :
  Frames d' top d'.spGet.toNat due ∧ d'.stack = .mem ∧ d'.layout = d.layout
  := by
  obtain ⟨hrange, hsram, ⟨k, hholds, -⟩, hdue⟩ := h
  have hle := hdue.le
  rw [spGet_add_pcSize] at hsram hholds
  have hrun := exec_RET_of_holds hat hrange hstack (by bv_omega) hsram hholds
  have hd' : d' = (d.fetched.spSet (d.spGet + .ofNat 16 d.pcSize.toNat)).retTo
      (lowBytes d.pcSize.toNat (.ofInt 32 k)).toInt := by
    rw [hexec] at hrun
    cases hrun
    rfl
  have hlayout : d'.layout = d.layout := by rw [hd']; rfl
  have hstack' : d'.stack = .mem := by rw [hd', ← hstack]; rfl
  have hbyte (a : Word) : d'.sramByte a = d.sramByte a := by rw [hd']; rfl
  have hsp : d'.spGet = d.spGet + .ofNat 16 d.pcSize.toNat := by
    rw [hd']
    apply spGet_spSet
  refine ⟨?_, hstack', hlayout⟩
  rw [hsp, ← spGet_add_pcSize, BitVec.toNat_ofNat, Nat.mod_eq_of_lt (by omega)]
  apply hdue.keep htop hlayout
  intro a _
  apply hbyte

/-- The stack of a core holds the return addresses due. -/
structure StackInv (c₀ : AvrCore δ) (s : AvrCore δ × List Int) : Prop where
  stack : s.1.stack = .mem
  layout : s.1.layout = c₀.layout
  frames : Frames s.1 c₀.spGet.toNat s.1.spGet.toNat s.2

/-- The steps whose calls return keep the return addresses due on the stack. -/
theorem CallStep.stackInv
    {c₀ : AvrCore δ} (hbase : 0 < c₀.sram.base) {e : CallEvent} {s t : AvrCore δ × List Int}
    (hstep : CallStep e s t) (hreturns : e.Returns s) (h : StackInv c₀ s) :
  StackInv c₀ t
  := by
  have htop := c₀.spGet.isLt
  cases hstep with
  | @call func c c' ret due hfunc hat hexec =>
    have hbase' : 0 < c.sram.base := by
      rw [show c.sram.base = c₀.sram.base from congrArg Layout.sramBase h.layout]
      apply hbase
    obtain ⟨hframes, hstack, hlayout⟩ := h.frames.push htop hbase' hfunc hat hexec hreturns
    exact ⟨hstack, hlayout.trans h.layout, hframes⟩
  | @ret c c' ret r due hat hexec =>
    obtain ⟨hframes, hstack, hlayout⟩ := h.frames.pop htop h.stack hat hexec
    exact ⟨hstack, hlayout.trans h.layout, hframes⟩
  | @other c c' due hkeeps =>
    refine ⟨hkeeps.stack.trans h.stack, hkeeps.layout.trans h.layout, ?_⟩
    change Frames c' c₀.spGet.toNat c'.spGet.toNat due
    rw [hkeeps.sp]
    apply h.frames.keep htop hkeeps.layout hkeeps.above

/-- In a run of calls that return, with no address due at the start, a RET goes to the
newest return address due, and the stack pointer is that of the start when none is. -/
theorem returns_lifo
    {c₀ c : AvrCore δ} {due : List Int} (h₀ : c₀.stack = .mem) (hbase : 0 < c₀.sram.base)
    (hrun : Run CallStep (fun s e => e.Returns s) (c₀, []) (c, due)) :
  (due = [] → c.spGet = c₀.spGet) ∧
    ∀ r due', due = r :: due' → AtOpcode c .RET →
      ReturnsTo c r (c.spGet + .ofNat 16 c.pcSize.toNat)
  := by
  have hinv : StackInv c₀ (c, due) := by
    apply hrun.invariant
    · intro s e t hs hreturns hstep
      apply hstep.stackInv hbase hreturns hs
    · exact ⟨h₀, rfl, rfl⟩
  constructor
  · rintro rfl
    apply BitVec.eq_of_toNat_eq
    apply hinv.frames
  · rintro r due' rfl hat
    apply Frames.returnsTo hinv.frames hinv.stack hat

/-- A call returns exactly when it is not an EICALL that pushes other than RET pops and its
return address fits; and the return addresses of the calls of a run that return come back in
LIFO order. -/
theorem calls_return :
  (∀ (func : OpcodeName) (c c₁ d : AvrCore δ) (ret : OpRet), func ∈ callOpcodes →
      AtOpcode c func → execNextInstruction.run c = .ok (ret, c₁) → InFlash c →
      SramStack c (func.pushes c) → StackAsLeft c₁ d c.spGet (func.pushes c).toNat →
      AtOpcode d .RET →
      (ReturnsTo d (func.returnAddress c % c.pcMax) c.spGet ↔
        (func = .EICALL → c.pcSize = 3) ∧ ReturnFits func c)) ∧
    ∀ (c₀ c : AvrCore δ) (due : List Int), c₀.stack = .mem → 0 < c₀.sram.base →
      Run CallStep (fun s e => e.Returns s) (c₀, []) (c, due) →
      (due = [] → c.spGet = c₀.spGet) ∧
        ∀ r due', due = r :: due' → AtOpcode c .RET →
          ReturnsTo c r (c.spGet + .ofNat 16 c.pcSize.toNat)
  := by
  constructor
  · intro func c c₁ d ret hfunc hcall hexec hflash hstack hleft hret
    apply call_return_iff hfunc hcall hexec hflash hstack hleft hret
  · intro c₀ c due h₀ hbase hrun
    apply returns_lifo h₀ hbase hrun

/-- The at90s2313 at `pc` has its stack in SRAM. -/
theorem atOpcode_sramStack
    (pc : Int) (opcode : Word) {bytes : Int} (hbytes : 0 ≤ bytes ∧ bytes < 4) :
  SramStack (AvrCore.atOpcode pc opcode) bytes
  := by
  have hsram : ∀ i < 4, AvrCore.at90s2313.layout.IsSram
      (AvrCore.at90s2313.spGet - BitVec.ofNat 16 i) := by decide +kernel
  refine ⟨rfl, hbytes, ?_⟩
  intro i hi
  exact hsram i (by omega)

/-- A core with RET in every word of its flash. -/
def AvrCore.withRet (c : AvrCore Unit) : AvrCore Unit :=
  { c with pc := 0, flash := .filled 1024 0x9508 }

theorem atOpcode_withRet
    (c : AvrCore Unit) :
  AtOpcode c.withRet .RET
  := by
  have hfetch : flashRead (.filled 1024 0x9508) 0 = .ok 0x9508 := by decide +kernel
  exact ⟨0x9508, hfetch, by decide +kernel⟩

/-- The flash of the at90s2313 may change between a call and the return. -/
theorem stackAsLeft_withRet
    {c c₁ : AvrCore Unit} {bytes : Int} {val : BitVec 32} (hstack : SramStack c bytes)
    (hbase : c.flash.base = 0) (hsize : c.flash.size = 2048)
    (hpush : PushEffect c bytes val c₁) :
  StackAsLeft c₁ c₁.withRet c.spGet bytes.toNat
  := by
  have hbase' : c₁.flash.base = 0 := (congrArg Layout.flashBase hpush.layout).trans hbase
  have hsize' : c₁.flash.size = 2048 := (congrArg Layout.flashSize hpush.layout).trans hsize
  constructor
  · simp only [AvrCore.layout, AvrCore.withRet, Flash.filled, hbase', hsize']
    rfl
  · apply hpush.stack.trans hstack.stack
  · rfl
  · intro i _
    rfl

theorem calls_return_rcall :
  ∃ ret c₁, execNextInstruction.run (AvrCore.atOpcode 5 0xd000) = .ok (ret, c₁) ∧
    ReturnsTo c₁.withRet 6 AvrCore.at90s2313.spGet ∧
    ReturnsTo c₁.withRet 6 (c₁.withRet.spGet + .ofNat 16 c₁.withRet.pcSize.toNat)
  := by
  let c : AvrCore Unit := AvrCore.atOpcode 5 0xd000
  have hok : (execNextInstruction.run c).toOption.isSome = true := by decide +kernel
  cases hexec : execNextInstruction.run c with
  | error e =>
    rw [hexec] at hok
    contradiction
  | ok r =>
    obtain ⟨ret, c₁⟩ := r
    have hfetch : flashRead c.flash c.pc = .ok 0xd000 := by decide +kernel
    have hcall : AtOpcode c .RCALL := ⟨0xd000, hfetch, by decide +kernel⟩
    have hflash : InFlash c := ⟨by decide, rfl, rfl⟩
    have hstack : SramStack c 2 := atOpcode_sramStack 5 0xd000 (by decide)
    have hfits : ReturnFits .RCALL c := by
      left
      decide
    have hpush := call_effect (by decide) hcall hstack hexec
    have hleft := stackAsLeft_withRet hstack rfl rfl hpush
    obtain ⟨hreturn, hlifo⟩ := calls_return (δ := Unit)
    have hsingle := (hreturn .RCALL c c₁ c₁.withRet ret (by decide) hcall hexec hflash hstack
      hleft (atOpcode_withRet c₁)).mpr ⟨by decide, hfits⟩
    have hcallStep : CallStep (.call .RCALL) (c, []) (c₁, [6]) :=
      CallStep.call (by decide) hcall hexec
    have hotherStep : CallStep .other (c₁, [6]) (c₁.withRet, [6]) :=
      CallStep.other ⟨hleft.layout, rfl, rfl, fun _ _ => rfl⟩
    have hreturns : (CallEvent.call .RCALL).Returns (c, ([] : List Int)) :=
      ⟨hflash, hstack, by decide, hfits⟩
    have hrun : Run CallStep (fun s e => e.Returns s) (c, []) (c₁.withRet, [6]) :=
      (Run.single hreturns hcallStep).trans (Run.single (e := .other) trivial hotherStep)
    have hnested := (hlifo c _ [6] rfl (by decide) hrun).2 6 [] rfl (atOpcode_withRet c₁)
    exact ⟨ret, c₁, rfl, hsingle, hnested⟩

/-- On a device with a program counter of two bytes an EICALL does not return. -/
theorem calls_return_fails :
  ¬ ∀ (func : OpcodeName) (c c₁ d : AvrCore Unit) (ret : OpRet), func ∈ callOpcodes →
    AtOpcode c func → execNextInstruction.run c = .ok (ret, c₁) → InFlash c →
    SramStack c (func.pushes c) → StackAsLeft c₁ d c.spGet (func.pushes c).toNat →
    AtOpcode d .RET → ReturnsTo d (func.returnAddress c % c.pcMax) c.spGet
  := by
  intro h
  let c : AvrCore Unit := AvrCore.atOpcode 5 0x9519
  have hok : (execNextInstruction.run c).toOption.isSome = true := by decide +kernel
  cases hexec : execNextInstruction.run c with
  | error e =>
    rw [hexec] at hok
    contradiction
  | ok r =>
    obtain ⟨ret, c₁⟩ := r
    have hfetch : flashRead c.flash c.pc = .ok 0x9519 := by decide +kernel
    have hcall : AtOpcode c .EICALL := ⟨0x9519, hfetch, by decide +kernel⟩
    have hflash : InFlash c := ⟨by decide, rfl, rfl⟩
    have hstack : SramStack c 3 := atOpcode_sramStack 5 0x9519 (by decide)
    have hpush := call_effect (by decide) hcall hstack hexec
    have hleft := stackAsLeft_withRet hstack rfl rfl hpush
    have hreturns := h .EICALL c c₁ c₁.withRet ret (by decide) hcall hexec hflash hstack hleft
      (atOpcode_withRet c₁)
    exact not_returnsTo_of_pushes hpush hstack hleft (atOpcode_withRet c₁) (by decide) hreturns

end

end SimulAvr
