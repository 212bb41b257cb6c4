import SimulAvr.Frame
import SimulAvr.ProgramCounter

/-!
# The targets of the instructions

The address that an instruction gives to the program counter, before its correction:
an absolute address, or the program counter plus a displacement.  Every handler that
returns leaves the corrected target in the program counter (`handler_pc`).
-/

namespace SimulAvr

section

variable {δ : Type}

/-! ### Reads -/

/-- The value that a program reads from a core. -/
def AvrCore.read {α : Type} (c : AvrCore δ) (x : CoreM δ α) : Option α :=
  (x.run c).toOption.map Prod.fst

/-- The program leaves the core as it is, when it returns. -/
def Silent {α : Type} (x : CoreM δ α) : Prop :=
  ∀ c a c', x.run c = .ok (a, c') → c' = c

theorem read_eq_some
    {α : Type} {x : CoreM δ α} {c c' : AvrCore δ} {a : α} (h : x.run c = .ok (a, c')) :
  c.read x = some a
  := by
  rw [AvrCore.read, h]
  rfl

namespace Silent

variable {α β : Type}

theorem pure
    (a : α) :
  Silent (pure a : CoreM δ α)
  := by
  intro c a' c' h
  cases h
  rfl

theorem gets
    (f : AvrCore δ → α) :
  Silent (gets f)
  := by
  intro c a c' h
  cases h
  rfl

theorem bind
    {x : CoreM δ α} {f : α → CoreM δ β} (hx : Silent x) (hf : ∀ a, Silent (f a)) :
  Silent (x >>= f)
  := by
  intro c b c' h
  obtain ⟨a, c₁, hxs, hfs⟩ := Program.run_bind_eq_ok.mp h
  rw [hf a c₁ b c' hfs, hx c a c₁ hxs]

theorem gpwrGet
    (reg : Int) :
  Silent (avrCoreGpwrGet reg : CoreM δ Byte)
  := by
  intro c a c' h
  by_cases hreg : 0 ≤ reg ∧ reg < 32
  · obtain ⟨r, rfl⟩ := exists_fin_of_mem hreg
    rw [run_avrCoreGpwrGet] at h
    cases h
    rfl
  · rw [show (avrCoreGpwrGet reg).run c = .error (.registerOutOfBounds reg) from dif_neg hreg] at h
    contradiction

theorem flashRead
    (addr : Int) :
  Silent (avrCoreFlashRead addr : CoreM δ Word)
  := by
  intro c a c' h
  rw [run_avrCoreFlashRead] at h
  cases hflash : SimulAvr.flashRead c.flash addr with
  | error e =>
    rw [hflash] at h
    contradiction
  | ok w =>
    rw [hflash] at h
    cases h
    rfl

theorem flashReadNext :
  Silent (flashReadNext : CoreM δ Word)
  := bind (gets _) fun _ => flashRead _

theorem pointerGet
    (p : Int) :
  Silent (pointerGet p : CoreM δ Word)
  := bind (gpwrGet _) fun _ => bind (gpwrGet _) fun _ => pure _

theorem isNextInst2Words :
  Silent (isNextInst2Words : CoreM δ Bool)
  := bind flashReadNext fun _ => pure _

end Silent

/-- A run that starts with a read. -/
theorem Silent.bind_eq_ok
    {α β : Type} {x : CoreM δ α} (hx : Silent x) {f : α → CoreM δ β} {c c' : AvrCore δ} {b : β}
    (h : (x >>= f).run c = .ok (b, c')) :
  ∃ a, c.read x = some a ∧ (f a).run c = .ok (b, c')
  := by
  obtain ⟨a, c₁, hxs, hfs⟩ := Program.run_bind_eq_ok.mp h
  have hc₁ := hx c a c₁ hxs
  subst hc₁
  exact ⟨a, read_eq_some hxs, hfs⟩

variable [IoDevices δ]

/-- A run that starts with accesses to the core that leave the program counter. -/
theorem Uses.bind_eq_ok
    {S : Scope} {α β : Type} {x : CoreM δ α} (hx : Uses S False x) {f : α → CoreM δ β}
    {c c' : AvrCore δ} {b : β} (h : (x >>= f).run c = .ok (b, c')) :
  ∃ a c₁, x.run c = .ok (a, c₁) ∧ Frame False c c₁ ∧ (f a).run c₁ = .ok (b, c')
  := by
  obtain ⟨a, c₁, hxs, hfs⟩ := Program.run_bind_eq_ok.mp h
  exact ⟨a, c₁, hxs, hx.frame hxs, hfs⟩

/-! ### Targets -/

/-- The length of a skip of an instruction of one or two words, if it is taken. -/
def skipLength (taken twoWords : Bool) : Int :=
  if taken then (if twoWords then 3 else 2) else 1

/-- The target of an instruction, `none` for BREAK and for an instruction that aborts before
it reads the target. -/
def OpcodeName.target (c : AvrCore δ) (arg1 arg2 : Int) : OpcodeName → Option Int
  | .BREAK => none
  | .BRBC => some (c.pc + if c.sregGetBit arg1.toNat = false then arg2 + 1 else 1)
  | .BRBS => some (c.pc + if c.sregGetBit arg1.toNat = true then arg2 + 1 else 1)
  | .CPSE => do
    let rd ← c.read (avrCoreGpwrGet arg1)
    let rr ← c.read (avrCoreGpwrGet arg2)
    let twoWords ← c.read isNextInst2Words
    return c.pc + skipLength (rd = rr) twoWords
  | .SBRC => do
    let twoWords ← c.read isNextInst2Words
    let rd ← c.read (avrCoreGpwrGet arg1)
    return c.pc + skipLength (rd.getLsbD arg2.toNat = false) twoWords
  | .SBRS => do
    let twoWords ← c.read isNextInst2Words
    let rd ← c.read (avrCoreGpwrGet arg1)
    return c.pc + skipLength (rd.getLsbD arg2.toNat = true) twoWords
  | .SBIC => do
    let twoWords ← c.read isNextInst2Words
    let io ← c.read (avrCoreIoRead arg1)
    return c.pc + skipLength (io.getLsbD arg2.toNat = false) twoWords
  | .SBIS => do
    let twoWords ← c.read isNextInst2Words
    let io ← c.read (avrCoreIoRead arg1)
    return c.pc + skipLength (io.getLsbD arg2.toNat = true) twoWords
  | .RJMP => some (c.pc + (arg1 + 1))
  | .RCALL => some (c.pc + (arg1 + 1))
  | .IJMP => (c.read (pointerGet 30)).map fun Z => Z.toNat
  | .ICALL => (c.read (pointerGet 30)).map fun Z => Z.toNat
  | .EIJMP => c.read extendedIndirect
  | .EICALL => c.read extendedIndirect
  | .JMP => c.read (addressOperand arg1)
  | .CALL => c.read (addressOperand arg1)
  | .RET => (c.read (avrCoreStackPop c.pcSize)).map fun pc => pc.toInt
  | .RETI => (c.read (avrCoreStackPop c.pcSize)).map fun pc => pc.toInt
  | func => some (c.pc + func.words)

/-- The target of an instruction that does not control the flow is the next one. -/
theorem target_of_advance
    {func : OpcodeName} (hfunc : func ∉ controlOpcodes) (c : AvrCore δ) (arg1 arg2 : Int) :
  func.target c arg1 arg2 = some (c.pc + func.words)
  := by
  cases func <;> first | rfl | exact absurd (by decide) hfunc

/-! ### The handlers -/

/-- A run that leaves the corrected target in the program counter. -/
def Lands (c c' : AvrCore δ) (target : Option Int) : Prop :=
  ∃ t, target = some t ∧ c'.pc = AvrCore.adjustPCToMax c.pcMax t

omit [IoDevices δ] in
/-- A jump after accesses that leave the program counter. -/
theorem jump_lands
    {c c₁ c' : AvrCore δ} {t cks : Int} {ret ret' : OpRet} (hframe : Frame False c c₁)
    (h : (do avrCorePCSet t; avrCoreInstCKSSet cks; return ret : CoreM δ OpRet).run c₁
      = .ok (ret', c')) :
  Lands c c' (some t)
  := by
  cases h
  use t, rfl
  rw [← hframe.pcMax]
  rfl

omit [IoDevices δ] in
/-- A move of the program counter after accesses that leave it. -/
theorem incr_lands
    {c c₁ c' : AvrCore δ} {d cks : Int} {ret ret' : OpRet} (hframe : Frame False c c₁)
    (h : (do avrCorePCIncr d; avrCoreInstCKSSet cks; return ret : CoreM δ OpRet).run c₁
      = .ok (ret', c')) :
  Lands c c' (some (c.pc + d))
  := by
  cases h
  use c.pc + d, rfl
  rw [← hframe.pcMax, ← hframe.pc not_false]
  rfl

theorem Advances.lands
    {S : Scope} {d : Int} {x : CoreM δ OpRet} (hx : Advances S d x) {c c₁ c' : AvrCore δ}
    {ret : OpRet} (hframe : Frame False c c₁) (h : x.run c₁ = .ok (ret, c')) :
  Lands c c' (some (c.pc + d))
  := by
  induction hx generalizing c₁ ret with
  | last cks ret' => apply incr_lands hframe h
  | error h fmt args => contradiction
  | bind hx _ ihf =>
    obtain ⟨a, c₂, -, hframe₂, hf⟩ := hx.bind_eq_ok h
    apply ihf a (hframe.trans hframe₂) hf
  | ret _ ret' ih =>
    obtain ⟨a, c₂, hx, hret⟩ := Program.run_bind_eq_ok.mp h
    cases hret
    apply ih hframe hx

omit [IoDevices δ] in
theorem branchIf_lands
    {name : OpcodeName} {val : Bool} {bit k : Int} {c c' : AvrCore δ} {ret : OpRet}
    (h : (branchIf name val bit k).run c = .ok (ret, c')) :
  Lands c c' (some (c.pc + if c.sregGetBit bit.toNat = val then k + 1 else 1))
  := by
  rw [branchIf, Program.run_bind_of_ok (run_avrCoreSregGetBit c _)] at h
  by_cases hb : c.sregGetBit bit.toNat = val
  · rw [if_pos hb] at h ⊢
    apply incr_lands (Frame.refl c) h
  · rw [if_neg hb] at h ⊢
    apply incr_lands (Frame.refl c) h

omit [IoDevices δ] in
/-- The end of a skip. -/
theorem skipIf_lands
    {name : OpcodeName} {taken twoWords : Bool} {c c₁ c' : AvrCore δ} {ret : OpRet}
    (hframe : Frame False c c₁)
    (h : (skipIf name taken (if twoWords then 3 else 2)).run c₁ = .ok (ret, c')) :
  Lands c c' (some (c.pc + skipLength taken twoWords))
  := by
  cases taken with
  | false => apply incr_lands hframe h
  | true => apply incr_lands hframe h

omit [IoDevices δ] in
theorem avrOpCPSE_lands
    {arg1 arg2 : Int} {c c' : AvrCore δ} {ret : OpRet}
    (h : (avrOpCPSE arg1 arg2).run c = .ok (ret, c')) :
  Lands c c' (do
    let rd ← c.read (avrCoreGpwrGet arg1)
    let rr ← c.read (avrCoreGpwrGet arg2)
    let twoWords ← c.read isNextInst2Words
    return c.pc + skipLength (rd = rr) twoWords)
  := by
  obtain ⟨rd, hrd, h⟩ := (Silent.gpwrGet arg1).bind_eq_ok h
  obtain ⟨rr, hrr, h⟩ := (Silent.gpwrGet arg2).bind_eq_ok h
  obtain ⟨twoWords, htwo, h⟩ := Silent.isNextInst2Words.bind_eq_ok h
  rw [hrd, hrr, htwo]
  apply skipIf_lands (Frame.refl c) h

omit [IoDevices δ] in
theorem skipIfRegBit_lands
    {name : OpcodeName} {val : Bool} {Rd b : Int} {c c' : AvrCore δ} {ret : OpRet}
    (h : (skipIfRegBit name val Rd b).run c = .ok (ret, c')) :
  Lands c c' (do
    let twoWords ← c.read isNextInst2Words
    let rd ← c.read (avrCoreGpwrGet Rd)
    return c.pc + skipLength (rd.getLsbD b.toNat = val) twoWords)
  := by
  obtain ⟨twoWords, htwo, h⟩ := Silent.isNextInst2Words.bind_eq_ok h
  obtain ⟨rd, hrd, h⟩ := (Silent.gpwrGet Rd).bind_eq_ok h
  rw [htwo, hrd]
  apply skipIf_lands (Frame.refl c) h

theorem skipIfIoBit_lands
    {name : OpcodeName} {val : Bool} {A b : Int} {c c' : AvrCore δ} {ret : OpRet}
    (h : (skipIfIoBit name val A b).run c = .ok (ret, c')) :
  Lands c c' (do
    let twoWords ← c.read isNextInst2Words
    let io ← c.read (avrCoreIoRead A)
    return c.pc + skipLength (io.getLsbD b.toNat = val) twoWords)
  := by
  obtain ⟨twoWords, htwo, h⟩ := Silent.isNextInst2Words.bind_eq_ok h
  have huses : Uses ⟨fun _ => True, False, False, True⟩ False (avrCoreIoRead A : CoreM δ Byte) :=
    .action (.memRead trivial)
  obtain ⟨io, c₁, hio, hframe, h⟩ := huses.bind_eq_ok h
  rw [htwo, read_eq_some hio]
  apply skipIf_lands hframe h

/-- The scope of the pushes and pops. -/
abbrev stackScope : Scope where
  cell addr := 0 ≤ addr ∧ addr ≤ 0xffff
  operand := False
  flash := False
  error := True

/-- A push before a jump. -/
theorem push_lands
    {bytes : Int} {val : BitVec 32} {x : CoreM δ OpRet} {c c' : AvrCore δ} {ret : OpRet}
    {target : Option Int} (h : (do avrCoreStackPush bytes val; x).run c = .ok (ret, c'))
    (hx : ∀ c₁, Frame False c c₁ → x.run c₁ = .ok (ret, c') → Lands c c' target) :
  Lands c c' target
  := by
  have huses : Uses stackScope False (avrCoreStackPush bytes val : CoreM δ Unit) :=
    avrCoreStackPush_uses (fun _ h => h) (fun _ => trivial) _
  obtain ⟨⟨⟩, c₁, -, hframe, h⟩ := huses.bind_eq_ok h
  apply hx c₁ hframe h

theorem avrOpCALL_lands
    {arg1 : Int} {c c' : AvrCore δ} {ret : OpRet} (h : (avrOpCALL arg1).run c = .ok (ret, c')) :
  Lands c c' (c.read (addressOperand arg1))
  := by
  rw [avrOpCALL, Program.run_bind_of_ok (run_avrCorePCGet c),
    Program.run_bind_of_ok (run_avrCorePCSize c)] at h
  obtain ⟨k, hk, h⟩ := (Silent.bind Silent.flashReadNext fun _ => Silent.pure _).bind_eq_ok h
  rw [addressOperand, hk]
  have huses : Uses stackScope False (avrErrorIf (c.pcSize = 2 ∧ k > 0xffff)
      "Address out of allowed range: 0x%06x" [k] : CoreM δ Unit) := avrErrorIf_uses (fun _ => trivial) _ _
  obtain ⟨⟨⟩, c₁, -, hframe, h⟩ := huses.bind_eq_ok h
  have huses' : Uses stackScope False
      (avrCoreStackPush c.pcSize (.ofInt 32 (c.pc + 2)) : CoreM δ Unit) :=
    avrCoreStackPush_uses (fun _ h => h) (fun _ => trivial) _
  obtain ⟨⟨⟩, c₂, -, hframe₂, h⟩ := huses'.bind_eq_ok h
  apply jump_lands (hframe.trans hframe₂) h

theorem avrOpRCALL_lands
    {arg1 : Int} {c c' : AvrCore δ} {ret : OpRet} (h : (avrOpRCALL arg1).run c = .ok (ret, c')) :
  Lands c c' (some (c.pc + (arg1 + 1)))
  := by
  rw [avrOpRCALL, Program.run_bind_of_ok (run_avrCorePCGet c),
    Program.run_bind_of_ok (run_avrCorePCSize c)] at h
  apply push_lands h
  intro c₁ hframe h
  apply incr_lands hframe h

theorem avrOpICALL_lands
    {c c' : AvrCore δ} {ret : OpRet} (h : avrOpICALL.run c = .ok (ret, c')) :
  Lands c c' ((c.read (pointerGet 30)).map fun Z => Z.toNat)
  := by
  rw [avrOpICALL, Program.run_bind_of_ok (run_avrCorePCGet c),
    Program.run_bind_of_ok (run_avrCorePCSize c)] at h
  obtain ⟨Z, hZ, h⟩ := (Silent.pointerGet 30).bind_eq_ok h
  rw [hZ]
  apply push_lands h
  intro c₁ hframe h
  apply jump_lands hframe h

omit [IoDevices δ] in
theorem Silent.extendedIndirect :
  Silent (extendedIndirect : CoreM δ Int)
  := bind (gets _) fun _ => bind (pointerGet _) fun _ => pure _

theorem avrOpEICALL_lands
    {c c' : AvrCore δ} {ret : OpRet} (h : avrOpEICALL.run c = .ok (ret, c')) :
  Lands c c' (c.read extendedIndirect)
  := by
  rw [avrOpEICALL, Program.run_bind_of_ok (run_avrCorePCGet c)] at h
  obtain ⟨t, ht, h⟩ := Silent.extendedIndirect.bind_eq_ok h
  rw [ht]
  apply push_lands h
  intro c₁ hframe h
  apply jump_lands hframe h

omit [IoDevices δ] in
/-- A jump to an address that is read. -/
theorem readJump_lands
    {x : CoreM δ Int} (hx : Silent x) {cks : Int} {name : OpcodeName} {c c' : AvrCore δ}
    {ret : OpRet}
    (h : (do let t ← x; avrCorePCSet t; avrCoreInstCKSSet cks; return .opcode name :
      CoreM δ OpRet).run c = .ok (ret, c')) :
  Lands c c' (c.read x)
  := by
  obtain ⟨t, ht, h⟩ := hx.bind_eq_ok h
  rw [ht]
  apply jump_lands (Frame.refl c) h

omit [IoDevices δ] in
theorem avrOpIJMP_lands
    {c c' : AvrCore δ} {ret : OpRet} (h : avrOpIJMP.run c = .ok (ret, c')) :
  Lands c c' ((c.read (pointerGet 30)).map fun Z => Z.toNat)
  := by
  obtain ⟨Z, hZ, h⟩ := (Silent.pointerGet 30).bind_eq_ok h
  rw [hZ]
  apply jump_lands (Frame.refl c) h

theorem avrOpRET_lands
    {c c' : AvrCore δ} {ret : OpRet} (h : avrOpRET.run c = .ok (ret, c')) :
  Lands c c' ((c.read (avrCoreStackPop c.pcSize)).map fun pc => pc.toInt)
  := by
  rw [avrOpRET, Program.run_bind_of_ok (run_avrCorePCSize c)] at h
  have huses : Uses stackScope False (avrCoreStackPop c.pcSize : CoreM δ (BitVec 32)) :=
    avrCoreStackPop_uses (fun _ h => h) fun _ => trivial
  obtain ⟨pc, c₁, hpop, hframe, h⟩ := huses.bind_eq_ok h
  rw [read_eq_some hpop]
  apply jump_lands hframe h

theorem avrOpRETI_lands
    {c c' : AvrCore δ} {ret : OpRet} (h : avrOpRETI.run c = .ok (ret, c')) :
  Lands c c' ((c.read (avrCoreStackPop c.pcSize)).map fun pc => pc.toInt)
  := by
  rw [avrOpRETI, Program.run_bind_of_ok (run_avrCorePCSize c)] at h
  have huses : Uses stackScope False (avrCoreStackPop c.pcSize : CoreM δ (BitVec 32)) :=
    avrCoreStackPop_uses (fun _ h => h) fun _ => trivial
  obtain ⟨pc, c₁, hpop, hframe, h⟩ := huses.bind_eq_ok h
  rw [read_eq_some hpop]
  cases h
  use pc.toInt, rfl
  rw [← hframe.pcMax]
  rfl

/-- Every handler that returns leaves the corrected target in the program counter, or is
that of BREAK and leaves the program counter. -/
theorem handler_pc
    {func : OpcodeName} {arg1 arg2 : Int} (hargs : func.form.Admits arg1 arg2)
    {opcode : Word} {c c' : AvrCore δ} {ret : OpRet}
    (h : (func.handler opcode arg1 arg2).run c = .ok (ret, c')) :
  Lands c c' (func.target c arg1 arg2) ∨ func = .BREAK ∧ c'.pc = c.pc
  := by
  by_cases hfunc : func ∈ controlOpcodes
  · cases func with
    | BREAK =>
      right
      cases h
      exact ⟨rfl, rfl⟩
    | CPSE => exact .inl (avrOpCPSE_lands h)
    | SBRC => exact .inl (skipIfRegBit_lands h)
    | SBRS => exact .inl (skipIfRegBit_lands h)
    | SBIC => exact .inl (skipIfIoBit_lands h)
    | SBIS => exact .inl (skipIfIoBit_lands h)
    | BRBC => exact .inl (branchIf_lands h)
    | BRBS => exact .inl (branchIf_lands h)
    | CALL => exact .inl (avrOpCALL_lands h)
    | RCALL => exact .inl (avrOpRCALL_lands h)
    | ICALL => exact .inl (avrOpICALL_lands h)
    | EICALL => exact .inl (avrOpEICALL_lands h)
    | JMP =>
      exact .inl (readJump_lands (.bind Silent.flashReadNext fun _ => Silent.pure _) h)
    | RJMP => exact .inl (incr_lands (Frame.refl c) h)
    | IJMP => exact .inl (avrOpIJMP_lands h)
    | EIJMP => exact .inl (readJump_lands Silent.extendedIndirect h)
    | RET => exact .inl (avrOpRET_lands h)
    | RETI => exact .inl (avrOpRETI_lands h)
    | _ => exact absurd hfunc (by decide)
  · left
    rw [target_of_advance hfunc]
    apply (handler_advances hargs hfunc opcode).lands (Frame.refl c) h

end

end SimulAvr
