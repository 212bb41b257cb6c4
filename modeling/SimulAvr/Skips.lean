import SimulAvr.InstructionAborts

/-!
# Skips and second words

At every word of the flash but the last one, the instructions that skip the next instruction
land on it or behind it, modulo `PC_max`, and the instructions of two words find their second one.
At the last word both abort: the word after it is not looked up at the start of the flash
(`follows_words_iff`).
-/

namespace SimulAvr

open Program

section

variable {δ : Type}

/-! ### What the instructions are to do -/

/-- The address after the program counter -/
def AvrCore.nextAddr (c : AvrCore δ) : Int :=
  (c.pc + 1) % c.pcMax

/-- The number of words of the instruction there -/
def AvrCore.nextWords (c : AvrCore δ) : Int :=
  if isTwoWords (c.flash.word c.nextAddr) then 2 else 1

/-- The address of the next instruction, or of the one after it if the next one is skipped. -/
def AvrCore.skipTarget (c : AvrCore δ) (taken : Bool) : Int :=
  if taken then (c.nextAddr + c.nextWords) % c.pcMax else c.nextAddr

/-- The clocks of a skip -/
def AvrCore.skipClocks (c : AvrCore δ) (taken : Bool) : Int :=
  if taken then 1 + c.nextWords else 1

variable [IoDevices δ]

/-- The condition of an instruction that skips the next one -/
def OpcodeInfo.condition (opi : OpcodeInfo) : CoreM δ Bool :=
  match opi.func with
  | .CPSE => do
    let rd ← avrCoreGpwrGet opi.arg1
    let rr ← avrCoreGpwrGet opi.arg2
    return rd = rr
  | .SBRC => do
    let rd ← avrCoreGpwrGet opi.arg1
    return rd.getLsbD opi.arg2.toNat = false
  | .SBRS => do
    let rd ← avrCoreGpwrGet opi.arg1
    return rd.getLsbD opi.arg2.toNat = true
  | .SBIC => do
    let io ← avrCoreIoRead opi.arg1
    return io.getLsbD opi.arg2.toNat = false
  | .SBIS => do
    let io ← avrCoreIoRead opi.arg1
    return io.getLsbD opi.arg2.toNat = true
  | _ => return false

/-- An instruction of two words, with the second one -/
def OpcodeInfo.withSecond (opi : OpcodeInfo) (second : Word) : CoreM δ OpRet :=
  match opi.func with
  | .CALL => do
    let pc ← avrCorePCGet
    let pcBytes ← avrCorePCSize
    let k := opi.arg1 * 2 ^ 16 + second.toNat
    avrErrorIf (pcBytes = 2 ∧ k > 0xffff) "Address out of allowed range: 0x%06x" [k]
    avrCoreStackPush pcBytes (.ofInt 32 (pc + 2))
    avrCorePCSet k
    avrCoreInstCKSSet (pcBytes + 2)
    return .opcode .CALL
  | .JMP => do
    avrCorePCSet (opi.arg1 * 2 ^ 16 + second.toNat)
    avrCoreInstCKSSet 3
    return .opcode .JMP
  | .LDS => do
    let val ← memRead second.toNat
    avrCoreGpwrSet opi.arg1 val
    avrCorePCIncr 2
    avrCoreInstCKSSet 2
    return .opcode .LDS
  | .STS => do
    let rd ← avrCoreGpwrGet opi.arg1
    memWrite second.toNat rd
    avrCorePCIncr 2
    avrCoreInstCKSSet 2
    return .opcode .STS
  | _ => return .opcode opi.func

/-- The execution of `opcode` in `c` completes, lands where its condition says, and takes the
clocks for it. -/
def AvrCore.Skips (c : AvrCore δ) (opcode : Word) : Prop :=
  ∃ taken c', c.read (decodeOpcode opcode).condition = some taken ∧
    (execOpcode opcode).run c = .ok (.opcode (decodeOpcode opcode).func, c') ∧
    c'.pc = c.skipTarget taken ∧ c'.instCKS = c.skipClocks taken

/-- The second word of the instruction `opcode` in `c` is fetched from the next address. -/
def AvrCore.FetchesSecond (c : AvrCore δ) (opcode : Word) : Prop :=
  flashReadNext.run c = .ok (c.flash.word c.nextAddr, c) ∧
    (execOpcode opcode).run c =
      ((decodeOpcode opcode).withSecond (c.flash.word c.nextAddr)).run c

/-- The instruction `opcode` in `c` finds the word after it, to skip it or for an operand. -/
structure AvrCore.FollowsWords (c : AvrCore δ) (opcode : Word) : Prop where
  skips : (decodeOpcode opcode).func ∈ skipOpcodes → c.Skips opcode
  fetches : (decodeOpcode opcode).func ∈ twoWordOpcodes → c.FetchesSecond opcode

/-! ### The word after the instruction -/

omit [IoDevices δ] in
theorem valid_of_flashReadNext
    {c : AvrCore δ} {word : Word} (h : c.read flashReadNext = some word) :
  c.flash.Valid (c.pc + 1)
  := by
  by_contra hvalid
  rw [AvrCore.read, run_flashReadNext_of_not_valid hvalid] at h
  contradiction

omit [IoDevices δ] in
theorem run_isNextInst2Words_of_valid
    {c : AvrCore δ} (h : c.flash.Valid (c.pc + 1)) :
  isNextInst2Words.run c = .ok (isTwoWords (c.flash.word (c.pc + 1)), c)
  := by
  rw [isNextInst2Words, run_bind_of_ok (run_flashReadNext_of_valid h)]
  rfl

omit [IoDevices δ] in
theorem valid_of_isNextInst2Words
    {c : AvrCore δ} {two : Bool} (h : c.read isNextInst2Words = some two) :
  c.flash.Valid (c.pc + 1)
  := by
  by_contra hvalid
  rw [AvrCore.read, isNextInst2Words,
    run_bind_of_error (run_flashReadNext_of_not_valid hvalid)] at h
  contradiction

/-! ### The instructions -/

section Instructions

variable {c : AvrCore δ} {opi : OpcodeInfo}

/-- With the next word in the flash, a skip reads its condition and then lands. -/
theorem skip_run
    (hargs : opi.func.form.Admits opi.arg1 opi.arg2) (hfunc : opi.func ∈ skipOpcodes)
    (hvalid : c.flash.Valid (c.pc + 1))
    (hio : opi.func ∈ [.SBIC, .SBIS] → (c.read (avrCoreIoRead opi.arg1)).isSome) (opcode : Word) :
  ∃ taken c₁, c.read opi.condition = some taken ∧ Frame False c c₁ ∧
    (opi.func.handler opcode opi.arg1 opi.arg2).run c =
      (skipIf opi.func taken (if isTwoWords (c.flash.word (c.pc + 1)) then 3 else 2)).run c₁
  := by
  have hnext := run_isNextInst2Words_of_valid hvalid
  have hread (A : Int) (h : (c.read (avrCoreIoRead A)).isSome) :
      ∃ io c₁, (avrCoreIoRead A).run c = .ok (io, c₁) ∧ Frame False c c₁ := by
    have huses : Uses ⟨fun _ => True, False, False, True⟩ False (avrCoreIoRead A : CoreM δ Byte) :=
      .action (.memRead trivial)
    cases hrun : (avrCoreIoRead A).run c with
    | error e =>
      rw [AvrCore.read, hrun] at h
      contradiction
    | ok r => exact ⟨r.1, r.2, rfl, huses.frame hrun⟩
  obtain ⟨func, arg1, arg2⟩ := opi
  simp only at hargs hfunc hio
  cases func with
  | CPSE =>
    obtain ⟨d, rfl⟩ := exists_fin_of_mem hargs.1
    obtain ⟨r, rfl⟩ := exists_fin_of_mem hargs.2
    refine ⟨c.gpwr d = c.gpwr r, c, ?_, Frame.refl c, ?_⟩
    · apply read_eq_some
      apply (run_bind_of_ok (run_avrCoreGpwrGet c d)).trans
      apply run_bind_of_ok (run_avrCoreGpwrGet c r)
    · apply (run_bind_of_ok (run_avrCoreGpwrGet c d)).trans
      apply (run_bind_of_ok (run_avrCoreGpwrGet c r)).trans
      apply run_bind_of_ok hnext
  | SBRC =>
    obtain ⟨d, rfl⟩ := exists_fin_of_mem hargs.1
    refine ⟨(c.gpwr d).getLsbD arg2.toNat = false, c, ?_, Frame.refl c, ?_⟩
    · apply read_eq_some
      apply run_bind_of_ok (run_avrCoreGpwrGet c d)
    · apply (run_bind_of_ok hnext).trans
      apply run_bind_of_ok (run_avrCoreGpwrGet c d)
  | SBRS =>
    obtain ⟨d, rfl⟩ := exists_fin_of_mem hargs.1
    refine ⟨(c.gpwr d).getLsbD arg2.toNat = true, c, ?_, Frame.refl c, ?_⟩
    · apply read_eq_some
      apply run_bind_of_ok (run_avrCoreGpwrGet c d)
    · apply (run_bind_of_ok hnext).trans
      apply run_bind_of_ok (run_avrCoreGpwrGet c d)
  | SBIC =>
    obtain ⟨io, c₁, hrun, hframe⟩ := hread arg1 (hio (by decide))
    refine ⟨io.getLsbD arg2.toNat = false, c₁, ?_, hframe, ?_⟩
    · apply read_eq_some
      apply run_bind_of_ok hrun
    · apply (run_bind_of_ok hnext).trans
      apply run_bind_of_ok hrun
  | SBIS =>
    obtain ⟨io, c₁, hrun, hframe⟩ := hread arg1 (hio (by decide))
    refine ⟨io.getLsbD arg2.toNat = true, c₁, ?_, hframe, ?_⟩
    · apply read_eq_some
      apply run_bind_of_ok hrun
    · apply (run_bind_of_ok hnext).trans
      apply run_bind_of_ok hrun
  | _ => exact absurd hfunc (by decide)

/-- A skip that completes has found the next word. -/
theorem valid_of_skip
    (hfunc : opi.func ∈ skipOpcodes) (opcode : Word) {ret : OpRet} {c' : AvrCore δ}
    (hrun : (opi.func.handler opcode opi.arg1 opi.arg2).run c = .ok (ret, c')) :
  c.flash.Valid (c.pc + 1)
  := by
  obtain ⟨func, arg1, arg2⟩ := opi
  simp only at hfunc
  cases func with
  | CPSE =>
    obtain ⟨_, -, hrun⟩ := (Silent.gpwrGet arg1).bind_eq_ok hrun
    obtain ⟨_, -, hrun⟩ := (Silent.gpwrGet arg2).bind_eq_ok hrun
    obtain ⟨_, hnext, -⟩ := Silent.isNextInst2Words.bind_eq_ok hrun
    apply valid_of_isNextInst2Words hnext
  | SBRC =>
    obtain ⟨_, hnext, -⟩ := Silent.isNextInst2Words.bind_eq_ok hrun
    apply valid_of_isNextInst2Words hnext
  | SBRS =>
    obtain ⟨_, hnext, -⟩ := Silent.isNextInst2Words.bind_eq_ok hrun
    apply valid_of_isNextInst2Words hnext
  | SBIC =>
    obtain ⟨_, hnext, -⟩ := Silent.isNextInst2Words.bind_eq_ok hrun
    apply valid_of_isNextInst2Words hnext
  | SBIS =>
    obtain ⟨_, hnext, -⟩ := Silent.isNextInst2Words.bind_eq_ok hrun
    apply valid_of_isNextInst2Words hnext
  | _ => exact absurd hfunc (by decide)

/-- The condition of SBIC and SBIS is one of an I/O register. -/
theorem read_of_condition
    {taken : Bool} (h : c.read opi.condition = some taken) (hfunc : opi.func ∈ [.SBIC, .SBIS]) :
  (c.read (avrCoreIoRead opi.arg1)).isSome
  := by
  by_contra hnone
  obtain ⟨func, arg1, arg2⟩ := opi
  simp only [List.mem_cons, List.not_mem_nil, or_false] at hfunc hnone
  cases hrun : (avrCoreIoRead arg1).run c with
  | error e =>
    obtain rfl | rfl := hfunc
    · rw [AvrCore.read, OpcodeInfo.condition, run_bind_of_error hrun] at h
      contradiction
    · rw [AvrCore.read, OpcodeInfo.condition, run_bind_of_error hrun] at h
      contradiction
  | ok r =>
    rw [AvrCore.read, hrun] at hnone
    apply hnone rfl

/-- With the next word in the flash, an instruction of two words goes on with it. -/
theorem twoWords_run
    (hfunc : opi.func ∈ twoWordOpcodes) (hvalid : c.flash.Valid (c.pc + 1)) (opcode : Word) :
  (opi.func.handler opcode opi.arg1 opi.arg2).run c =
    (opi.withSecond (c.flash.word (c.pc + 1))).run c
  := by
  have hfetch := run_flashReadNext_of_valid hvalid
  have haddress (kh : Int) : (addressOperand kh).run c =
      .ok (kh * 2 ^ 16 + (c.flash.word (c.pc + 1)).toNat, c) := by
    rw [addressOperand, run_bind_of_ok hfetch]
    rfl
  obtain ⟨func, arg1, arg2⟩ := opi
  simp only at hfunc
  cases func with
  | CALL =>
    apply (run_bind_of_ok (run_avrCorePCGet c)).trans
    apply (run_bind_of_ok (run_avrCorePCSize c)).trans
    apply run_bind_of_ok (haddress arg1)
  | JMP => apply run_bind_of_ok (haddress arg1)
  | LDS => apply run_bind_of_ok hfetch
  | STS => apply run_bind_of_ok hfetch
  | _ => exact absurd hfunc (by decide)

omit [IoDevices δ] in
/-- The end of a skip, where the next word is not beyond the flash -/
theorem skipIf_run
    {c₁ : AvrCore δ} {name : OpcodeName} (hframe : Frame False c c₁)
    (hpc : 0 ≤ c.pc ∧ c.pc + 1 < c.pcMax) (taken : Bool) :
  ∃ c', (skipIf name taken (if isTwoWords (c.flash.word (c.pc + 1)) then 3 else 2)).run c₁ =
      .ok (.opcode name, c') ∧
    c'.pc = c.skipTarget taken ∧ c'.instCKS = c.skipClocks taken
  := by
  have hnext : c.nextAddr = c.pc + 1 := Int.emod_eq_of_lt (by omega) hpc.2
  have hadjust (d : Int) (hd : 0 ≤ d ∧ d ≤ 3) :
      AvrCore.adjustPCToMax c₁.pcMax (c₁.pc + d) = (c.pc + d) % c.pcMax := by
    rw [hframe.pcMax, hframe.pc not_false]
    apply (AvrCore.adjustPCToMax_eq_emod_iff (by omega)).mpr
    constructor <;> omega
  rw [AvrCore.skipTarget, AvrCore.skipClocks, AvrCore.nextWords, hnext]
  cases taken with
  | false =>
    refine ⟨_, rfl, ?_, rfl⟩
    rw [← hnext]
    apply hadjust 1 (by decide)
  | true =>
    cases isTwoWords (c.flash.word (c.pc + 1)) with
    | false =>
      refine ⟨_, rfl, ?_, rfl⟩
      apply (hadjust 2 (by decide)).trans
      rw [Int.add_assoc]
      rfl
    | true =>
      refine ⟨_, rfl, ?_, rfl⟩
      apply (hadjust 3 (by decide)).trans
      rw [Int.add_assoc]
      rfl

end Instructions

/-! ### All programs -/

/-- On a device, an instruction that looks at the word after it does so as it is to do exactly
where it is not at the last word of the flash, and the I/O register that it tests, if any, can be
read. -/
theorem follows_words_iff
    {dev : DevSuppDefn} (heven : dev.flash % 2 = 0) {io : δ} {c : AvrCore δ}
    (hc : c.layout = (AvrCore.construct dev io).layout) (hpc : 0 ≤ c.pc ∧ c.pc < c.pcMax)
    (opcode : Word) :
  c.FollowsWords opcode ↔
    ((decodeOpcode opcode).func ∈ skipOpcodes ++ twoWordOpcodes → c.pc + 1 < c.pcMax) ∧
      ((decodeOpcode opcode).func ∈ [.SBIC, .SBIS] →
        (c.read (avrCoreIoRead (decodeOpcode opcode).arg1)).isSome)
  := by
  have hmax : c.pcMax = dev.flash / 2 := congrArg Layout.pcMax hc
  have hbase : c.flash.base = 0 := congrArg Layout.flashBase hc
  have hsize : c.flash.size = dev.flash := congrArg Layout.flashSize hc
  have hvalid : c.flash.Valid (c.pc + 1) ↔ c.pc + 1 < c.pcMax := by
    rw [Flash.Valid, hbase, hsize, hmax]
    omega
  have hargs : (decodeOpcode opcode).func.form.Admits (decodeOpcode opcode).arg1
      (decodeOpcode opcode).arg2 := lookupOpcode_admits opcode
  have hskip : ∀ func ∈ [OpcodeName.SBIC, .SBIS], func ∈ skipOpcodes := by decide
  constructor
  · rintro ⟨hskips, hfetches⟩
    constructor
    · intro hfunc
      rw [← hvalid]
      obtain hfunc | hfunc := List.mem_append.mp hfunc
      · obtain ⟨taken, c', -, hrun, -⟩ := hskips hfunc
        apply valid_of_skip hfunc opcode hrun
      · apply valid_of_flashReadNext (read_eq_some (hfetches hfunc).1)
    · intro hfunc
      obtain ⟨taken, c', hcondition, -⟩ := hskips (hskip _ hfunc)
      apply read_of_condition hcondition hfunc
  · rintro ⟨hnext, hio⟩
    constructor
    · intro hfunc
      have hlt := hnext (List.mem_append_left _ hfunc)
      obtain ⟨taken, c₁, hcondition, hframe, hrun⟩ :=
        skip_run hargs hfunc (hvalid.mpr hlt) hio opcode
      obtain ⟨c', hend, htarget, hclocks⟩ := skipIf_run hframe ⟨hpc.1, hlt⟩ taken
      exact ⟨taken, c', hcondition, hrun.trans hend, htarget, hclocks⟩
    · intro hfunc
      have hlt := hnext (List.mem_append_right _ hfunc)
      have haddr : c.nextAddr = c.pc + 1 := Int.emod_eq_of_lt (by omega) hlt
      rw [AvrCore.FetchesSecond, haddr]
      constructor
      · apply run_flashReadNext_of_valid (hvalid.mpr hlt)
      · apply twoWords_run hfunc (hvalid.mpr hlt)

end

/-- `CPSE R0, R0` before the last word of the at90s2313 -/
theorem follows_words_cpse :
  (AvrCore.atOpcode 1022 0x1000).FollowsWords 0x1000
  := by
  have hlayout : (AvrCore.atOpcode 1022 0x1000).layout
      = (AvrCore.construct defnAt90s2313 ()).layout := rfl
  rw [follows_words_iff (by decide) hlayout (by decide)]
  constructor
  · intro _
    decide
  · intro h
    exact absurd h (by decide +kernel)

/-- `CPSE R0, R0` at the last word aborts. -/
theorem skip_at_end_aborts :
  ¬ ∀ (opcode : Word) (c : AvrCore Unit), c.layout = (AvrCore.construct defnAt90s2313 ()).layout →
    0 ≤ c.pc ∧ c.pc < c.pcMax → c.FollowsWords opcode
  := by
  intro h
  have hfunc : (decodeOpcode 0x1000).func ∈ skipOpcodes := by decide +kernel
  have hfollows := h 0x1000 (AvrCore.atOpcode 1023 0x1000) rfl (by decide)
  obtain ⟨taken, c', -, hrun, -⟩ := hfollows.skips hfunc
  have hvalid := valid_of_skip hfunc 0x1000 hrun
  exact absurd hvalid (by decide)

end SimulAvr
