import SimulAvr.Regress.Session
import SimulAvr.TestAsm

/-!
# The test cases of the opcodes

A test case of `base_test.py` sets the registers and the memory of the target up, puts the opcode
under test at the program counter, takes a step, and compares what the registers and the memory are
with what they should be.  `regress.py` runs the test cases one after the other and resets the
target after each.  A test case is correct where the programmer's view of an at90s8515 has the
effect that it expects of the opcode; test cases that are correct pass, one and all, in every order
of the steps of the client and the server.
-/

namespace SimulAvr

open Exchange Program

/-! ### The base class -/

/-- `raise TestFail, format % args`, which fails where the format has another number of arguments -/
def raiseTestFail {α : Type} (format : String) (args : List Int) : ClientM α :=
  .fail (if format.toList.count '%' = args.length then .testFail format args else .python)

/-- `if expect != got: self.fail (format % args)` -/
def expectEq (expect got : Int) (format : String) (args : List Int) : ClientM Unit :=
  if expect ≠ got then raiseTestFail format args else return ()

/-- A class that is derived from `opcode_test` -/
structure OpcodeTest where
  /-- The class has `opcode_stack_mixin`. -/
  stack : Bool := false
  /-- The class has `opcode_32_mixin`. -/
  opcode32 : Bool := false
  /-- `setup`, which changes `setup_regs` and returns the raw opcode -/
  setup : Regs → ClientM (Regs × Nat)
  regChanged : List (Fin 35)
  isPcChecked : Bool := false
  /-- `analyze_results`, of `setup_regs` and `anal_regs` -/
  analyzeResults : Regs → Regs → ClientM Unit

/-- `struct.pack ('<H', n)` -/
def packWord (n : Nat) : Option (List Byte) :=
  if n < 2 ^ 16 then some (packBytes 2 n) else none

/-- `SP_val` -/
abbrev spVal : Nat := 0x0250

namespace OpcodeTest

variable (t : OpcodeTest)

/-- `common_build_opcode` -/
def commonBuildOpcode (rawOpcode : Nat) : Option (List Byte) :=
  if t.opcode32 then
    some (packBytes 2 ((rawOpcode >>> 16) &&& 0xffff) ++ packBytes 2 (rawOpcode &&& 0xffff))
  else
    packWord rawOpcode

/-- `common_setup` of `opcode_test`, with `setup_regs` as it leaves them -/
def commonSetupRegs : ClientM Regs := do
  let regs ← readRegs
  let (setupRegs, rawOpcode) ← t.setup regs
  let opcode ← orRaise (t.commonBuildOpcode rawOpcode)
  writeFlash (setupRegs Reg.PC) opcode.length opcode
  writeRegs setupRegs
  return setupRegs

/-- `common_setup`, which `opcode_stack_mixin` overrides -/
def commonSetup : ClientM Regs :=
  if t.stack then do
    writeReg Reg.SP spVal
    t.commonSetupRegs
  else
    t.commonSetupRegs

/-- The check of PC of `common_analyze_results` -/
def checkPc (setupRegs analRegs : Regs) : ClientM Unit :=
  if t.isPcChecked then
    return ()
  else
    expectEq (setupRegs Reg.PC + 2) (analRegs Reg.PC) "PC not incremented: expect=%x, got=%x"
      [setupRegs Reg.PC + 2, analRegs Reg.PC]

/-- The check of one of the other registers -/
def checkUnchanged (setupRegs analRegs : Regs) (i : Fin 35) : ClientM Unit :=
  if i ∈ t.regChanged then
    return ()
  else
    expectEq (setupRegs i) (analRegs i) "Register %d changed: expect=%x, got=%x"
      [i.val, setupRegs i, analRegs i]

/-- `common_analyze_results` -/
def commonAnalyzeResults (setupRegs : Regs) : ClientM Unit := do
  let analRegs ← readRegs
  t.analyzeResults setupRegs analRegs
  t.checkPc setupRegs analRegs
  ((List.finRange 35).filter fun i => i < Reg.PC).forM (t.checkUnchanged setupRegs analRegs)

/-- `run` -/
def run (limit : Nat) : ClientM Unit := do
  let setupRegs ← t.commonSetup
  let _ ← rspStep limit
  t.commonAnalyzeResults setupRegs

end OpcodeTest

/-! ### The driver -/

/-- Whether a test case passes, where a `TestFail` is caught -/
def passes (test : ClientM Unit) : ClientM Bool :=
  (test.bind fun _ => .ret true).handle fun
    | .testFail _ _ => .ret false
    | e => .fail e

/-- `run_tests`, with the numbers of tests that pass and that fail -/
def runTests (limit : Nat) : List OpcodeTest → ClientM (Nat × Nat)
  | [] => return (0, 0)
  | test :: tests => do
    let passed ← passes (test.run limit)
    targetReset limit
    let (numPasses, numFails) ← runTests limit tests
    return if passed then (numPasses + 1, numFails) else (numPasses, numFails + 1)

/-! ### The view and the registers of gdb -/

namespace Cpu

/-- The registers of gdb -/
def regs (m : Cpu) : Regs := fun reg =>
  if h : reg.val < 32 then (m.gpwr ⟨reg, h⟩).toNat
  else if reg = Reg.SREG then m.sreg.toNat
  else if reg = Reg.SP then m.sp.toNat
  else m.pc * 2

/-- The view with the registers of gdb -/
def withRegs (m : Cpu) (r : Regs) : Cpu :=
  { m with
    pc := r Reg.PC / 2
    gpwr := fun i => .ofNat 8 (r (Reg.R i))
    sreg := .ofNat 8 (r Reg.SREG)
    sp := .ofNat 16 (r Reg.SP) }

variable {m : Cpu}

theorem regs_gpwr
    (i : Fin 32) :
  m.regs (Reg.R i) = (m.gpwr i).toNat
  := by
  have hi : (i.castLE (show 32 ≤ 35 by decide)).val < 32 := i.isLt
  rw [regs, dif_pos hi]
  rfl

theorem regs_valid
    (hpc : m.pc < 2 ^ 31) :
  m.regs.Valid
  := by
  constructor
  · intro reg
    obtain ⟨i, rfl⟩ | rfl | rfl | rfl := register_cases reg
    · have hsp : i.castLE (show 32 ≤ 35 by decide) < Reg.SP := Nat.lt_succ_of_lt i.isLt
      rw [regs_gpwr, regSize, if_pos hsp]
      exact (m.gpwr i).isLt
    · exact m.sreg.isLt
    · exact m.sp.isLt
    · change m.pc * 2 < 2 ^ 32
      omega
  · change m.pc * 2 % 2 = 0
    omega

end Cpu

section

variable {δ : Type} {l : Layout} {flash : Flash} {st : StateType} {Q : δ → Prop} {c c' : AvrCore δ}
  {m : Cpu}

theorem Shows.regs
    (h : Shows l flash st Q 0 c m) (hpc : m.pc < 2 ^ 31) :
  c.regFile.regs = m.regs
  := by
  have hpc' : c.regFile.pc = m.pc := h.pc
  funext reg
  obtain ⟨i, rfl⟩ | rfl | rfl | rfl := register_cases reg
  · rw [RegFile.regs_gpwr, Cpu.regs_gpwr, ← h.gpwr]
    rfl
  · rw [RegFile.regs_sreg]
    change c.sreg.toNat = m.sreg.toNat
    rw [h.sreg]
  · rw [RegFile.regs_sp]
    change _ = m.sp.toNat
    rw [← h.sp]
    change c.sp.spl.toNat + 2 ^ 8 * c.sp.sph.toNat = (c.sp.sph ++ c.sp.spl).toNat
    have hpair := toNat_pair c.sp.sph c.sp.spl
    omega
  · rw [RegFile.regs_pc (by omega) (by omega), hpc']
    rfl

/-- The registers that gdb writes -/
theorem Shows.withRegs
    (h : Shows l flash st Q 0 c m) (r : Regs) (display : List DisplayMsg) :
  Shows l flash st Q 0 (c.withRegFile (RegFile.ofRegs r) display) (m.withRegs r)
  := by
  have hsp : (c.withRegFile (RegFile.ofRegs r) display).spGet = .ofNat 16 (r Reg.SP) := by
    change (BitVec.ofNat 8 (r Reg.SP / 2 ^ 8) ++ BitVec.ofNat 8 (r Reg.SP) : Word) = _
    apply BitVec.eq_of_toNat_eq
    have hpair := toNat_pair (.ofNat 8 (r Reg.SP / 2 ^ 8)) (.ofNat 8 (r Reg.SP))
    rw [BitVec.toNat_ofNat, BitVec.toNat_ofNat] at hpair
    rw [BitVec.toNat_ofNat]
    omega
  exact ⟨h.layout, h.flash, h.dev, rfl, rfl, rfl, hsp, h.sram, h.stack, h.state, h.awake, h.pending,
    h.clocks⟩

end

/-! ### Memory -/

section

variable {δ : Type} {l : Layout} {flash : Flash} {st : StateType} {Q : δ → Prop}
  {c c' : AvrCore (WithEEprom δ)} {m : Cpu}

/-- Other memories -/
theorem Shows.otherMemory
    (h : Shows l flash st (fun d : WithEEprom δ => Q d.io) 0 c m) (hother : OtherMemory c c') :
  Shows l c'.flash st (fun d : WithEEprom δ => Q d.io) 0 c' { m with sram := c'.sramByte }
  := by
  have hlayout := hother.layout.trans h.layout
  obtain ⟨⟨flash', sram, ee, display, rfl⟩, -⟩ := hother
  exact ⟨hlayout, rfl, h.dev, h.pc, h.gpwr, h.sreg, h.sp, fun _ _ => rfl, h.stack, h.state, h.awake,
    h.pending, h.clocks⟩

theorem Wrote.word_of_not_mem
    {addr : Int} {vals : List Byte} (h : Wrote .flash addr vals c c') {a : Int}
    (ha : 2 * a + 1 < addr ∨ addr + vals.length ≤ 2 * a) :
  c'.flash.word a = c.flash.word a
  := by
  have hbyte : c'.flash.byte = writeRange c.flash.byte addr vals := h.byte
  rw [Flash.word_eq, Flash.word_eq, hbyte, writeRange_of_not_mem (by omega),
    writeRange_of_not_mem (by omega)]

theorem length_imageBytes
    (words : List Word) :
  (imageBytes words).length = 2 * words.length
  := by
  induction words with
  | nil => rfl
  | cons word words ih =>
    change (imageBytes words).length + 2 = 2 * (words.length + 1)
    omega

/-- The bytes of a word of an image -/
theorem writeRange_image
    (store : Int → Byte) (a : Int) {words : List Word} {n : Nat} {word : Word}
    (hword : words[n]? = some word) :
  writeRange store (2 * a) (imageBytes words) (2 * (a + n)) = word.extractLsb' 0 8 ∧
    writeRange store (2 * a) (imageBytes words) (2 * (a + n) + 1) = word.extractLsb' 8 8
  := by
  induction words generalizing store a n with
  | nil => contradiction
  | cons first words ih =>
    have hnext : 2 * a + 1 + 1 = 2 * (a + 1) := by omega
    change writeRange store (2 * a) (first.extractLsb' 0 8 :: first.extractLsb' 8 8 :: imageBytes words) _
        = _ ∧ writeRange store (2 * a)
          (first.extractLsb' 0 8 :: first.extractLsb' 8 8 :: imageBytes words) _ = _
    rw [writeRange, writeRange, hnext]
    cases n with
    | zero =>
      cases hword
      rw [Int.natCast_zero, Int.add_zero, writeRange_of_not_mem (by omega),
        writeRange_of_not_mem (by omega), Function.update_of_ne (by omega), Function.update_self,
        Function.update_self]
      exact ⟨rfl, rfl⟩
    | succ n =>
      have hrest := ih (Function.update (Function.update store (2 * a) (first.extractLsb' 0 8))
        (2 * a + 1) (first.extractLsb' 8 8)) (a + 1) hword
      rwa [Int.add_assoc, Int.add_comm 1] at hrest

/-- The words of an image that is written -/
theorem Wrote.word_image
    {a : Int} {words : List Word} (h : Wrote .flash (2 * a) (imageBytes words) c c') {n : Nat}
    {word : Word} (hword : words[n]? = some word) :
  c'.flash.word (a + n) = word
  := by
  have hbyte : c'.flash.byte = writeRange c.flash.byte (2 * a) (imageBytes words) := h.byte
  obtain ⟨hlow, hhigh⟩ := writeRange_image c.flash.byte a hword
  rw [Flash.word_eq, hbyte, hlow, hhigh, extractLsb'_append_self]

/-- The words of an image are in the flash. -/
theorem Wrote.holdsAt
    {a : Nat} {words : List Word} (h : Wrote .flash (2 * (a : Int)) (imageBytes words) c c')
    (hflash : c'.flash.base = 0 ∧ c'.flash.size = 8192) (hroom : a + words.length ≤ 4096) :
  c'.flash.HoldsAt a words
  := by
  intro n word hword
  obtain ⟨hn, -⟩ := List.getElem?_eq_some_iff.mp hword
  have hvalid : c'.flash.Valid (a + n : Nat) := by
    rw [Flash.Valid, hflash.1, hflash.2]
    omega
  have hvalue := h.word_image hword
  rw [Flash.flashRead_of_valid hvalid, Int.natCast_add, hvalue]

end

/-! ### Correct test cases -/

section

variable {δ : Type} [IoDevices δ]

/-- A step of the core has an effect on the view. -/
def TakesTo (flash : Flash) (Q : δ → Prop) (m m' : Cpu) : Prop :=
  ∀ st (c : AvrCore δ), Shows at90s8515 flash st Q 0 c m →
    ∃ ret c', avrCoreStep.run c = .ok (ret, c') ∧ ret ≠ .breakPoint ∧
      Shows at90s8515 flash st Q 0 c' m'

/-- The peripherals other than the EEPROM -/
abbrev OnIo (Q : δ → Prop) : WithEEprom δ → Prop :=
  fun d => Q d.io

namespace OpcodeTest

/-- `setup` leaves the registers `r` and the bytes `sram`, asks for an opcode of some words, and may
put a word in the flash that the opcode does not replace. -/
structure Prepares (t : OpcodeTest) (Q : δ → Prop) (m : Cpu) (r : Regs) (words : List Word)
    (sram : Word → Byte) (data : Option (Nat × Word)) : Prop where
  valid : r.Valid
  nonempty : words ≠ []
  short : words.length ≤ 2
  room : r Reg.PC / 2 + words.length ≤ 4096
  performs : ∃ raw, t.commonBuildOpcode raw = some (imageBytes words) ∧
    ∀ cellName st (c : AvrCore (WithEEprom δ)), Shows at90s8515 c.flash st (OnIo Q) 0 c m →
      ∃ c', Performs cellName c (t.setup m.regs) c' (r, raw) ∧
        Shows at90s8515 c'.flash st (OnIo Q) 0 c' { m with sram := sram } ∧
        ∀ p ∈ data, c'.flash.HoldsAt p.1 [p.2]
  data : ∀ p ∈ data, p.1 < r Reg.PC / 2 ∨ r Reg.PC / 2 + words.length ≤ p.1

/-- `analyze_results` and `common_analyze_results` find nothing wrong with the view. -/
structure Accepts (t : OpcodeTest) (Q : δ → Prop) (r : Regs) (m : Cpu) : Prop where
  pc : m.pc < 4096
  analyze : ∀ cellName flash st (c : AvrCore (WithEEprom δ)), Shows at90s8515 flash st (OnIo Q) 0 c m →
    Performs cellName c (t.analyzeResults r m.regs) c ()
  next : t.isPcChecked = false → m.pc * 2 = r Reg.PC + 2
  unchanged : ∀ i < Reg.PC, i ∉ t.regChanged → m.regs i = r i

/-- The opcode of a test has the effect that the test expects. -/
def Correct (t : OpcodeTest) (Q : δ → Prop) : Prop :=
  ∀ m : Cpu, m.pc = 0 → (t.stack = true → m.sp = .ofNat 16 spVal) →
    ∃ r words sram data, t.Prepares Q m r words sram data ∧
      ∀ flash : Flash, flash.HoldsAt (r Reg.PC / 2) words → (∀ p ∈ data, flash.HoldsAt p.1 [p.2]) →
        ∃ m', TakesTo flash (OnIo Q) ({ m with sram := sram }.withRegs r) m' ∧ t.Accepts Q r m'

end OpcodeTest

/-- An at90s8515 between two test cases, after a reset -/
structure Idle (c : AvrCore (WithEEprom δ)) (Q : δ → Prop) : Prop where
  layout : c.layout = at90s8515
  ready : c.Ready (OnIo Q)
  pc : c.pc = 0

variable {Q : δ → Prop} {c c' : AvrCore (WithEEprom δ)} {st : StateType} {flash : Flash} {m : Cpu}

theorem QuietDevices.onIo
    (hQ : QuietDevices Q) :
  QuietDevices (OnIo Q)
  := by
  constructor
  · intro ck d hd
    obtain ⟨io, hrun, hio⟩ := hQ.clk ck d.io hd
    refine ⟨d.setIo io, ?_, hio⟩
    change (IoDevices.clkCbExec ck d.io).map _ = _
    rw [hrun]
    rfl
  · intro d hd
    obtain ⟨io, hrun, hio⟩ := hQ.async d.io hd
    refine ⟨d.setIo io, ?_, hio⟩
    change (IoDevices.asyncCbExec d.io).map _ = _
    rw [hrun]
    rfl

theorem ResetKeeps.onIo
    (hQ : ResetKeeps Q) :
  ResetKeeps (OnIo Q)
  := by
  intro addr d hd
  change Q (if d.IsEEprom addr then d else d.setIo (IoDevices.reset addr d.io)).io
  split
  · exact hd
  · exact hQ addr d.io hd

theorem at90s8515_flash :
  at90s8515.flashBase = 0 ∧ at90s8515.flashSize = 8192
  := by
  decide +kernel

omit [IoDevices δ] in
theorem Shows.flash_base
    (h : Shows at90s8515 flash st (OnIo Q) 0 c m) :
  c.flash.base = 0 ∧ c.flash.size = 8192
  := by
  have hflash := at90s8515_flash
  rw [← h.layout] at hflash
  exact hflash

/-- A reset after a test case -/
theorem Shows.idle_reset
    (h : Shows at90s8515 flash st (OnIo Q) 0 c m) (hreset : ResetKeeps Q) :
  Idle c.reset Q
  := by
  have hmax : c.pcMax = 4096 := by
    rw [← at90s8515_pcMax, ← h.layout]
    rfl
  have hplain : c.layout.Plain := by
    rw [h.layout]
    exact at90s8515_plain
  have hrestarted := AvrCore.Runnable.restarted (Q := OnIo Q) ⟨hplain, by omega, h.dev, h.stack⟩ hreset.onIo
  have hstate : c.reset.state ≠ .sleep := by
    rw [(AvrCore.reset_spec c).state, h.state]
    exact h.awake
  exact ⟨hrestarted.layout.trans h.layout, ⟨hrestarted.ready.plain, hrestarted.ready.dev,
    hrestarted.ready.pc, hrestarted.ready.stack, hstate, hrestarted.ready.pending⟩, hrestarted.pc⟩

omit [IoDevices δ] in
theorem Idle.shows
    (h : Idle c Q) :
  Shows at90s8515 c.flash c.state (OnIo Q) 0 c c.view
  := by
  rw [← h.layout]
  exact h.ready.shows

/-! ### The parts of a test case -/

section

variable {cellName : Int → Option (List Char)}

theorem Shows.performs_readRegs
    (h : Shows at90s8515 flash st (OnIo Q) 0 c m) (hpc : m.pc < 4096) :
  Performs cellName c readRegs c m.regs
  := by
  rw [← h.regs (by omega)]
  apply SimulAvr.performs_readRegs (h.hasGdbSp at90s8515_plain)

variable (cellName) in
theorem Shows.performs_writeSp
    (h : Shows at90s8515 flash st (OnIo Q) 0 c m) :
  ∃ c', Performs cellName c (writeReg Reg.SP spVal) c' () ∧
    Shows at90s8515 flash st (OnIo Q) 0 c' { m with sp := .ofNat 16 spVal }
  := by
  have hmax : 0 < c.pcMax := by
    change 0 < c.layout.pcMax
    rw [h.layout, at90s8515_pcMax]
    decide
  obtain ⟨display, hperforms⟩ := performs_writeReg cellName
    (h.hasGdbSp at90s8515_plain) (by decide : spVal < 2 ^ (8 * regSize Reg.SP))
    (fun heq => absurd heq (by decide)) hmax
  rw [RegFile.set_sp] at hperforms
  exact ⟨_, hperforms, h.withRegFile 0x50 0x02 display⟩

omit [IoDevices δ] in
theorem Shows.has_flash
    (h : Shows at90s8515 flash st (OnIo Q) 0 c m) {x : Int} (hx : 0 ≤ x ∧ x < 8192) :
  Segment.flash.Has c x
  := by
  obtain ⟨hbase, hsize⟩ := h.flash_base
  refine ⟨⟨hbase, ?_⟩, hx.1, ?_, ?_⟩
  · rw [hsize]
    rfl
  · rw [hsize]
    exact hx.2
  · change x < 0x00800000
    omega

variable (cellName) in
/-- Words in the flash -/
theorem Shows.performs_writeFlash
    (h : Shows at90s8515 flash st (OnIo Q) 0 c m) {a : Nat} {words : List Word} (hwords : words ≠ [])
    (hlen : words.length ≤ 2) (hroom : a + words.length ≤ 4096) :
  ∃ c', Performs cellName c (writeFlash (a * 2) (imageBytes words).length (imageBytes words)) c' () ∧
    Shows at90s8515 c'.flash st (OnIo Q) 0 c' m ∧
    c'.flash.HoldsAt a words ∧ ∀ b : Int, b < a ∨ a + words.length ≤ b → c'.flash.word b = c.flash.word b
  := by
  have hbytes := length_imageBytes words
  have hpos := List.length_pos_of_ne_nil hwords
  have hin : ∀ x, 2 * (a : Int) ≤ x → x < 2 * a + (imageBytes words).length → Segment.flash.Has c x := by
    intro x hlow hhigh
    apply h.has_flash
    omega
  obtain ⟨c', hperforms, hwrote, hother⟩ :=
    performs_writeMem cellName (s := .flash) (by omega) hin (by omega)
  have haddr : (Segment.flash.offset + 2 * (a : Int)).toNat = a * 2 + offsetFlash := by
    change (0 + 2 * (a : Int)).toNat = a * 2 + 0
    omega
  rw [haddr] at hperforms
  have h' := h.otherMemory hother
  have hsram : c'.sramByte = c.sramByte := by
    funext x
    exact congrFun (hwrote.other .sram (by decide)) x.toNat
  refine ⟨c', hperforms, { h' with sram := ?_ }, hwrote.holdsAt h'.flash_base hroom, ?_⟩
  · rw [hsram]
    exact h.sram
  intro b hb
  apply hwrote.word_of_not_mem
  omega

/-! ### Whole test cases -/

omit [IoDevices δ] in
theorem expectEq_self
    {expect got : Int} (h : expect = got) (format : String) (args : List Int) :
  expectEq expect got format args = .ret ()
  := if_neg (not_not.mpr h)

omit [IoDevices δ] in
/-- A loop of checks that find nothing wrong -/
theorem forM_checks
    {α : Type} {check : α → ClientM Unit} {xs : List α} (h : ∀ x ∈ xs, check x = .ret ()) :
  xs.forM check = .ret ()
  := by
  induction xs with
  | nil => rfl
  | cons x xs ih =>
    rw [List.forall_mem_cons] at h
    change Process.bind (check x) (fun _ => xs.forM check) = _
    rw [h.1]
    exact ih h.2

namespace OpcodeTest

variable {t : OpcodeTest}

/-- `common_analyze_results` of a view with which nothing is wrong -/
theorem Accepts.performs
    {r : Regs} (hv : t.Accepts Q r m) (h : Shows at90s8515 flash st (OnIo Q) 0 c m) :
  Performs cellName c (t.commonAnalyzeResults r) c ()
  := by
  apply Performs.bind (h.performs_readRegs hv.pc)
  apply Performs.bind (hv.analyze cellName flash st c h)
  have hpc : t.checkPc r m.regs = .ret () := by
    rw [checkPc]
    cases hchecked : t.isPcChecked with
    | true => rfl
    | false =>
      have hnext : ((r Reg.PC : Int) + 2) = m.regs Reg.PC := by
        rw [← Nat.cast_ofNat, ← Nat.cast_add, ← hv.next hchecked]
        rfl
      rw [if_neg Bool.false_ne_true, expectEq_self hnext]
  have hunchanged : ((List.finRange 35).filter fun i => i < Reg.PC).forM (t.checkUnchanged r m.regs)
      = .ret () := by
    apply forM_checks
    intro i hi
    have hlt : i < Reg.PC := by simpa using hi
    rw [checkUnchanged]
    split
    · rfl
    · next hmem => rw [hv.unchanged i hlt hmem, expectEq_self rfl]
  change Performs cellName c (Process.bind (t.checkPc r m.regs) fun _ => List.forM _ _) c ()
  rw [hpc, hunchanged]
  exact Performs.pure c ()

variable (cellName) in
/-- `common_setup` of `opcode_test` puts the opcode at the program counter and sets the registers. -/
theorem Prepares.performs_commonSetupRegs
    {r : Regs} {words : List Word} {sram : Word → Byte} {data : Option (Nat × Word)}
    (hp : t.Prepares Q m r words sram data) (h : Shows at90s8515 c.flash st (OnIo Q) 0 c m)
    (hpc : m.pc < 4096) :
  ∃ c', Performs cellName c t.commonSetupRegs c' r ∧
    Shows at90s8515 c'.flash st (OnIo Q) 0 c' ({ m with sram := sram }.withRegs r) ∧
    c'.flash.HoldsAt (r Reg.PC / 2) words ∧ ∀ p ∈ data, c'.flash.HoldsAt p.1 [p.2]
  := by
  obtain ⟨raw, hopcode, hsetup⟩ := hp.performs
  obtain ⟨c₁, hperforms₁, h₁, hdata₁⟩ := hsetup cellName st c h
  obtain ⟨c₂, hperforms₂, h₂, hwords, hothers⟩ :=
    h₁.performs_writeFlash cellName hp.nonempty hp.short hp.room
  have hmax : (RegFile.ofRegs r).pc < c₂.pcMax := by
    have hroom := hp.room
    have hpos := List.length_pos_of_ne_nil hp.nonempty
    change ((r Reg.PC / 2 : Nat) : Int) < c₂.layout.pcMax
    rw [h₂.layout, at90s8515_pcMax]
    omega
  obtain ⟨display, hperforms₃⟩ := performs_writeRegs cellName
    (h₂.hasGdbSp at90s8515_plain) hp.valid hmax
  have heven : r Reg.PC / 2 * 2 = r Reg.PC := by
    have := hp.valid.even
    omega
  rw [heven] at hperforms₂
  refine ⟨c₂.withRegFile (RegFile.ofRegs r) display, ?_, h₂.withRegs r display, hwords, ?_⟩
  · apply Performs.bind (h.performs_readRegs hpc)
    apply Performs.bind hperforms₁
    apply Performs.orRaise hopcode
    apply Performs.bind hperforms₂
    exact hperforms₃.bind (Performs.pure _ r)
  · intro p hdata n word hword
    obtain ⟨hvalid, hvalue⟩ := Flash.valid_of_flashRead (hdata₁ p hdata n word hword)
    have hbase₁ := h₁.flash_base
    have hbase₂ := h₂.flash_base
    obtain ⟨hn, -⟩ := List.getElem?_eq_some_iff.mp hword
    obtain rfl : n = 0 := Nat.lt_one_iff.mp hn
    have hother := hp.data p hdata
    change flashRead c₂.flash _ = _
    rw [Flash.flashRead_of_valid, hothers, hvalue]
    · omega
    · rw [Flash.Valid, hbase₂.1, hbase₂.2]
      rwa [Flash.Valid, hbase₁.1, hbase₁.2] at hvalid

variable (cellName) in
/-- What comes before `common_setup` of `opcode_test` -/
theorem exists_start
    (t : OpcodeTest) (h : Idle c Q) :
  ∃ c₁ m₁, Shows at90s8515 c₁.flash c.state (OnIo Q) 0 c₁ m₁ ∧ m₁.pc = 0 ∧
    (t.stack = true → m₁.sp = .ofNat 16 spVal) ∧
    ∀ c' r, Performs cellName c₁ t.commonSetupRegs c' r → Performs cellName c t.commonSetup c' r
  := by
  have hpc : c.view.pc = 0 := by
    change c.pc.toNat = 0
    rw [h.pc]
    rfl
  rw [commonSetup]
  split
  · obtain ⟨c₁, hperforms, h₁⟩ := h.shows.performs_writeSp cellName
    refine ⟨c₁, _, { h₁ with flash := rfl }, hpc, fun _ => rfl, ?_⟩
    intro c' r hrest
    exact hperforms.bind hrest
  · next hstack => exact ⟨c, _, h.shows, hpc, fun hs => absurd hs hstack, fun _ _ hrest => hrest⟩

variable (cellName) in
/-- A correct test case passes. -/
theorem Correct.performs_run
    (ht : t.Correct Q) (h : Idle c Q) (limit : Nat) :
  ∃ c' flash st m, Performs cellName c (t.run limit) c' () ∧ Shows at90s8515 flash st (OnIo Q) 0 c' m
  := by
  obtain ⟨c₁, m₁, h₁, hpc, hsp, hstart⟩ := exists_start cellName t h
  obtain ⟨r, words, sram, data, hprep, heffect⟩ := ht m₁ hpc hsp
  obtain ⟨c₂, hsetup, h₂, hwords, hdata⟩ :=
    hprep.performs_commonSetupRegs cellName h₁ (by omega)
  obtain ⟨m', htakes, hv⟩ := heffect c₂.flash hwords hdata
  obtain ⟨ret, c₃, hstep, hret, h₃⟩ := htakes c.state c₂ h₂
  refine ⟨c₃, c₂.flash, c.state, m', ?_, h₃⟩
  apply Performs.bind (hstart c₂ r hsetup)
  apply Performs.bind (performs_rspStep hstep hret (h₃.hasGdbSp at90s8515_plain) limit)
  exact hv.performs h₃

end OpcodeTest

/-! ### The whole run -/

/-- A test that passes is not caught. -/
theorem Performs.passes
    {test : ClientM Unit} (h : Performs cellName c test c' ()) :
  Performs cellName c (SimulAvr.passes test) c' true
  := by
  intro l hl
  obtain ⟨n, l', hcalls, hl'⟩ := h l hl
  exact ⟨n, l', (hcalls.bind _).handle _, hl'⟩

variable (cellName) in
/-- All test cases that are correct pass. -/
theorem performs_runTests
    {tests : List OpcodeTest} (htests : ∀ t ∈ tests, t.Correct Q) (hreset : ResetKeeps Q)
    (h : Idle c Q) (limit : Nat) :
  ∃ c', Performs cellName c (runTests limit tests) c' (tests.length, 0) ∧ Idle c' Q
  := by
  induction tests generalizing c with
  | nil => exact ⟨c, .pure c _, h⟩
  | cons t tests ih =>
    rw [List.forall_mem_cons] at htests
    obtain ⟨c₁, flash, st, m, hrun, h₁⟩ := htests.1.performs_run cellName h limit
    obtain ⟨c', hrest, h'⟩ := ih htests.2 (h₁.idle_reset hreset)
    refine ⟨c', ?_, h'⟩
    apply Performs.bind hrun.passes
    apply Performs.bind (performs_targetReset c₁ limit)
    exact hrest.bind (Performs.pure c' _)

end

end

end SimulAvr
