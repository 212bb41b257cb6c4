import SimulAvr.Regress.BitTests
import SimulAvr.Regress.WordTests

/-!
# The suite of test cases

The test cases of the arithmetic, logic and bit instructions, of the moves and of the products, with
the numbers that a script fills in.  A script that works on one register twice gives it one value,
and the values of SBIW are such that the test case looks at the right bit.  Every list of these test
cases passes on an at90s8515 whose peripherals leave the core alone, whatever the order of the steps
of the client and the server.
-/

namespace SimulAvr

open Exchange

/-- The test cases of the suite -/
inductive SuiteTest : OpcodeTest → Prop where
  | adc {Rd Rr : Fin 32} {Vd Vr : Byte} (hsame : Rd = Rr → Vd = Vr) (C : Bool) :
      SuiteTest (baseADC Rd Vd Rr Vr C)
  | add {Rd Rr : Fin 32} {Vd Vr : Byte} (hsame : Rd = Rr → Vd = Vr) (C : Bool) :
      SuiteTest (baseADD Rd Vd Rr Vr C)
  | adiw (Rd : PairReg) (vd : Word) (vk : BitVec 6) : SuiteTest (baseADIW Rd vd vk)
  | and {Rd Rr : Fin 32} {Vd Vr : Byte} (hsame : Rd = Rr → Vd = Vr) : SuiteTest (baseAND Rd Vd Rr Vr)
  | andi (Rd : UpperReg) (Vd Vk : Byte) : SuiteTest (baseANDI Rd Vd Vk)
  | asr (Rd : Fin 32) (Vd : Byte) : SuiteTest (baseASR Rd Vd)
  | bclr (bit : Fin 8) : SuiteTest (baseBCLR bit)
  | bld (reg : Fin 32) (bit : Fin 8) (T : Bool) : SuiteTest (baseBLD reg bit T)
  | bset (bit : Fin 8) : SuiteTest (baseBSET bit)
  | bst (reg : Fin 32) (bit : Fin 8) (T : Bool) : SuiteTest (baseBST reg bit T)
  | com (Rd : Fin 32) (Vd : Byte) : SuiteTest (baseCOM Rd Vd)
  | cp {Rd Rr : Fin 32} {Vd Vr : Byte} (hsame : Rd = Rr → Vd = Vr) : SuiteTest (baseCP Rd Vd Rr Vr)
  | cpc {Rd Rr : Fin 32} {Vd Vr : Byte} (hsame : Rd = Rr → Vd = Vr) (C Z : Bool) :
      SuiteTest (baseCPC Rd Vd Rr Vr C Z)
  | cpi (Rd : UpperReg) (Vd Vk : Byte) : SuiteTest (baseCPI Rd Vd Vk)
  | dec (Rd : Fin 32) (Vd : Byte) : SuiteTest (baseDEC Rd Vd)
  | eor {Rd Rr : Fin 32} {Vd Vr : Byte} (hsame : Rd = Rr → Vd = Vr) : SuiteTest (baseEOR Rd Vd Rr Vr)
  | inc (Rd : Fin 32) (Vd : Byte) : SuiteTest (baseINC Rd Vd)
  | ldi (Rd : UpperReg) (Vd : Byte) : SuiteTest (baseLDI Rd Vd)
  | lsr (Rd : Fin 32) (Vd : Byte) : SuiteTest (baseLSR Rd Vd)
  | mov (Rd Rr : Fin 32) : SuiteTest (baseMOV Rd Rr)
  | movw (Rd Rr : EvenReg) : SuiteTest (baseMOVW Rd Rr)
  | mul {Rd Rr : Fin 32} {Vd Vr : Byte} (hsame : Rd = Rr → Vd = Vr) : SuiteTest (baseMUL Rd Vd Rr Vr)
  | muls {Rd Rr : UpperReg} {Vd Vr : Byte} (hsame : Rd = Rr → Vd = Vr) :
      SuiteTest (baseMULS Rd Vd Rr Vr)
  | mulsu {Rd Rr : MiddleReg} {Vd Vr : Byte} (hsame : Rd = Rr → Vd = Vr) :
      SuiteTest (baseMULSU Rd Vd Rr Vr)
  | neg (Rd : Fin 32) (Vd : Byte) : SuiteTest (baseNEG Rd Vd)
  | nop : SuiteTest testNOP
  | or {Rd Rr : Fin 32} {Vd Vr : Byte} (hsame : Rd = Rr → Vd = Vr) : SuiteTest (baseOR Rd Vd Rr Vr)
  | ori (Rd : UpperReg) (Vd Vk : Byte) : SuiteTest (baseORI Rd Vd Vk)
  | ror (Rd : Fin 32) (Vd : Byte) (C : Bool) : SuiteTest (baseROR Rd Vd C)
  | sbc {Rd Rr : Fin 32} {Vd Vr : Byte} (hsame : Rd = Rr → Vd = Vr) (C Z : Bool) :
      SuiteTest (baseSBC Rd Vd Rr Vr C Z)
  | sbci (Rd : UpperReg) (Vd Vk : Byte) (C Z : Bool) : SuiteTest (baseSBCI Rd Vd Vk C Z)
  | sbiw (Rd : PairReg) {vd : Word} {vk : BitVec 6} (hbits : vd.getLsbD 15 = true ∨
      (vd - .ofNat 16 vk.toNat).getLsbD 0 = (vd - .ofNat 16 vk.toNat).getLsbD 15) :
      SuiteTest (baseSBIW Rd vd vk)
  | sub {Rd Rr : Fin 32} {Vd Vr : Byte} (hsame : Rd = Rr → Vd = Vr) : SuiteTest (baseSUB Rd Vd Rr Vr)
  | subi (Rd : UpperReg) (Vd Vk : Byte) : SuiteTest (baseSUBI Rd Vd Vk)
  | swap (reg : Fin 32) : SuiteTest (baseSWAP reg)

section

variable {δ : Type} [IoDevices δ] {Q : δ → Prop}

/-- The simulator has the effects that the test cases expect. -/
theorem SuiteTest.correct
    (hQ : QuietDevices Q) {t : OpcodeTest} (h : SuiteTest t) :
  t.Correct Q
  := by
  cases h with
  | adc hsame C => exact correct_ADC hQ hsame C
  | add hsame C => exact correct_ADD hQ hsame C
  | adiw Rd vd vk => exact correct_ADIW hQ Rd vd vk
  | and hsame => exact correct_AND hQ hsame
  | andi Rd Vd Vk => exact correct_ANDI hQ Rd Vd Vk
  | asr Rd Vd => exact correct_ASR hQ Rd Vd
  | bclr bit => exact correct_BCLR hQ bit
  | bld reg bit T => exact correct_BLD hQ reg bit T
  | bset bit => exact correct_BSET hQ bit
  | bst reg bit T => exact correct_BST hQ reg bit T
  | com Rd Vd => exact correct_COM hQ Rd Vd
  | cp hsame => exact correct_CP hQ hsame
  | cpc hsame C Z => exact correct_CPC hQ hsame C Z
  | cpi Rd Vd Vk => exact correct_CPI hQ Rd Vd Vk
  | dec Rd Vd => exact correct_DEC hQ Rd Vd
  | eor hsame => exact correct_EOR hQ hsame
  | inc Rd Vd => exact correct_INC hQ Rd Vd
  | ldi Rd Vd => exact correct_LDI hQ Rd Vd
  | lsr Rd Vd => exact correct_LSR hQ Rd Vd
  | mov Rd Rr => exact correct_MOV hQ Rd Rr
  | movw Rd Rr => exact correct_MOVW hQ Rd Rr
  | mul hsame => exact correct_MUL hQ hsame
  | muls hsame => exact correct_MULS hQ hsame
  | mulsu hsame => exact correct_MULSU hQ hsame
  | neg Rd Vd => exact correct_NEG hQ Rd Vd
  | nop => exact correct_NOP hQ
  | or hsame => exact correct_OR hQ hsame
  | ori Rd Vd Vk => exact correct_ORI hQ Rd Vd Vk
  | ror Rd Vd C => exact correct_ROR hQ Rd Vd C
  | sbc hsame C Z => exact correct_SBC hQ hsame C Z
  | sbci Rd Vd Vk C Z => exact correct_SBCI hQ Rd Vd Vk C Z
  | sbiw Rd hbits => exact correct_SBIW hQ Rd hbits
  | sub hsame => exact correct_SUB hQ hsame
  | subi Rd Vd Vk => exact correct_SUBI hQ Rd Vd Vk
  | swap reg => exact correct_SWAP hQ reg

/-- The suite passes, however the steps of the client and the server are interleaved: there is a
number of steps after which the client has counted every test case as passed, from every state on
the way they can get there in the steps that are left, and they never wait for each other. -/
theorem suite_passes
    (hQ : QuietDevices Q) (hreset : ResetKeeps Q) (cellName : Int → Option (List Char))
    {l : Connection (WithEEprom δ)} {c : AvrCore (WithEEprom δ)} (hready : Ready l c)
    (hidle : Idle c Q) {tests : List OpcodeTest} (htests : ∀ t ∈ tests, SuiteTest t) (limit : Nat) :
  ∃ n l' c', Ready l' c' ∧ Idle c' Q ∧ ∀ k pair,
    Steps (gdbServe cellName) k ⟨runTests limit tests, [], l, []⟩ pair →
      k ≤ n ∧ Steps (gdbServe cellName) (n - k) pair ⟨.ret (tests.length, 0), [], l', []⟩
        ∧ ((∀ pair', ¬ Exchange.Step (gdbServe cellName) pair pair') →
          pair = ⟨.ret (tests.length, 0), [], l', []⟩)
  := by
  have hcorrect : ∀ t ∈ tests, t.Correct Q := fun t ht => (htests t ht).correct hQ
  obtain ⟨c', hperforms, hidle'⟩ := performs_runTests cellName hcorrect hreset hidle limit
  obtain ⟨n, l', hcalls, hready'⟩ := hperforms l hready
  refine ⟨n, l', c', hready', hidle', ?_⟩
  intro k pair hsteps
  exact hcalls.reaches hready.waits (.ret (tests.length, 0)) hsteps

end

/-- An addition, a subtraction from a word with bit 15 set, and NOP -/
theorem suite_passes_three :
  ∃ n l', ∀ k pair,
    let dev : WithEEprom Peripherals :=
      { ee := { addr := 0x3c, eedr := 0, eearl := 0, eearh := 0, mem := fun _ => 0 },
        io := Peripherals.at90s8515 }
    let l : Connection (WithEEprom Peripherals) :=
      { server := { core := AvrCore.construct defnAt90s8515 dev, mode := .waiting, sent := [] }
        input := [], blockOn := false, blocking := false }
    Steps (gdbServe fun _ => none) k
        ⟨runTests 0 [baseADD 0 0xff 1 0x01 false, baseSBIW ⟨24, by decide⟩ 0x8000 0x01, testNOP],
          [], l, []⟩ pair →
      k ≤ n ∧ ((∀ pair', ¬ Exchange.Step (gdbServe fun _ => none) pair pair') →
        pair = ⟨.ret (3, 0), [], l', []⟩)
  := by
  let dev : WithEEprom Peripherals :=
    { ee := { addr := 0x3c, eedr := 0, eearl := 0, eearh := 0, mem := fun _ => 0 },
      io := Peripherals.at90s8515 }
  let c : AvrCore (WithEEprom Peripherals) := AvrCore.construct defnAt90s8515 dev
  let l : Connection (WithEEprom Peripherals) :=
    { server := { core := c, mode := .waiting, sent := [] }
      input := [], blockOn := false, blocking := false }
  have hready : Ready l c := ⟨rfl, rfl, rfl⟩
  have hlayout : c.layout = at90s8515 := rfl
  have hidle : Idle c Peripherals.Quiet := by
    refine ⟨hlayout, ⟨?_, Peripherals.at90s8515_quiet, Int.le_refl 0, rfl, ?_, rfl⟩, rfl⟩
    · rw [hlayout]
      exact at90s8515_plain
    · exact StateType.noConfusion
  let tests : List OpcodeTest :=
    [baseADD 0 0xff 1 0x01 false, baseSBIW ⟨24, by decide⟩ 0x8000 0x01, testNOP]
  have htests : ∀ t ∈ tests, SuiteTest t := by
    simp only [tests, List.forall_mem_cons]
    refine ⟨.add (fun heq => absurd heq (by decide)) false, .sbiw _ (.inl (by decide)), .nop, ?_⟩
    simp
  obtain ⟨n, l', c', -, -, h⟩ :=
    suite_passes quiet_peripherals resetKeeps_peripherals (fun _ => none) hready hidle htests 0
  refine ⟨n, l', ?_⟩
  intro k pair dev l hsteps
  obtain ⟨hle, -, hend⟩ := h k pair hsteps
  exact ⟨hle, hend⟩

end SimulAvr
