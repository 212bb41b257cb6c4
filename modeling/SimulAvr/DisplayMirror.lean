import Mathlib.Tactic.IntervalCases
import SimulAvr.Breakpoints
import SimulAvr.CoreFootprint
import SimulAvr.Display
import SimulAvr.Reset

/-!
# The display shows the core

The coprocess `Shows` a core when its copies of the registers, the stack pointer, the program
counter and the SRAM are those of the core.  Every access of the simulator sends the messages
for what it changes, so that the coprocess shows the core after all messages sent so far
(`display_shows_core`).
-/

namespace SimulAvr

open Program Transition

/-! ### Pairs of bytes -/

theorem setLow_append
    (high low val : Byte) :
  setLow ((high ++ low : Word).setWidth 32) (val.setWidth 32) = (high ++ val : Word).setWidth 32
  := by
  ext i hi
  simp only [setLow, BitVec.getElem_or, BitVec.getElem_and, BitVec.getElem_setWidth,
    BitVec.getLsbD_append]
  interval_cases i <;> simp

theorem setHigh_append
    (high low val : Byte) :
  setHigh ((high ++ low : Word).setWidth 32) (val.setWidth 32) = (val ++ low : Word).setWidth 32
  := by
  ext i hi
  simp only [setHigh, BitVec.getElem_or, BitVec.getElem_and, BitVec.getElem_setWidth,
    BitVec.getLsbD_append]
  interval_cases i <;> simp

/-- A pair of registers after one register is set -/
theorem pair_update
    {gpwr : Fin 32 → Byte} {i low high : Fin 32} (hne : high ≠ low) {p q : Prop} [Decidable p]
    [Decidable q] (hp : p ↔ i = low) (hq : q ↔ i = high) {val : Byte} :
  (if p then setLow ((gpwr high ++ gpwr low : Word).setWidth 32) (val.setWidth 32)
    else if q then setHigh ((gpwr high ++ gpwr low : Word).setWidth 32) (val.setWidth 32)
    else (gpwr high ++ gpwr low : Word).setWidth 32) =
    (Function.update gpwr i val high ++ Function.update gpwr i val low : Word).setWidth 32
  := by
  by_cases hlow : i = low
  · rw [if_pos (hp.mpr hlow), hlow, Function.update_self, Function.update_of_ne hne, setLow_append]
  · rw [if_neg (mt hp.mp hlow), Function.update_of_ne (Ne.symm hlow)]
    by_cases hhigh : i = high
    · rw [if_pos (hq.mpr hhigh), hhigh, Function.update_self, setHigh_append]
    · rw [if_neg (mt hq.mp hhigh), Function.update_of_ne (Ne.symm hhigh)]

/-! ### What the display shows -/

section

variable {δ : Type}

/-- The coprocess shows the registers, the stack pointer, the program counter and the SRAM of
the core. -/
structure Display.Shows (d : Display) (c : AvrCore δ) : Prop where
  sramSize : c.sram.size ≠ 0 → d.sramSize = c.sram.base + c.sram.size
  pc : d.pc = .ofInt 32 c.pc
  gpwr : ∀ i : Fin 32, d.reg (.ofInt 32 (i.val : Int)) = c.gpwr i
  xreg : d.xreg = (c.gpwr 27 ++ c.gpwr 26 : Word).setWidth 32
  yreg : d.yreg = (c.gpwr 29 ++ c.gpwr 28 : Word).setWidth 32
  zreg : d.zreg = (c.gpwr 31 ++ c.gpwr 30 : Word).setWidth 32
  sreg : d.sreg = c.sreg
  sp : d.spreg = c.spGet.setWidth 32
  sram : ∀ a, c.sram.base ≤ a → a < c.sram.base + c.sram.size →
    d.sram a.toNat = c.sram.data (a - c.sram.base)

/-- The layout has SPL and SPH at 0x5d and 0x5e, SREG at 0x5f and an SRAM in the data space,
as the coprocess has them. -/
structure Layout.Placed (l : Layout) : Prop where
  gpwrEnd : l.mem.gpwrEnd = 0x1f
  ioRegEnd : 0x5f ≤ l.mem.ioRegEnd ∧ l.mem.ioRegEnd ≤ 0xff
  sreg : ∀ addr vdev, (l.mem.cell addr).vdev = some vdev → (vdev = .sreg ↔ addr = 0x5f)
  stackPointer : ∀ addr vdev, (l.mem.cell addr).vdev = some vdev →
    (vdev = .stackPointer ↔ addr = 0x5d ∨ addr = 0x5e)
  splAddr : ∀ addr, (l.mem.cell addr).vdev = some .stackPointer → l.splAddr = 0x5d
  sram : 0 ≤ l.sramBase ∧ l.sramBase + l.sramSize ≤ 0x10000

/-- The coprocess after it has processed the messages of the core -/
def AvrCore.displayed (c : AvrCore δ) (d : Display) : Except DispEnd Display :=
  dispParsePackets (c.display.map DisplayMsg.text) d

/-! ### The effect of a message -/

namespace Display

variable (d : Display) (val bval : BitVec 32)

theorem setReg_reg :
  (d.setReg val bval).reg = Function.update d.reg val (bval.setWidth 8)
  := by
  rw [setReg]
  split_ifs <;> rfl

theorem setReg_sramSize :
  (d.setReg val bval).sramSize = d.sramSize
  := by
  rw [setReg]
  split_ifs <;> rfl

theorem setReg_pc :
  (d.setReg val bval).pc = d.pc
  := by
  rw [setReg]
  split_ifs <;> rfl

theorem setReg_sreg :
  (d.setReg val bval).sreg = d.sreg
  := by
  rw [setReg]
  split_ifs <;> rfl

theorem setReg_spreg :
  (d.setReg val bval).spreg = d.spreg
  := by
  rw [setReg]
  split_ifs <;> rfl

theorem setReg_sram :
  (d.setReg val bval).sram = d.sram
  := by
  rw [setReg]
  split_ifs <;> rfl

theorem setReg_xreg :
  (d.setReg val bval).xreg =
    if val = 26 then setLow d.xreg bval
    else if val = 27 then setHigh d.xreg bval
    else d.xreg
  := by
  rw [setReg]
  split_ifs <;> rfl

theorem setReg_yreg :
  (d.setReg val bval).yreg =
    if val = 28 then setLow d.yreg bval
    else if val = 29 then setHigh d.yreg bval
    else d.yreg
  := by
  rw [setReg]
  split_ifs <;> first | rfl | (subst val; contradiction)

theorem setReg_zreg :
  (d.setReg val bval).zreg =
    if val = 30 then setLow d.zreg bval
    else if val = 31 then setHigh d.zreg bval
    else d.zreg
  := by
  rw [setReg]
  split_ifs <;> first | rfl | (subst val; contradiction)

end Display

namespace Display.Shows

variable {d : Display} {c c' : AvrCore δ}

/-- The display shows no more than these parts of a core. -/
theorem congr
    (h : d.Shows c) (hpc : c'.pc = c.pc) (hgpwr : c'.gpwr = c.gpwr) (hsreg : c'.sreg = c.sreg)
    (hsp : c'.spGet = c.spGet) (hsram : c'.sram = c.sram) :
  d.Shows c'
  := by
  constructor
  · rw [hsram]
    apply h.sramSize
  · rw [h.pc, hpc]
  · rw [hgpwr]
    apply h.gpwr
  · rw [h.xreg, hgpwr]
  · rw [h.yreg, hgpwr]
  · rw [h.zreg, hgpwr]
  · rw [h.sreg, hsreg]
  · rw [h.sp, hsp]
  · rw [hsram]
    apply h.sram

/-- A register is set. -/
theorem gpwrSet
    (h : d.Shows c) (i : Fin 32) (val : Byte) :
  (d.setReg (.ofInt 32 (i.val : Int)) (val.setWidth 32)).Shows (c.gpwrSet i val)
  := by
  have heq (n : Fin 32) : BitVec.ofInt 32 (i.val : Int) = .ofInt 32 (n.val : Int) ↔ i = n := by
    revert i n
    decide +kernel
  constructor
  · rw [setReg_sramSize]
    apply h.sramSize
  · rw [setReg_pc]
    apply h.pc
  · intro n
    rw [setReg_reg]
    rw [show (c.gpwrSet i val).gpwr = Function.update c.gpwr i val from rfl]
    by_cases hn : n = i
    · rw [hn, Function.update_self, Function.update_self,
        BitVec.setWidth_setWidth_of_le _ (by decide), BitVec.setWidth_eq]
    · rw [Function.update_of_ne (by rw [ne_eq, eq_comm, heq, eq_comm]; apply hn),
        Function.update_of_ne hn]
      apply h.gpwr
  · rw [setReg_xreg, h.xreg]
    apply pair_update (by decide) (heq 26) (heq 27)
  · rw [setReg_yreg, h.yreg]
    apply pair_update (by decide) (heq 28) (heq 29)
  · rw [setReg_zreg, h.zreg]
    apply pair_update (by decide) (heq 30) (heq 31)
  · rw [setReg_sreg]
    apply h.sreg
  · rw [setReg_spreg]
    apply h.sp
  · rw [setReg_sram]
    apply h.sram

/-- The program counter is set. -/
theorem pcSet
    (h : d.Shows c) (val : Int) :
  ({ d with pc := .ofInt 32 val } : Display).Shows { c with pc := val }
  := ⟨h.sramSize, rfl, h.gpwr, h.xreg, h.yreg, h.zreg, h.sreg, h.sp, h.sram⟩

/-- SREG is set. -/
theorem sregSet
    (h : d.Shows c) (val : Byte) :
  (d.apply (.ioReg sregIoReg val)).Shows { c with sreg := val }
  := by
  have hval : (val.setWidth 32).setWidth 8 = val := by
    rw [BitVec.setWidth_setWidth_of_le _ (by decide), BitVec.setWidth_eq]
  refine ⟨h.sramSize, h.pc, h.gpwr, h.xreg, h.yreg, h.zreg, ?_, h.sp, h.sram⟩
  apply hval

/-- The low byte of the stack pointer is set. -/
theorem splSet
    (h : d.Shows c) (val : Byte) :
  (d.apply (.ioReg splIoReg val)).Shows { c with sp := { c.sp with spl := val } }
  := by
  refine ⟨h.sramSize, h.pc, h.gpwr, h.xreg, h.yreg, h.zreg, h.sreg, ?_, h.sram⟩
  change setLow d.spreg (val.setWidth 32) = _
  rw [h.sp]
  apply setLow_append

/-- The high byte of the stack pointer is set. -/
theorem sphSet
    (h : d.Shows c) (val : Byte) :
  (d.apply (.ioReg sphIoReg val)).Shows { c with sp := { c.sp with sph := val } }
  := by
  refine ⟨h.sramSize, h.pc, h.gpwr, h.xreg, h.yreg, h.zreg, h.sreg, ?_, h.sram⟩
  change setHigh d.spreg (val.setWidth 32) = _
  rw [h.sp]
  apply setHigh_append

/-- Another IO register is set. -/
theorem ioReg
    (h : d.Shows c) {i : Int} (hi : 0 ≤ i ∧ i < 2 ^ 31) (hspl : i ≠ splIoReg)
    (hsph : i ≠ sphIoReg) (hsreg : i ≠ sregIoReg) (val : Byte) :
  (d.apply (.ioReg i val)).Shows c
  := by
  have hne {n : Nat} (hn : n < 2 ^ 31) (hin : i ≠ n) : BitVec.ofInt 32 i ≠ .ofNat 32 n := by
    intro heq
    have hnat := congrArg BitVec.toNat heq
    rw [BitVec.toNat_ofInt, BitVec.toNat_ofNat] at hnat
    omega
  have hshown : d.apply (.ioReg i val) = { d with
      ioReg := Function.update d.ioReg (.ofInt 32 i) ((val.setWidth 32).setWidth 8) } := by
    have hspl : BitVec.ofInt 32 i ≠ 0x3d := hne (by decide) hspl
    have hsph : BitVec.ofInt 32 i ≠ 0x3e := hne (by decide) hsph
    have hsreg : BitVec.ofInt 32 i ≠ 0x3f := hne (by decide) hsreg
    rw [apply, setIoReg, if_neg hspl, if_neg hsph, if_neg hsreg]
  rw [hshown]
  exact ⟨h.sramSize, h.pc, h.gpwr, h.xreg, h.yreg, h.zreg, h.sreg, h.sp, h.sram⟩

/-- A byte of the SRAM is written. -/
theorem sramWrite
    (h : d.Shows c) (hsram : 0 ≤ c.sram.base ∧ c.sram.base + c.sram.size ≤ 0x10000) {addr : Int}
    {val : Byte} {stor : Storage} (hstor : storageWriteb c.sram addr val = .ok stor) :
  (d.apply (.sram addr [val])).Shows { c with sram := stor }
  := by
  rw [storageWriteb] at hstor
  split at hstor
  · contradiction
  · next hin =>
    obtain rfl := Except.ok.inj hstor
    have hnat : (BitVec.ofInt 32 addr).toNat = addr.toNat := by
      rw [BitVec.toNat_ofInt]
      omega
    have hset : d.apply (.sram addr [val]) =
        { d with sram := Function.update d.sram addr.toNat val } := by
      rw [apply, setSramFrom, setSramFrom, setSram, if_pos, hnat]
      rw [BitVec.lt_def, hnat, h.sramSize (by omega), BitVec.toNat_ofInt]
      omega
    rw [hset]
    refine ⟨h.sramSize, h.pc, h.gpwr, h.xreg, h.yreg, h.zreg, h.sreg, h.sp, ?_⟩
    intro a hlow hhigh
    change Function.update d.sram addr.toNat val a.toNat =
      Function.update c.sram.data (addr - c.sram.base) val (a - c.sram.base)
    by_cases ha : a = addr
    · rw [ha, Function.update_self, Function.update_self]
    · dsimp only at hlow
      rw [Function.update_of_ne (by omega), Function.update_of_ne (by omega)]
      apply h.sram a hlow hhigh

end Display.Shows

/-! ### The invariant -/

/-- The coprocess, started as `d` and after all messages of the core, shows the core, which has
the layout `l`. -/
structure Mirrors (l : Layout) (d : Display) (c : AvrCore δ) : Prop where
  layout : c.layout = l
  shows : ∃ d', c.displayed d = .ok d' ∧ d'.Shows c

namespace Mirrors

variable {l : Layout} {d : Display} {c c' : AvrCore δ}

/-- A message is sent for what changes. -/
theorem send
    (h : Mirrors l d c) {msg : DisplayMsg} (hlayout : c'.layout = c.layout)
    (hdisplay : c'.display = c.display ++ [msg])
    (hshort : msg.Short) (hshows : ∀ d : Display, d.Shows c → (d.apply msg).Shows c') :
  Mirrors l d c'
  := by
  constructor
  · rw [hlayout, h.layout]
  · obtain ⟨d', hd', hshown⟩ := h.shows
    use d'.apply msg
    constructor
    · rw [AvrCore.displayed, hdisplay, List.map_append, dispParsePackets_append]
      rw [AvrCore.displayed] at hd'
      rw [hd', List.map_singleton, ok_bind, dispParsePackets, List.foldlM_cons,
        dispParsePacket_text hshort]
      rfl
    · apply hshows d' hshown

/-- What the display does not show changes. -/
theorem congr
    (h : Mirrors l d c) (hlayout : c'.layout = c.layout) (hdisplay : c'.display = c.display)
    (hpc : c'.pc = c.pc) (hgpwr : c'.gpwr = c.gpwr) (hsreg : c'.sreg = c.sreg)
    (hsp : c'.spGet = c.spGet) (hsram : c'.sram = c.sram) :
  Mirrors l d c'
  := by
  constructor
  · rw [hlayout, h.layout]
  · obtain ⟨d', hd', hshown⟩ := h.shows
    use d'
    constructor
    · rw [AvrCore.displayed, hdisplay]
      apply hd'
    · apply hshown.congr hpc hgpwr hsreg hsp hsram

theorem pcSet
    (h : Mirrors l d c) (val : Int) :
  Mirrors l d (c.pcSet val)
  := by
  apply h.send
  · rfl
  · rfl
  · trivial
  · intro d hd
    exact (hd.pcSet _).congr rfl rfl rfl rfl rfl

theorem sregSet
    (h : Mirrors l d c) (val : Byte) :
  Mirrors l d (c.sregSet val)
  := by
  apply h.send
  · rfl
  · rfl
  · trivial
  · intro d hd
    exact (hd.sregSet val).congr rfl rfl rfl rfl rfl

theorem gpwrSet
    (h : Mirrors l d c) (i : Fin 32) (val : Byte) :
  Mirrors l d (c.gpwrSet i val)
  := by
  apply h.send
  · rfl
  · rfl
  · trivial
  · intro d hd
    apply hd.gpwrSet

theorem spSet
    (h : Mirrors l d c) (val : Word) :
  Mirrors l d (c.spSet val)
  := by
  have hspl : Mirrors l d (({ c with
      sp := { c.sp with spl := val.extractLsb' 0 8 } } : AvrCore δ).displaySend
      (.ioReg splIoReg (val.extractLsb' 0 8))) := by
    apply h.send
    · rfl
    · rfl
    · trivial
    · intro d hd
      apply (hd.splSet _).congr <;> rfl
  apply hspl.send
  · rfl
  · rfl
  · trivial
  · intro d hd
    apply (hd.sphSet _).congr <;> rfl

/-- A message that changes nothing of what the core has. -/
theorem skip
    (h : Mirrors l d c) {msg : DisplayMsg} (hshort : msg.Short)
    (hskip : ∀ d : Display, d.Shows c → (d.apply msg).Shows c) :
  Mirrors l d (c.displaySend msg)
  := by
  apply h.send
  · rfl
  · rfl
  · apply hshort
  · intro d hd
    apply (hskip d hd).congr <;> rfl

end Mirrors

/-- The program keeps the display up to date. -/
abbrev KeepsMirror (l : Layout) (d : Display) {α : Type} (x : CoreM δ α) : Prop :=
  Program.Keeps (Mirrors l d) (fun _ => True) x

namespace KeepsMirror

variable {l : Layout} {d : Display} {α : Type}

theorem pure
    (a : α) :
  KeepsMirror l d (pure a : CoreM δ α)
  := Triple.pure fun _ h => h

theorem gets
    (f : AvrCore δ → α) :
  KeepsMirror l d (gets f)
  := fun _ h => h

theorem update
    {f : AvrCore δ → AvrCore δ} (hf : ∀ c, Mirrors l d c → Mirrors l d (f c)) :
  KeepsMirror l d (update f)
  := fun c h => hf c h

theorem avrError
    (fmt : String) (args : List Int) :
  KeepsMirror l d (avrError fmt args : CoreM δ α)
  := fun _ _ => trivial

theorem avrErrorIf
    {p : Prop} [Decidable p] (fmt : String) (args : List Int) :
  KeepsMirror l d (avrErrorIf p fmt args : CoreM δ Unit)
  := Triple.ite (fun _ => avrError _ _) (fun _ => pure _)

theorem liftExcept
    (x : Except AvrError α) :
  KeepsMirror l d (liftExcept x : CoreM δ α)
  := by
  intro c h
  cases x with
  | error e => trivial
  | ok a => apply h

theorem memGetCell
    (addr : Int) :
  KeepsMirror l d (memGetCell addr : CoreM δ MemoryCell)
  := by
  intro c h
  by_cases hb : 0 ≤ addr ∧ addr ≤ c.mem.xramEnd
  · rw [run_memGetCell c addr hb]
    apply h
  · rw [run_memGetCell_error c addr hb]
    trivial

theorem gpwrGet
    (reg : Int) :
  KeepsMirror l d (avrCoreGpwrGet reg : CoreM δ Byte)
  := by
  intro c h
  by_cases hreg : 0 ≤ reg ∧ reg < 32
  · obtain ⟨r, rfl⟩ := exists_fin_of_mem hreg
    rw [run_avrCoreGpwrGet]
    apply h
  · rw [show (avrCoreGpwrGet reg).run c = .error (.registerOutOfBounds reg) from dif_neg hreg]
    trivial

theorem gpwrSet
    (reg : Int) (val : Byte) :
  KeepsMirror l d (avrCoreGpwrSet reg val : CoreM δ Unit)
  := by
  intro c h
  by_cases hreg : 0 ≤ reg ∧ reg < 32
  · obtain ⟨r, rfl⟩ := exists_fin_of_mem hreg
    rw [run_avrCoreGpwrSet]
    apply h.gpwrSet
  · rw [show (avrCoreGpwrSet reg val).run c = .error (.registerOutOfBounds reg) from
      dif_neg hreg]
    trivial

theorem flashRead
    (addr : Int) :
  KeepsMirror l d (avrCoreFlashRead addr : CoreM δ Word)
  := by
  intro c h
  rw [run_avrCoreFlashRead]
  cases SimulAvr.flashRead c.flash addr with
  | error e => trivial
  | ok w => apply h

theorem flashWrite
    (addr : Int) (val : Word) :
  KeepsMirror l d (avrCoreFlashWrite addr val : CoreM δ Unit)
  := by
  intro c h
  rw [run_avrCoreFlashWrite]
  cases hstor : storageWritew c.flash (addr * 2) val with
  | error e => trivial
  | ok stor =>
    obtain ⟨hbase, hsize⟩ := storageWritew_shape hstor
    apply h.send
    · simp only [AvrCore.layout, AvrCore.displaySend, hbase, hsize]
    · rfl
    · trivial
    · intro d hd
      apply hd.congr <;> rfl

/-- A byte of the flash is written. -/
theorem flashWriteByte
    (addr : Int) (val : Byte) :
  KeepsMirror l d (do
    let flash ← SimulAvr.gets AvrCore.flash
    let flash ← SimulAvr.liftExcept (storageWriteb flash addr val)
    SimulAvr.update (fun c => { c with flash := flash }) : CoreM δ Unit)
  := by
  intro c h
  rw [run_bind_of_ok (run_gets _ c)]
  cases hstor : storageWriteb c.flash addr val with
  | error e =>
    rw [run_bind_of_error (run_liftExcept_error rfl c)]
    trivial
  | ok stor =>
    obtain ⟨hbase, hsize⟩ := storageWriteb_shape hstor
    rw [run_bind_of_ok (run_liftExcept_ok rfl c)]
    apply h.congr
    · simp only [AvrCore.layout, hbase, hsize]
    all_goals rfl

/-! ### Data memory -/

theorem sramWrite
    (hl : l.Placed) (addr : Int) (val : Byte) [IoDevices δ] :
  KeepsMirror l d (vdevWrite .sram addr val : CoreM δ Unit)
  := by
  intro c h
  rw [show (vdevWrite .sram addr val).run c = _ from run_sramWrite c addr val]
  cases hstor : storageWriteb c.sram addr val with
  | error e => trivial
  | ok stor =>
    obtain ⟨hbase, hsize⟩ := storageWriteb_shape hstor
    have hsram : 0 ≤ c.sram.base ∧ c.sram.base + c.sram.size ≤ 0x10000 := by
      rw [← h.layout] at hl
      apply hl.sram
    apply h.send
    · simp only [AvrCore.layout, AvrCore.displaySend, hbase, hsize]
    · rfl
    · change 1 < 2 ^ 32
      decide
    · intro d hd
      exact (hd.sramWrite hsram hstor).congr rfl rfl rfl rfl rfl

variable [IoDevices δ]

omit [IoDevices δ] in
theorem liftDev
    (x : Except DevError α) :
  KeepsMirror l d (liftDev x : CoreM δ α)
  := liftExcept _

omit [IoDevices δ] in
theorem setDev
    (dev : δ) :
  KeepsMirror l d (SimulAvr.update fun c => { c with dev := dev })
  := by
  apply update
  intro c h
  apply h.congr <;> rfl

theorem vdevRead
    (vdev : VDevice) (addr : Int) :
  KeepsMirror l d (vdevRead vdev addr : CoreM δ Byte)
  := by
  cases vdev with
  | gpwr => apply gpwrGet
  | sreg => apply gets
  | stackPointer =>
    apply Triple.bind (gets _)
    intro sp
    apply Triple.ite (fun _ => pure _)
    intro _
    apply Triple.ite (fun _ => pure _) (fun _ => avrError _ _)
  | rampz => apply gets
  | sram => exact Triple.bind (gets _) fun stor => liftExcept _
  | spm =>
    apply Triple.bind (gets _)
    intro spm
    apply Triple.ite (fun _ => pure _) (fun _ => avrError _ _)
  | io =>
    apply Triple.bind (gets _)
    intro dev
    apply Triple.bind (liftDev _)
    rintro ⟨val, dev⟩
    exact Triple.bind (setDev dev) fun _ => pure _

theorem memRead
    (addr : Int) :
  KeepsMirror l d (memRead addr : CoreM δ Byte)
  := by
  apply Triple.bind (memGetCell addr)
  rintro ⟨_ | vdev, rdMask, wrMask⟩
  · apply pure
  · apply Triple.bind (vdevRead vdev addr)
    intro val
    apply pure

/-- The devices at other addresses than those of SREG and the stack pointer -/
theorem vdevWrite
    (hl : l.Placed) {vdev : VDevice} (hsreg : vdev ≠ .sreg) (hsp : vdev ≠ .stackPointer) (addr : Int)
    (val : Byte) :
  KeepsMirror l d (vdevWrite vdev addr val : CoreM δ Unit)
  := by
  cases vdev with
  | gpwr => apply gpwrSet
  | sreg => contradiction
  | stackPointer => contradiction
  | rampz =>
    apply update
    intro c h
    apply h.congr <;> rfl
  | sram => apply sramWrite hl
  | spm =>
    apply Triple.bind (gets _)
    intro spm
    apply Triple.bind (avrErrorIf _ _)
    intro _
    apply Triple.bind (avrErrorIf _ _)
    intro _
    apply Triple.bind (avrErrorIf _ _)
    intro _
    apply Triple.bind (avrErrorIf _ _)
    intro _
    apply Triple.bind (avrErrorIf _ _)
    intro _
    apply update
    intro c h
    apply h.congr <;> rfl
  | io =>
    apply Triple.bind (gets _)
    intro dev
    apply Triple.bind (liftDev _)
    intro dev
    apply setDev

omit [IoDevices δ] in
/-- A write to SREG: two messages with the same value are sent. -/
theorem writeSreg
    {c : AvrCore δ} (h : Mirrors l d c) (val : Byte) :
  Mirrors l d ((c.displaySend (.ioReg sregIoReg val)).sregSet val)
  := (h.sregSet val).sregSet val

/-- A write to the stack pointer -/
theorem writeSp
    {c : AvrCore δ} (h : Mirrors l d c) (hspl : c.sp.splAddr = 0x5d) {addr : Int}
    (haddr : addr = 0x5d ∨ addr = 0x5e) (val : Byte) :
  Triple (fun c' => c' = c.displaySend (.ioReg (addr - 0x20) val))
    (SimulAvr.vdevWrite .stackPointer addr val : CoreM δ Unit) (fun _ => Mirrors l d)
    (fun _ => True)
  := by
  rintro _ rfl
  rw [show SimulAvr.vdevWrite .stackPointer addr val = spWrite addr val from rfl, spWrite, run_bind_of_ok (run_gets _ _)]
  have hsp : (c.displaySend (.ioReg (addr - 0x20) val)).sp = c.sp := rfl
  rw [hsp]
  rcases haddr with rfl | rfl
  · rw [if_pos hspl.symm, run_update]
    apply h.send
    · rfl
    · rfl
    · trivial
    · intro d hd
      apply (hd.splSet val).congr <;> rfl
  · have hsph : (0x5e : Int) ≠ c.sp.splAddr ∧ (0x5e : Int) = c.sp.splAddr + 1 := by
      rw [hspl]
      decide
    rw [if_neg hsph.1, if_pos hsph.2, run_update]
    apply h.send
    · rfl
    · rfl
    · trivial
    · intro d hd
      apply (hd.sphSet val).congr <;> rfl

theorem memWrite
    (hl : l.Placed) (addr : Int) (val : Byte) :
  KeepsMirror l d (memWrite addr val : CoreM δ Unit)
  := by
  intro c h
  by_cases hb : 0 ≤ addr ∧ addr ≤ c.mem.xramEnd
  · rw [SimulAvr.memWrite, run_bind_of_ok (run_memGetCell c addr hb)]
    cases hvdev : (c.mem.cell addr).vdev with
    | none => apply h
    | some vdev =>
      dsimp only
      rw [run_bind_of_ok (run_update _ c)]
      have hl' := hl
      rw [← h.layout] at hl'
      have hsregAt := hl'.sreg addr vdev hvdev
      have hspAt := hl'.stackPointer addr vdev hvdev
      by_cases hsreg : vdev = .sreg
      · obtain rfl := hsreg
        have haddr : addr = 0x5f := hsregAt.mp rfl
        have hio : memIsIoReg c.mem addr := by
          have hbegin : c.mem.gpwrEnd = 0x1f := hl'.gpwrEnd
          have hend := hl'.ioRegEnd.1
          constructor
          · omega
          · rw [haddr]
            apply hend
        rw [if_pos hio, show c.mem.gpwrEnd = 0x1f from hl'.gpwrEnd, haddr]
        apply writeSreg h
      · by_cases hsp : vdev = .stackPointer
        · obtain rfl := hsp
          have haddr := hspAt.mp rfl
          have hio : memIsIoReg c.mem addr := by
            have hbegin : c.mem.gpwrEnd = 0x1f := hl'.gpwrEnd
            have hend : 0x5f ≤ c.mem.ioRegEnd := hl'.ioRegEnd.1
            constructor
            · omega
            · omega
          rw [if_pos hio, show c.mem.gpwrEnd = 0x1f from hl'.gpwrEnd]
          apply writeSp h (hl'.splAddr addr hvdev) haddr _ _ rfl
        · apply vdevWrite hl hsreg hsp
          split
          · next hio =>
            rw [show c.mem.gpwrEnd = 0x1f from hl'.gpwrEnd]
            have hbegin : addr > c.mem.gpwrEnd := hio.1
            have hend : addr ≤ c.mem.ioRegEnd := hio.2
            have hmax : c.mem.ioRegEnd ≤ 0xff := hl'.ioRegEnd.2
            have hmin : c.mem.gpwrEnd = 0x1f := hl'.gpwrEnd
            have hsreg' := mt hsregAt.mpr hsreg
            have hsp' := mt hspAt.mpr hsp
            apply h.skip
            · trivial
            · intro d hd
              apply hd.ioReg
              · omega
              · change addr - (0x1f + 1) ≠ 0x3d
                omega
              · change addr - (0x1f + 1) ≠ 0x3e
                omega
              · change addr - (0x1f + 1) ≠ 0x3f
                omega
          · apply h
  · rw [SimulAvr.memWrite, run_bind_of_error (run_memGetCell_error c addr hb)]
    trivial

/-- The accesses of the instructions -/
theorem access
    (hl : l.Placed) {S : Scope} {pc : Prop} {x : CoreM δ α} (hx : Access S pc α x) :
  KeepsMirror l d x
  := by
  cases hx with
  | error h fmt args => apply avrError
  | pcGet => apply gets
  | pcSize => apply gets
  | pcSet _ val =>
    apply update
    intro c h
    apply h.pcSet
  | pcIncr _ val =>
    apply update
    intro c h
    apply h.pcSet
  | instCKSSet val =>
    apply update
    intro c h
    apply h.congr <;> rfl
  | sregGet => apply gets
  | sregSet v =>
    apply update
    intro c h
    apply h.sregSet
  | sregGetBit b => apply gets
  | sregSetBit b v =>
    apply update
    intro c h
    apply h.sregSet
  | rampzGet => apply gets
  | rampzSet v =>
    apply update
    intro c h
    rw [AvrCore.rampzSet]
    split
    · apply h.congr <;> rfl
    · apply h
  | eindGet => apply gets
  | gpwrGet reg => apply gpwrGet
  | gpwrSet reg val => apply gpwrSet
  | spGet => apply gets
  | spSet val =>
    apply update
    intro c h
    apply h.spSet
  | stackGet => apply gets
  | stackSet stack =>
    apply update
    intro c h
    apply h.congr <;> rfl
  | memRead _ => apply memRead
  | memWrite _ => apply memWrite hl
  | flashReadNext _ => exact Triple.bind (gets _) fun pc => flashRead _
  | flashRead _ addr => apply flashRead
  | flashWrite _ addr val => apply flashWrite
  | spmGet => apply gets
  | spmDone pageBuffer =>
    apply update
    intro c h
    apply h.congr <;> rfl

end KeepsMirror

/-! ### The reset and the callbacks -/

namespace Mirrors

variable [IoDevices δ] {l : Layout} {d : Display} {c : AvrCore δ}

theorem vdevReset
    (h : Mirrors l d c) (addr : Int) (vdev : VDevice) :
  Mirrors l d (c.vdevReset addr vdev)
  := by
  cases vdev with
  | gpwr =>
    rw [AvrCore.vdevReset]
    induction List.finRange 32 generalizing c with
    | nil => apply h
    | cons i regs ih => apply ih (h.gpwrSet i 0)
  | sreg => apply h.sregSet
  | stackPointer => apply h.spSet 0
  | rampz =>
    have hskip : Mirrors l d (c.displaySend (.ioReg rampzIoReg 0)) := by
      apply h.skip
      · trivial
      · intro d hd
        apply hd.ioReg <;> decide
    apply hskip.congr <;> rfl
  | sram => apply h
  | spm => apply h
  | io => apply h.congr <;> rfl

theorem memResetFrom
    (h : Mirrors l d c) (i n : Nat) :
  Mirrors l d (c.memResetFrom i n)
  := by
  induction n generalizing c i with
  | zero => apply h
  | succ n ih =>
    rw [AvrCore.memResetFrom]
    cases (c.mem.cell i).vdev with
    | none => apply ih h
    | some vdev => apply ih (h.vdevReset i vdev)

theorem reset
    (h : Mirrors l d c) :
  Mirrors l d c.reset
  := by
  apply memResetFrom
  apply skip
  · apply (h.pcSet 0).congr <;> rfl
  · trivial
  · intro d hd
    apply hd

omit [IoDevices δ] in
theorem devEvents
    (h : Mirrors l d c) (events : List DevEvent) :
  Mirrors l d (events.foldl AvrCore.devEvent c)
  := by
  induction events generalizing c with
  | nil => apply h
  | cons event events ih =>
    apply ih
    cases event with
    | irqRaise irq => apply h.congr <;> rfl

end Mirrors

/-! ### Runs -/

section

variable [IoDevices δ] {l : Layout} {d : Display}

omit [IoDevices δ] in
/-- A pass over the callbacks -/
theorem callbacks_keepsMirror
    {x : AvrCore δ → Except DevError (δ × List DevEvent)} :
  KeepsMirror l d (do
    let c ← get
    let (dev, events) ← liftDev (x c)
    update fun c => events.foldl AvrCore.devEvent { c with dev := dev } : CoreM δ Unit)
  := by
  intro c h
  rw [run_bind_of_ok (run_get c)]
  cases hx : x c with
  | error e => trivial
  | ok r =>
    obtain ⟨dev, events⟩ := r
    have hdev : Mirrors l d { c with dev := dev } := by
      apply h.congr <;> rfl
    change Mirrors l d (events.foldl AvrCore.devEvent { c with dev := dev })
    apply hdev.devEvents

/-- Every access of the simulator keeps the display up to date. -/
theorem coreAccess_keepsMirror
    (hl : l.Placed) {α : Type} {x : CoreM δ α} (hx : CoreAccess α x) :
  KeepsMirror l d x
  := by
  cases hx with
  | inst h => apply KeepsMirror.access hl h
  | parse x => apply KeepsMirror.liftExcept
  | gets f => apply KeepsMirror.gets
  | memGetCell addr => apply KeepsMirror.memGetCell
  | vdevRead vdev addr => apply KeepsMirror.vdevRead
  | flashWriteLo8 addr val => apply KeepsMirror.flashWriteByte
  | flashWriteHi8 addr val => apply KeepsMirror.flashWriteByte
  | breakpoints f =>
    apply KeepsMirror.update
    intro c h
    apply h.congr <;> rfl
  | eeWrite addr val =>
    apply KeepsMirror.update
    intro c h
    apply h.congr <;> rfl
  | reset =>
    apply KeepsMirror.update
    intro c h
    apply h.reset
  | irqRaise irq =>
    apply KeepsMirror.update
    intro c h
    apply h.congr <;> rfl
  | irqClear irq =>
    apply KeepsMirror.update
    intro c h
    apply h.congr <;> rfl
  | irqGetPending =>
    intro c h
    have hrun : avrCoreIrqGetPending.run c =
        (irqGetPendingVector c.irqPending c.state c.sleepMode).map fun irq => (irq, c) := rfl
    rw [hrun]
    cases irqGetPendingVector c.irqPending c.state c.sleepMode with
    | error e => trivial
    | ok irq => apply h
  | clkCbExec => apply callbacks_keepsMirror (x := fun c => IoDevices.clkCbExec c.ck c.dev)
  | asyncCbExec => apply callbacks_keepsMirror (x := fun c => IoDevices.asyncCbExec c.dev)
  | ckIncr =>
    apply KeepsMirror.update
    intro c h
    apply Mirrors.skip (c := { c with ck := c.ck + 1 })
    · apply h.congr <;> rfl
    · trivial
    · intro d hd
      apply hd
  | instCKSDecr =>
    apply KeepsMirror.update
    intro c h
    apply h.congr <;> rfl

/-- After a run of the simulator the coprocess shows the core. -/
theorem CoreStep.mirrors
    (hl : l.Placed) {cellName : Int → Option (List Char)} {ok : AvrCore δ → CoreEvent → Prop}
    {c c' : AvrCore δ} (hc : Mirrors l d c) (hrun : Run (CoreStep cellName) ok c c') :
  Mirrors l d c'
  := by
  apply hrun.invariant _ hc
  intro c₁ e c₂ h _ hstep
  apply hstep.keeps (fun _ _ => coreAccess_keepsMirror hl) h

end

end

/-! ### The cores of devices -/

/-- The device has SPL and SPH at 0x5d and 0x5e and SREG at 0x5f, as the simulator assumes of
all devices, and its SRAM in the data space. -/
structure DevSuppDefn.Placed (dev : DevSuppDefn) : Prop where
  sreg : ∀ reg ∈ dev.ioReg, reg.vdev = .sreg ↔ reg.addr = 0x5f
  stackPointer : ∀ reg ∈ dev.ioReg, reg.vdev = .stackPointer ↔ reg.addr = 0x5d ∨ reg.addr = 0x5e
  splAddr : (∃ reg ∈ dev.ioReg, reg.vdev = .stackPointer) → dev.addrOf .stackPointer = 0x5d
  sram : dev.sramBase + dev.sram ≤ 0x10000

theorem placed_OsEID128 :
  defnOsEID128.Placed
  := by
  constructor <;> decide

/-- The device of a cell is that of a register at its address, or the SRAM, or a working
register. -/
theorem DevSuppDefn.cell_vdev
    {dev : DevSuppDefn} {addr : Int} {vdev : VDevice} (h : (dev.cell addr).vdev = some vdev) :
  (∃ reg ∈ dev.ioReg, reg.vdev = vdev ∧ reg.addr = addr) ∨ vdev = .sram ∧ 0x60 ≤ addr ∨
    vdev = .gpwr ∧ addr < 0x20
  := by
  rw [cell] at h
  split at h
  · next hsram =>
    obtain rfl := Option.some.inj h
    refine .inr (.inl ⟨rfl, ?_⟩)
    have hbase := hsram.1
    rw [sramBase] at hbase
    split at hbase <;> omega
  · split at h
    · next reg hfind =>
      obtain rfl := Option.some.inj h
      refine .inl ⟨reg, List.mem_of_find?_eq_some hfind, rfl, ?_⟩
      simpa using List.find?_some hfind
    · split at h
      · next hgpwr =>
        obtain rfl := Option.some.inj h
        exact .inr (.inr ⟨rfl, hgpwr.2⟩)
      · contradiction

theorem construct_placed
    {δ : Type} {dev : DevSuppDefn} (h : dev.Placed) (io : δ) :
  (AvrCore.construct dev io).layout.Placed
  := by
  constructor
  · rfl
  · change 0x5f ≤ (if dev.hasExtIoReg then 0xff else 0x5f) ∧
      (if dev.hasExtIoReg then 0xff else 0x5f) ≤ (0xff : Int)
    split <;> decide
  · intro addr vdev hcell
    obtain ⟨reg, hreg, rfl, rfl⟩ | ⟨rfl, haddr⟩ | ⟨rfl, haddr⟩ := dev.cell_vdev hcell
    · apply h.sreg reg hreg
    all_goals
      constructor
      · nofun
      · omega
  · intro addr vdev hcell
    obtain ⟨reg, hreg, rfl, rfl⟩ | ⟨rfl, haddr⟩ | ⟨rfl, haddr⟩ := dev.cell_vdev hcell
    · apply h.stackPointer reg hreg
    all_goals
      constructor
      · nofun
      · omega
  · intro addr hcell
    apply h.splAddr
    obtain ⟨reg, hreg, hvdev, -⟩ | ⟨hvdev, -⟩ | ⟨hvdev, -⟩ := dev.cell_vdev hcell
    · use reg
    · contradiction
    · contradiction
  · constructor
    · change 0 ≤ dev.sramBase
      rw [DevSuppDefn.sramBase]
      split <;> decide
    · apply h.sram

/-- `avr_core_get_sizes`, for the SRAM: its size and where it starts -/
def AvrCore.getSizes {δ : Type} (c : AvrCore δ) : Int × Int :=
  if c.sram.size ≠ 0 then (c.sram.size, c.sram.base) else (0, 0)

/-- The coprocess that `display_open` starts for a core -/
def AvrCore.openDisplay {δ : Type} (c : AvrCore δ) : Display :=
  .fresh c.getSizes.1 c.getSizes.2

/-- A fresh coprocess shows a fresh core. -/
theorem construct_mirrors
    {δ : Type} (dev : DevSuppDefn) (io : δ) :
  Mirrors (AvrCore.construct dev io).layout (AvrCore.construct dev io).openDisplay
    (AvrCore.construct dev io)
  := by
  have hzero : (0 : BitVec 32) = ((0 : Byte) ++ (0 : Byte) : Word).setWidth 32 := by
    decide
  constructor
  · rfl
  · refine ⟨_, rfl, ?_⟩
    constructor
    · intro hsize
      rw [AvrCore.openDisplay, AvrCore.getSizes, if_pos hsize]
      apply Int.add_comm
    · rfl
    · intro i
      rfl
    · apply hzero
    · apply hzero
    · apply hzero
    · rfl
    · apply hzero
    · intro a _ _
      rfl

/-- The coprocess shows the core after every run of the simulator from the reset of a fresh
core, once it has processed all messages sent so far. -/
theorem display_shows_core
    {δ : Type} [IoDevices δ] {dev : DevSuppDefn} (hdev : dev.Placed) (io : δ)
    (cellName : Int → Option (List Char)) {c : AvrCore δ}
    (hrun : Run (CoreStep cellName) Always (AvrCore.construct dev io).reset c) :
  ∃ d, dispParsePackets (c.display.map DisplayMsg.text) 
      (AvrCore.construct dev io).openDisplay = .ok d ∧
    d.Shows c
  := by
  have hl := construct_placed hdev io
  have hreset := (construct_mirrors dev io).reset
  apply (CoreStep.mirrors hl hreset hrun).shows

/-- A packet that writes the instruction that loads 0xab into R16 to the start of the flash -/
theorem run_packetLdi
    {c : AvrCore Unit} (hvalid : c.flash.Valid 0) :
  (gdbParsePacket (fun _ => none) false "M0,2:0bea".toList).run c
    = .ok (.reply "OK".toList, c.writeWord 0 0xea0b)
  := by
  have hparse : gdbGetAddrLen "0,2:0bea".toList ',' ':' = .ok (0, 2, "0bea".toList) := by
    decide
  have hlow : gdbGetByte "0bea".toList = .ok (0x0b, "ea".toList) := by
    decide
  have hhigh : gdbGetByte "ea".toList = .ok (0xea, []) := by
    decide
  have hword : (do
      let low ← liftExcept (gdbGetByte "0bea".toList)
      let high ← liftExcept (gdbGetByte low.2)
      avrCoreFlashWrite 0 (high.1 ++ low.1)
      return high.2 : CoreM Unit (List Char)).run c = .ok ([], c.writeWord 0 0xea0b) := by
    rw [run_bind_of_ok (run_liftExcept_ok hlow c), run_bind_of_ok (run_liftExcept_ok hhigh c)]
    apply run_bind_of_ok (run_avrCoreFlashWrite_of_valid hvalid 0xea0b)
  have hsegment : (gdbWriteSegment 0 2 "0bea".toList).run c
      = .ok ((), c.writeWord 0 0xea0b) := by
    rw [gdbWriteSegment, if_neg (by decide), if_pos (by decide), gdbWriteFlash,
      if_neg (by decide)]
    apply run_bind_of_ok
    apply run_bind_of_ok hword
  have hmemory : (gdbWriteMemory "0,2:0bea".toList).run c
      = .ok ("OK".toList, c.writeWord 0 0xea0b) := by
    rw [gdbWriteMemory, run_bind_of_ok (run_liftExcept_ok hparse c)]
    apply (run_bind_of_ok hsegment).trans
    apply run_gdbSendReply
    decide
  apply run_bind_of_ok hmemory

/-- The step of a core that executes this instruction -/
theorem run_stepLdi
    {c : AvrCore Unit} (hstate : c.state ≠ .sleep) (hpending : c.irqPending = .nil)
    (hfetch : flashRead c.flash c.pc = .ok 0xea0b) :
  ∃ c', avrCoreStep.run c = .ok (.opcode .LDI, c') ∧ c'.gpwr 16 = 0xab
  := by
  have hdecode : decodeOpcode 0xea0b = { func := .LDI, arg1 := 16, arg2 := 0xab } := by
    decide
  have hexec : ∃ c₁ c₂ c₃, (execOpcode 0xea0b).run c.fetched = .ok (.opcode .LDI, c₁) ∧
      (propagateClocks c₁.instCKS.toNat).run c₁ = .ok ((), c₂) ∧
      avrCoreAsyncCbExec.run c₂ = .ok ((), c₃) ∧ c₃.irqPending = c.irqPending ∧
      c₃.gpwr 16 = 0xab := by
    rw [execOpcode, hdecode]
    exact ⟨_, _, _, rfl, rfl, rfl, rfl, rfl⟩
  obtain ⟨c₁, c₂, c₃, hexec, hclocks, hasync, hirq, hgpwr⟩ := hexec
  refine ⟨c₃, avrCoreStep_eq_ok.mpr ⟨c₁, c₂, c₃, ?_, hclocks, hasync, ?_⟩, hgpwr⟩
  · rw [execUnlessAsleep, run_bind_of_ok (run_gets _ c), if_neg hstate,
      execNextInstruction_of_fetch hfetch]
    apply hexec
  · rw [if_neg (by decide)]
    apply check_of_nil
    rw [hirq, hpending]
    rfl

/-- The packet and the step after it -/
theorem run_packetLdi_stepLdi
    {c : AvrCore Unit} (hpc : c.pc = 0) (hstate : c.state ≠ .sleep)
    (hpending : c.irqPending = .nil) (hvalid : c.flash.Valid 0) :
  ∃ c', Run (CoreStep fun _ => none) Always c c' ∧ c'.gpwr 16 = 0xab
  := by
  have hfetch : flashRead (c.writeWord 0 0xea0b).flash (c.writeWord 0 0xea0b).pc
      = .ok 0xea0b := by
    change flashRead (c.flash.setWord 0 0xea0b) c.pc = _
    rw [hpc, Flash.flashRead_of_valid ((Flash.valid_setWord ..).mpr hvalid),
      Flash.word_setWord_same]
  obtain ⟨c', hstep, hgpwr⟩ := run_stepLdi (c := c.writeWord 0 0xea0b) hstate hpending hfetch
  refine ⟨c', ?_, hgpwr⟩
  apply Run.trans
  · apply Run.single trivial (CoreStep.packet (run_packetLdi hvalid))
  · apply Run.single trivial (CoreStep.step hstep)

/-- The OsEID128 after a reset, a packet that writes an instruction, and a step that executes
it. -/
theorem display_shows_OsEID128 :
  ∃ c : AvrCore Unit,
    Run (CoreStep fun _ => none) Always (AvrCore.construct defnOsEID128 ()).reset c ∧
    c.gpwr 16 = 0xab ∧
    ∃ d, dispParsePackets (c.display.map DisplayMsg.text)
        (AvrCore.construct defnOsEID128 ()).openDisplay = .ok d ∧ d.Shows c
  := by
  have hreset := (AvrCore.construct defnOsEID128 ()).reset_spec
  have hframe := (AvrCore.construct defnOsEID128 ()).reset_frame
  have hpcMax : (AvrCore.construct defnOsEID128 ()).pcMax = 65536 := rfl
  have hpc := hreset.pc
  rw [hpcMax] at hpc
  have hstate : (AvrCore.construct defnOsEID128 ()).reset.state ≠ .sleep := by
    rw [hreset.state]
    nofun
  have hvalid : (AvrCore.construct defnOsEID128 ()).reset.flash.Valid 0 := by
    rw [Flash.Valid, hframe.flashBase, hframe.flashSize]
    change (0 : Int) ≤ 0 * 2 - 0 ∧ (0 : Int) * 2 - 0 < 131072
    decide
  obtain ⟨c, hrun, hgpwr⟩ := run_packetLdi_stepLdi hpc hstate hreset.irqPending hvalid
  refine ⟨c, hrun, hgpwr, ?_⟩
  apply display_shows_core placed_OsEID128 () _ hrun

end SimulAvr
