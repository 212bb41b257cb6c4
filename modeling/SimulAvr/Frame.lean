import SimulAvr.Footprint

/-!
# What the instructions leave alone

The instructions do not change the device, its memory map, its clock and its interrupts,
and those that do not set the program counter leave it as well; they abort only by a call
of `avr_error`, or by an access outside the data space (`Uses.frame`, `Uses.fault`).
-/

namespace SimulAvr

/-- What the definition of a device fixes of a core. -/
structure Layout where
  pcSize : Int
  pcMax : Int
  flashBase : Int
  flashSize : Int
  sramBase : Int
  sramSize : Int
  mem : Memory
  splAddr : Int
  irqVtable : Nat → IntVect

section

variable {δ : Type}

/-- The layout of a core. -/
def AvrCore.layout (c : AvrCore δ) : Layout where
  pcSize := c.pcSize
  pcMax := c.pcMax
  flashBase := c.flash.base
  flashSize := c.flash.size
  sramBase := c.sram.base
  sramSize := c.sram.size
  mem := c.mem
  splAddr := c.sp.splAddr
  irqVtable := c.irqVtable

/-- The core `c'` differs from `c` at most in what instructions change, in the program
counter only if `pc`. -/
structure Frame (pc : Prop) (c c' : AvrCore δ) : Prop where
  pc : ¬ pc → c'.pc = c.pc
  state : c'.state = c.state
  sleepMode : c'.sleepMode = c.sleepMode
  pcSize : c'.pcSize = c.pcSize
  pcMax : c'.pcMax = c.pcMax
  flashBase : c'.flash.base = c.flash.base
  flashSize : c'.flash.size = c.flash.size
  sramBase : c'.sram.base = c.sram.base
  sramSize : c'.sram.size = c.sram.size
  mem : c'.mem = c.mem
  splAddr : c'.sp.splAddr = c.sp.splAddr
  breakpoints : c'.breakpoints = c.breakpoints
  irqPending : c'.irqPending = c.irqPending
  irqVtable : c'.irqVtable = c.irqVtable
  irqOffset : c'.irqOffset = c.irqOffset
  ck : c'.ck = c.ck
  eind : c'.eind = c.eind

namespace Frame

variable {pc : Prop} {c c' c'' : AvrCore δ}

theorem refl
    (c : AvrCore δ) :
  Frame pc c c
  := by
  constructor <;> intros <;> rfl

theorem trans
    (h : Frame pc c c') (h' : Frame pc c' c'') :
  Frame pc c c''
  := by
  constructor
  · intro hpc
    rw [h'.pc hpc, h.pc hpc]
  · rw [h'.state, h.state]
  · rw [h'.sleepMode, h.sleepMode]
  · rw [h'.pcSize, h.pcSize]
  · rw [h'.pcMax, h.pcMax]
  · rw [h'.flashBase, h.flashBase]
  · rw [h'.flashSize, h.flashSize]
  · rw [h'.sramBase, h.sramBase]
  · rw [h'.sramSize, h.sramSize]
  · rw [h'.mem, h.mem]
  · rw [h'.splAddr, h.splAddr]
  · rw [h'.breakpoints, h.breakpoints]
  · rw [h'.irqPending, h.irqPending]
  · rw [h'.irqVtable, h.irqVtable]
  · rw [h'.irqOffset, h.irqOffset]
  · rw [h'.ck, h.ck]
  · rw [h'.eind, h.eind]

/-- The layout of a core is in its frame. -/
theorem layout
    (h : Frame pc c c') :
  c'.layout = c.layout
  := by
  simp only [AvrCore.layout, h.pcSize, h.pcMax, h.flashBase, h.flashSize, h.sramBase,
    h.sramSize, h.mem, h.splAddr, h.irqVtable]

end Frame

/-- The errors of a program that runs on the core `c₀` within the scope `S`. -/
def Fault (S : Scope) (c₀ : AvrCore δ) : AvrError → Prop
  | .message _ _ => True
  | .cellOutOfBounds addr => S.cell addr ∧ ¬ (0 ≤ addr ∧ addr ≤ c₀.mem.xramEnd)
  | .registerOutOfBounds _ => True
  | .nullVector => False

/-- The program `x` runs within the frame of `c₀` and the scope `S`. -/
abbrev Stays (S : Scope) (pc : Prop) (c₀ : AvrCore δ) {α : Type} (x : CoreM δ α) : Prop :=
  Program.Keeps (Frame pc c₀) (Fault S c₀) x

/-! ### Rules -/

namespace Stays

open Program (Triple)

variable {S : Scope} {pc : Prop} {c₀ : AvrCore δ} {α : Type}

theorem pure
    (a : α) :
  Stays S pc c₀ (pure a)
  := Triple.pure fun _ h => h

theorem gets
    (f : AvrCore δ → α) :
  Stays S pc c₀ (gets f)
  := fun _ h => h

theorem update
    {f : AvrCore δ → AvrCore δ} (hf : ∀ c, Frame pc c (f c)) :
  Stays S pc c₀ (update f)
  := fun c h => h.trans (hf c)

theorem avrError
    (fmt : String) (args : List Int) :
  Stays S pc c₀ (avrError fmt args : CoreM δ α)
  := fun _ _ => trivial

theorem avrErrorIf
    {p : Prop} [Decidable p] (fmt : String) (args : List Int) :
  Stays S pc c₀ (avrErrorIf p fmt args)
  := Triple.ite (fun _ => avrError _ _) (fun _ => pure _)

/-- A part of the program that only may abort. -/
theorem liftExcept
    {x : Except AvrError α} (hx : ∀ e, x = .error e → Fault S c₀ e) :
  Stays S pc c₀ (liftExcept x)
  := by
  intro c h
  cases hr : x with
  | error e =>
    rw [run_liftExcept_error rfl]
    apply hx e hr
  | ok a =>
    rw [run_liftExcept_ok rfl]
    apply h

theorem liftDev
    (x : Except DevError α) :
  Stays S pc c₀ (liftDev x)
  := by
  apply liftExcept
  intro e he
  cases x with
  | error e' =>
    cases he
    trivial
  | ok a => contradiction

theorem gpwrGet
    (reg : Int) :
  Stays S pc c₀ (avrCoreGpwrGet reg)
  := by
  intro c h
  by_cases hreg : 0 ≤ reg ∧ reg < 32
  · obtain ⟨r, rfl⟩ := exists_fin_of_mem hreg
    rw [run_avrCoreGpwrGet]
    apply h
  · rw [show (avrCoreGpwrGet reg).run c = .error (.registerOutOfBounds reg) from dif_neg hreg]
    trivial

theorem gpwrSet
    (reg : Int) (val : Byte) :
  Stays S pc c₀ (avrCoreGpwrSet reg val)
  := by
  intro c h
  by_cases hreg : 0 ≤ reg ∧ reg < 32
  · obtain ⟨r, rfl⟩ := exists_fin_of_mem hreg
    rw [run_avrCoreGpwrSet]
    apply h.trans
    constructor <;> intros <;> rfl
  · rw [show (avrCoreGpwrSet reg val).run c = .error (.registerOutOfBounds reg) from
      dif_neg hreg]
    trivial

theorem flashRead
    (addr : Int) :
  Stays S pc c₀ (avrCoreFlashRead addr)
  := by
  intro c h
  rw [run_avrCoreFlashRead]
  simp only [SimulAvr.flashRead, storageReadw]
  by_cases hb : addr * 2 - c.flash.base < 0 ∨ addr * 2 - c.flash.base ≥ c.flash.size
  · rw [if_pos hb]
    trivial
  · rw [if_neg hb]
    apply h

theorem flashWrite
    (addr : Int) (val : Word) :
  Stays S pc c₀ (avrCoreFlashWrite addr val)
  := by
  intro c h
  rw [run_avrCoreFlashWrite]
  simp only [storageWritew]
  by_cases hb : addr * 2 - c.flash.base < 0 ∨ addr * 2 - c.flash.base ≥ c.flash.size
  · rw [if_pos hb]
    trivial
  · rw [if_neg hb]
    apply h.trans
    constructor <;> intros <;> rfl

/-! ### Data memory -/

variable [IoDevices δ]

theorem vdevRead
    (vdev : VDevice) (addr : Int) :
  Stays S pc c₀ (vdevRead vdev addr)
  := by
  cases vdev with
  | gpwr => apply gpwrGet
  | sreg => apply gets
  | stackPointer =>
    apply Triple.bind (gets _)
    intro sp
    apply Triple.ite (fun _ => pure _)
    intro _
    apply Triple.ite (fun _ => pure _) (fun _ => avrError _ _)
  | rampz => apply gets
  | sram =>
    apply Triple.bind (gets _)
    intro stor
    apply liftExcept
    intro e he
    simp only [storageReadb] at he
    split at he
    · cases he
      trivial
    · contradiction
  | spm =>
    apply Triple.bind (gets _)
    intro spm
    apply Triple.ite (fun _ => pure _) (fun _ => avrError _ _)
  | io =>
    apply Triple.bind (gets _)
    intro dev
    apply Triple.bind (liftDev _)
    rintro ⟨val, dev⟩
    apply Triple.bind
    · apply update
      intro c
      constructor <;> intros <;> rfl
    · intro _
      apply pure

theorem vdevWrite
    (vdev : VDevice) (addr : Int) (val : Byte) :
  Stays S pc c₀ (vdevWrite vdev addr val)
  := by
  cases vdev with
  | gpwr => apply gpwrSet
  | sreg =>
    apply update
    intro c
    constructor <;> intros <;> rfl
  | stackPointer =>
    intro c h
    simp only [SimulAvr.vdevWrite, spWrite, StateT.run_bind, run_gets, Program.ok_bind]
    by_cases hspl : addr = c.sp.splAddr
    · rw [if_pos hspl]
      apply h.trans
      constructor <;> intros <;> rfl
    · rw [if_neg hspl]
      by_cases hsph : addr = c.sp.splAddr + 1
      · rw [if_pos hsph]
        apply h.trans
        constructor <;> intros <;> rfl
      · rw [if_neg hsph]
        trivial
  | rampz =>
    apply update
    intro c
    constructor <;> intros <;> rfl
  | sram =>
    intro c h
    rw [show (SimulAvr.vdevWrite .sram addr val).run c = _ from run_sramWrite c addr val]
    simp only [storageWriteb]
    by_cases hb : addr - c.sram.base < 0 ∨ addr - c.sram.base ≥ c.sram.size
    · rw [if_pos hb]
      trivial
    · rw [if_neg hb]
      apply h.trans
      constructor <;> intros <;> rfl
  | spm =>
    apply Triple.bind (gets _)
    intro spm
    apply Triple.bind (avrErrorIf _ _)
    intro _
    apply Triple.bind (avrErrorIf _ _)
    intro _
    apply Triple.bind (avrErrorIf _ _)
    intro _
    apply Triple.bind (avrErrorIf _ _)
    intro _
    apply Triple.bind (avrErrorIf _ _)
    intro _
    apply update
    intro c
    constructor <;> intros <;> rfl
  | io =>
    apply Triple.bind (gets _)
    intro dev
    apply Triple.bind (liftDev _)
    intro dev
    apply update
    intro c
    constructor <;> intros <;> rfl

omit [IoDevices δ] in
theorem memGetCell
    {addr : Int} (h : S.cell addr) :
  Stays S pc c₀ (memGetCell addr)
  := by
  intro c hc
  by_cases hb : 0 ≤ addr ∧ addr ≤ c.mem.xramEnd
  · rw [run_memGetCell c addr hb]
    apply hc
  · rw [run_memGetCell_error c addr hb]
    rw [hc.mem] at hb
    exact ⟨h, hb⟩

theorem memRead
    {addr : Int} (h : S.cell addr) :
  Stays S pc c₀ (memRead addr)
  := by
  apply Triple.bind (memGetCell h)
  rintro ⟨_ | vdev, rdMask, wrMask⟩
  · apply pure
  · apply Triple.bind (vdevRead vdev addr)
    intro val
    apply pure

theorem memWrite
    {addr : Int} (h : S.cell addr) (val : Byte) :
  Stays S pc c₀ (memWrite addr val)
  := by
  apply Triple.bind (memGetCell h)
  rintro ⟨_ | vdev, rdMask, wrMask⟩
  · apply pure
  · apply Triple.bind
    · apply update
      intro c
      split <;> constructor <;> intros <;> rfl
    · intro _
      apply vdevWrite

/-- The accesses within a scope stay within it. -/
theorem access
    {x : CoreM δ α} (hx : Access S pc α x) :
  Stays S pc c₀ x
  := by
  cases hx with
  | error h fmt args => apply avrError
  | pcGet => apply gets
  | pcSize => apply gets
  | pcSet h val =>
    apply update
    intro c
    constructor <;> intros <;> trivial
  | pcIncr h val =>
    apply update
    intro c
    constructor <;> intros <;> trivial
  | instCKSSet val =>
    apply update
    intro c
    constructor <;> intros <;> rfl
  | sregGet => apply gets
  | sregSet v =>
    apply update
    intro c
    constructor <;> intros <;> rfl
  | sregGetBit b => apply gets
  | sregSetBit b v =>
    apply update
    intro c
    constructor <;> intros <;> rfl
  | rampzGet => apply gets
  | rampzSet v =>
    apply update
    intro c
    rw [AvrCore.rampzSet]
    split <;> constructor <;> intros <;> rfl
  | eindGet => apply gets
  | gpwrGet reg => apply gpwrGet
  | gpwrSet reg val => apply gpwrSet
  | spGet => apply gets
  | spSet val =>
    apply update
    intro c
    constructor <;> intros <;> rfl
  | stackGet => apply gets
  | stackSet stack =>
    apply update
    intro c
    constructor <;> intros <;> rfl
  | memRead h => apply memRead h
  | memWrite h => apply memWrite h
  | flashReadNext h => exact Triple.bind (gets _) fun pc => flashRead _
  | flashRead h addr => apply flashRead
  | flashWrite h addr val => apply flashWrite
  | spmGet => apply gets
  | spmDone pageBuffer =>
    apply update
    intro c
    constructor <;> intros <;> rfl

end Stays

section

variable {S : Scope} {pc : Prop} {α : Type} {x : CoreM δ α} {c c' : AvrCore δ}

/-- A run of a program within a scope stays within its frame. -/
theorem Uses.frame
    [IoDevices δ] (hx : Uses S pc x) {a : α} (h : x.run c = .ok (a, c')) :
  Frame pc c c'
  := by
  have hstays : Stays S pc c x := hx.keeps fun _ _ => Stays.access
  apply hstays.of_ok (Frame.refl c) h

/-- The errors of a program within a scope. -/
theorem Uses.fault
    [IoDevices δ] (hx : Uses S pc x) {e : AvrError} (h : x.run c = .error e) :
  Fault S c e
  := by
  have hstays : Stays S pc c x := hx.keeps fun _ _ => Stays.access
  apply hstays.of_error (Frame.refl c) h

end

end

end SimulAvr
