import SimulAvr.Peripherals.Dispatch

/-!
# Transfers of the SPI

A write to SPDR starts a transfer, which the ticks at eight multiples of the divisor complete.  A
write to SPDR while a transfer goes on sets WCOL, and starts the transfer anew all the same: it
leaves the transfer as it was exactly if it says the same as the write that started it, before the
first of the ticks.
-/

namespace SimulAvr

open Program CallbackList Transition

/-! ### The part of a transfer -/

/-- What a transfer depends on: the SPI, and the callback that counts -/
def spiPart (p : Peripherals) : SPI × Bool × Nat :=
  (p.spi, p.cbs.held .spiClkIncrCb, p.cbs.clkCb.count .spiClkIncrCb)

/-- Another device leaves the transfer. -/
theorem Change.spiPart_eq
    {S : List IoVDev} {f : Peripherals → Peripherals} (h : Change S f) (hd : .spi ∉ S)
    (p : Peripherals) :
  spiPart (f p) = spiPart p
  := by
  have hregs : (f p).spi = p.spi := h.regs_eq (d := .spi) hd p
  have hview := h.view (g := .spiClkIncrCb) hd p
  rw [spiPart, hregs]
  exact congrArg (fun v => (p.spi, v.1, v.2.1)) hview

theorem spiRead_leaves
    (addr : Int) :
  Leaves spiPart (spiRead addr)
  := .get fun _ => .ite (.bind (.set fun _ => rfl) fun _ => .pure _) (.error _ _)

section

variable {e : IoEvent} {p q : Peripherals}

/-- An access leaves the transfer, unless it writes SPDR or resets the SPI. -/
theorem IoStep.spi_access
    (hstep : IoStep e p q) (haccess : e.isAccess = true) (hwrite : e.writesTo .spi p = false)
    (hreset : e.resets .spi p = false) :
  spiPart q = spiPart p
  := by
  apply hstep.access_leaves haccess
  · exact fun _ _ => rfl
  · intro addr d _ _
    by_cases hd : d = .spi
    · rw [hd]
      exact spiRead_leaves addr
    · apply Leaves.of_touches (d.read_touches addr)
      intro f p hf
      apply hf.spiPart_eq
      cases d <;> simp_all [IoVDev.readReach]
  · rintro addr val d rfl hat
    have hd : d ≠ .spi := by
      rintro rfl
      exact of_decide_eq_false hwrite hat
    apply Leaves.of_touches (d.write_touches addr val)
    intro f p hf
    apply hf.spiPart_eq
    cases d <;> simp_all [IoVDev.reach]
  · rintro addr d rfl hat p
    have hd : d ≠ .spi := by
      rintro rfl
      exact of_decide_eq_false hreset hat
    apply d.reset_change.spiPart_eq
    cases d <;> simp_all [IoVDev.reach]

/-- The other callbacks of the clock leave the registers of the SPI and of its interrupts. -/
theorem callback_spi
    {g : CallBackFP} (hclk : g.isClk = true) (hg : g ≠ .spiClkIncrCb) (ck : Nat) :
  Leaves (fun p => (p.spi, p.spiIntr, p.cbs.held .spiClkIncrCb)) (callbackExecute ck g)
  := by
  have hreach : .spi ∉ g.reach ∧ .spiIntr ∉ g.reach := by
    cases g <;> first | contradiction | simp [CallBackFP.reach, CallBackFP.owner]
  exact callback_leaves_regs (d := .spi) (f := .spiClkIncrCb) hreach.1 hreach.2 hreach.1 ck

/-- A pass over the other callbacks leaves the transfer. -/
theorem IoStep.spi_async
    (hstep : IoStep .async p q) (hsep : p.cbs.Separate) :
  spiPart q = spiPart p
  := by
  refine (hstep.async_leaves (fun _ _ => rfl) (fun _ _ => rfl) ?_).1
  intro time f hf
  apply Leaves.of_touches (callbackExecute_touches time f)
  intro g p hg
  apply hg.spiPart_eq
  have hclk := hsep.async f hf
  cases f <;> first | contradiction | simp [CallBackFP.reach, CallBackFP.owner]

/-- A tick without a transfer -/
theorem IoStep.spi_tick_idle
    {ck : Nat} (hstep : IoStep (.tick ck) p q) (hsep : p.cbs.Separate)
    (hcount : p.cbs.clkCb.count .spiClkIncrCb = 0) :
  spiPart q = spiPart p
  := by
  have hne : ∀ f ∈ p.cbs.clkCb, f ≠ .spiClkIncrCb := by
    rintro f hf rfl
    exact List.count_eq_zero.mp hcount hf
  obtain ⟨hpart, hsub⟩ := hstep.tick_leaves (fun _ _ => rfl)
    fun f hf => callback_spi (hsep.clk f hf) (hne f hf) ck
  have hle := hsub.count_le .spiClkIncrCb
  rw [hcount] at hle
  rw [spiPart, spiPart, hcount, Nat.le_zero.mp hle]
  exact congrArg (fun s => (s.1, s.2.2, 0)) hpart

end

/-! ### A write to SPDR -/

/-- The registers once a write to SPDR has started a transfer -/
def SPI.started (spi : SPI) (spcr val data : Byte) : SPI :=
  { spi with spdr := val, divisor := spiDivisor spcr, spdrIn := data, tcnt := 8 }

/-- WCOL is set. -/
theorem or_wcol
    (x : Byte) :
  (x ||| maskWCOL) &&& maskWCOL ≠ 0
  := by
  have hbit := (BitMask.and_twoPow_ne_zero (x ||| maskWCOL) 6).mpr
  rw [BitVec.getLsbD_or] at hbit
  exact hbit (Bool.or_true _)

/-- `spi_write` -/
theorem spiWrite_ok
    {p q : Peripherals} {addr : Int} {val : Byte}
    (hrun : (spiWrite addr val).run p = .ok ((), q)) :
  q.spi = p.spi.started p.spiIntr.spcr val p.world.spiPortRd.head
    ∧ q.cbs = p.cbs.ensure .spiClkIncrCb
    ∧ (p.spi.tcnt ≠ 0 → q.spiIntr.spsr &&& maskWCOL ≠ 0)
  := by
  rw [spiWrite, run_bind_of_ok rfl] at hrun
  split at hrun
  · rw [run_bind_of_ok rfl] at hrun
    have hspcr : ∀ ti : SPIIntr, (if ti.spsrRead ≠ 0 then
        { ti with spsr := ti.spsr &&& ~~~ti.spsrRead, spsrRead := 0 } else ti).spcr = ti.spcr := by
      intro ti
      split <;> rfl
    by_cases htcnt : p.spi.tcnt ≠ 0
    · rw [devIf, if_pos htcnt] at hrun
      cases hrun
      refine ⟨?_, rfl, fun _ => or_wcol _⟩
      change p.spi.started (SPIIntr.spcr (if _ then _ else _)) val _ = _
      rw [hspcr]
    · rw [devIf, if_neg htcnt] at hrun
      cases hrun
      refine ⟨?_, rfl, fun h => absurd h htcnt⟩
      change p.spi.started (SPIIntr.spcr (if _ then _ else _)) val _ = _
      rw [hspcr]
  · contradiction

/-- A write to SPDR -/
theorem IoStep.spi_write
    {addr : Int} {val : Byte} {p q : Peripherals} (hstep : IoStep (.write addr val) p q)
    (hat : p.vdevAt addr = some .spi) :
  q.spi = p.spi.started p.spiIntr.spcr val p.world.spiPortRd.head
    ∧ q.cbs = p.cbs.ensure .spiClkIncrCb
    ∧ (p.spi.tcnt ≠ 0 → q.spiIntr.spsr &&& maskWCOL ≠ 0)
  := by
  cases hstep with
  | write h =>
    rw [devWrite_at hat] at h
    exact spiWrite_ok (p := { p with history := p.history ++ [.write addr val] }) h

/-- The write sets WCOL and leaves the transfer as it was: the outgoing byte, the incoming byte, the
divisor and the clocks that remain. -/
structure TransferKept (p q : Peripherals) : Prop where
  wcol : q.spiIntr.spsr &&& maskWCOL ≠ 0
  spdr : q.spi.spdr = p.spi.spdr
  spdrIn : q.spi.spdrIn = p.spi.spdrIn
  divisor : q.spi.divisor = p.spi.divisor
  tcnt : q.spi.tcnt = p.spi.tcnt

/-- A write of a byte to SPDR would start the transfer that has just started. -/
structure Restarts (val : Byte) (p : Peripherals) : Prop where
  val : val = p.spi.spdr
  data : p.world.spiPortRd.head = p.spi.spdrIn
  divisor : spiDivisor p.spiIntr.spcr = p.spi.divisor
  tcnt : p.spi.tcnt = 8

/-- A write while a transfer goes on leaves it exactly if it starts the same transfer again. -/
theorem IoStep.transferKept_iff
    {addr : Int} {val : Byte} {p q : Peripherals} (hstep : IoStep (.write addr val) p q)
    (hat : p.vdevAt addr = some .spi) (htcnt : p.spi.tcnt ≠ 0) :
  TransferKept p q ↔ Restarts val p
  := by
  obtain ⟨hspi, -, hwcol⟩ := hstep.spi_write hat
  constructor
  · rintro ⟨-, hspdr, hspdrIn, hdivisor, hcount⟩
    rw [hspi] at hspdr hspdrIn hdivisor hcount
    exact ⟨hspdr, hspdrIn, hdivisor, hcount.symm⟩
  · rintro ⟨hval, hdata, hdivisor, hcount⟩
    constructor
    · exact hwcol htcnt
    · rw [hspi]
      exact hval
    · rw [hspi]
      exact hdata
    · rw [hspi]
      exact hdivisor
    · rw [hspi]
      exact hcount.symm

/-- The transfer starts again as it is. -/
theorem Restarts.started
    {val : Byte} {p : Peripherals} (h : Restarts val p) :
  p.spi.started p.spiIntr.spcr val p.world.spiPortRd.head = p.spi
  := by
  rw [SPI.started, h.val, h.data, h.divisor, ← h.tcnt]

/-! ### A tick of the callback -/

/-- The registers once a transfer is complete -/
def SPI.completed (spi : SPI) : SPI :=
  { spi with tcnt := 0, portWr := spi.portWr ++ [spi.spdr], spdr := spi.spdrIn }

section

variable {spi : SPI} {ti : SPIIntr} {ck : Nat}

/-- `spi_clk_incr_cb`, where it does not complete the transfer -/
theorem spiClkIncrCb_counts
    (htcnt : isMultipleOf ck spi.divisor.toNat = true → spi.tcnt ≠ 1) :
  Triple (fun s => (s.spi, s.spiIntr, s.cbs.held .spiClkIncrCb) = (spi, ti, true))
    (callbackExecute ck .spiClkIncrCb)
    (fun r s => r.1 = false ∧ (s.spi, s.spiIntr, s.cbs.held .spiClkIncrCb)
      = ({ spi with
            tcnt := if isMultipleOf ck spi.divisor.toNat then spi.tcnt - 1 else spi.tcnt }, ti, true))
    (fun _ => True)
  := by
  apply callbackExecute_clk (Q := fun removed s => removed = false
    ∧ (s.spi, s.spiIntr, s.cbs.held .spiClkIncrCb) = (_, ti, true)) rfl
  apply triple_getDev
  intro spi'
  apply triple_getDev
  intro cbs
  apply Triple.ite
  · rintro hheld s ⟨⟨hs, rfl⟩, rfl⟩
    exact absurd (congrArg (·.2.2) hs) hheld
  · intro _
    apply Triple.ite
    · exact fun _ _ _ => trivial
    · intro _
      apply Triple.bind (Q := fun _ s => spi' = spi ∧ (s.spi, s.spiIntr, s.cbs.held .spiClkIncrCb)
        = ({ spi with
            tcnt := if isMultipleOf ck spi.divisor.toNat then spi.tcnt - 1 else spi.tcnt }, ti, true))
      · rintro s ⟨⟨hs, rfl⟩, rfl⟩
        obtain ⟨rfl, htail⟩ := Prod.mk.inj hs
        exact ⟨rfl, congrArg (Prod.mk _) htail⟩
      · intro _
        apply Triple.ite
        · rintro ⟨hne, hzero⟩ s ⟨rfl, -⟩
          split at hne
          · next hmult =>
            rw [if_pos hmult] at hzero
            exact absurd (BitVec.sub_eq_iff_eq_add.mp hzero) (htcnt hmult)
          · exact absurd rfl hne
        · exact fun _ => Triple.pure fun _ hs => ⟨rfl, hs.2⟩

/-- `spi_clk_incr_cb`, where it completes the transfer -/
theorem spiClkIncrCb_completes
    (hmult : isMultipleOf ck spi.divisor.toNat = true) (htcnt : spi.tcnt = 1) :
  Triple (fun s => (s.spi, s.spiIntr, s.cbs.held .spiClkIncrCb) = (spi, ti, true))
    (callbackExecute ck .spiClkIncrCb)
    (fun r s => r.1 = true ∧ (s.spi, s.spiIntr, s.cbs.held .spiClkIncrCb)
      = (spi.completed, { ti with spsr := ti.spsr ||| maskSPIF }, false))
    (fun _ => True)
  := by
  have hzero : (if isMultipleOf ck spi.divisor.toNat = true then spi.tcnt - 1 else spi.tcnt) = 0 := by
    rw [if_pos hmult, htcnt]
    rfl
  apply callbackExecute_clk (Q := fun removed s => removed = true
    ∧ (s.spi, s.spiIntr, s.cbs.held .spiClkIncrCb) = (_, _, false)) rfl
  apply triple_getDev
  intro spi'
  apply triple_getDev
  intro cbs
  apply Triple.ite
  · rintro hheld s ⟨⟨hs, rfl⟩, rfl⟩
    exact absurd (congrArg (·.2.2) hs) hheld
  · intro _
    apply Triple.ite
    · exact fun _ _ _ => trivial
    · intro _
      apply Triple.bind (Q := fun _ s => spi' = spi ∧ s.spi = { spi with tcnt := 0 } ∧ s.spiIntr = ti)
      · rintro s ⟨⟨hs, rfl⟩, rfl⟩
        obtain ⟨rfl, htail⟩ := Prod.mk.inj hs
        refine ⟨rfl, ?_, (Prod.mk.inj htail).1⟩
        exact congrArg (fun tcnt => { s.spi with tcnt := tcnt }) hzero
      · intro _
        apply Triple.ite
        · intro _
          apply Triple.bind (Q := fun _ s => s.spi = { spi with tcnt := 0 }
            ∧ s.spiIntr = { ti with spsr := ti.spsr ||| maskSPIF })
          · rintro s ⟨-, hspi, rfl⟩
            exact ⟨hspi, rfl⟩
          · intro _
            apply Triple.bind (Q := fun _ s => s.spi = spi.completed
              ∧ s.spiIntr = { ti with spsr := ti.spsr ||| maskSPIF })
            · rintro s ⟨hspi, hti⟩
              refine ⟨?_, hti⟩
              change { s.spi with portWr := s.spi.portWr ++ [s.spi.spdr], spdr := s.spi.spdrIn } = _
              rw [hspi]
              rfl
            · intro _
              apply Triple.bind (Q := fun _ s => (s.spi, s.spiIntr, s.cbs.held .spiClkIncrCb)
                = (spi.completed, { ti with spsr := ti.spsr ||| maskSPIF }, false))
              · rintro s ⟨hspi, hti⟩
                rw [← hspi, ← hti]
                exact congrArg (fun v => (s.spi, s.spiIntr, v.1))
                  (view_withdraw_self s.cbs (f := .spiClkIncrCb))
              · exact fun _ => Triple.pure fun _ hs => ⟨rfl, hs⟩
        · rintro hne s ⟨rfl, -⟩
          refine absurd ⟨?_, hzero⟩ hne
          rw [hzero, htcnt]
          decide

end

/-! ### The state of a transfer -/

/-- The divisors are powers of two. -/
theorem spiDivisor_two_pow
    (spcr : Byte) :
  ∃ k ≤ 64, (spiDivisor spcr).toNat = 2 ^ k
  := by
  rw [spiDivisor]
  split
  · exact ⟨2, by decide, rfl⟩
  split
  · exact ⟨4, by decide, rfl⟩
  split
  · exact ⟨6, by decide, rfl⟩
  · exact ⟨7, by decide, rfl⟩

/-- The event is a tick at a multiple. -/
def IoEvent.isTickAt (divisor : Nat) : IoEvent → Bool
  | .tick ck => divisor ∣ ck
  | _ => false

/-- No transfer goes on. -/
structure SpiIdle (p : Peripherals) : Prop where
  tcnt : p.spi.tcnt = 0
  held : p.cbs.held .spiClkIncrCb = false
  count : p.cbs.clkCb.count .spiClkIncrCb = 0

/-- The transfer that has started with the registers `spi` goes on, with the ticks at multiples of
the divisor that are left. -/
structure Transferring (spi : SPI) (left : Nat) (p : Peripherals) : Prop where
  spi : p.spi = { spi with tcnt := BitVec.ofNat 8 left }
  pos : 0 < left
  le : left ≤ 8
  held : p.cbs.held .spiClkIncrCb = true
  count : p.cbs.clkCb.count .spiClkIncrCb = 1

/-- The transfer that has started with the registers `spi` is complete: the outgoing byte has been
handed to the port, the incoming byte is in SPDR, and SPIF is set. -/
structure Transferred (spi : SPI) (p : Peripherals) : Prop where
  portWr : p.spi.portWr = spi.portWr ++ [spi.spdr]
  spdr : p.spi.spdr = spi.spdrIn
  spif : p.spiIntr.spsr &&& maskSPIF ≠ 0
  idle : SpiIdle p

/-- The event does not disturb a transfer: a write to SPDR starts the same transfer again, and a
reset comes while none goes on. -/
def IoEvent.Undisturbing (p : Peripherals) : IoEvent → Prop
  | .write addr val => p.vdevAt addr = some .spi → p.spi.tcnt ≠ 0 → Restarts val p
  | .reset addr => p.vdevAt addr = some .spi → p.spi.tcnt = 0
  | _ => True

section

variable {spi : SPI} {left : Nat} {e : IoEvent} {p q : Peripherals}

theorem SpiIdle.of_part
    (h : SpiIdle p) (hpart : spiPart q = spiPart p) :
  SpiIdle q
  := by
  obtain ⟨hspi, htail⟩ := Prod.mk.inj hpart
  obtain ⟨hheld, hcount⟩ := Prod.mk.inj htail
  constructor
  · rw [hspi]
    exact h.tcnt
  · exact hheld.trans h.held
  · exact hcount.trans h.count

theorem Transferring.of_part
    (h : Transferring spi left p) (hpart : spiPart q = spiPart p) :
  Transferring spi left q
  := by
  obtain ⟨hspi, htail⟩ := Prod.mk.inj hpart
  obtain ⟨hheld, hcount⟩ := Prod.mk.inj htail
  exact ⟨hspi.trans h.spi, h.pos, h.le, hheld.trans h.held, hcount.trans h.count⟩

/-- The counter is not zero while the transfer goes on. -/
theorem Transferring.tcnt_ne_zero
    (h : Transferring spi left p) :
  p.spi.tcnt ≠ 0
  := by
  intro hzero
  rw [h.spi] at hzero
  have hleft := congrArg BitVec.toNat hzero
  change left % 256 = 0 at hleft
  have := h.pos
  have := h.le
  omega

/-- A write to SPDR starts a transfer. -/
theorem SpiIdle.write
    {addr : Int} {val : Byte} (h : SpiIdle p) (hstep : IoStep (.write addr val) p q)
    (hat : p.vdevAt addr = some .spi) :
  Transferring (p.spi.started p.spiIntr.spcr val p.world.spiPortRd.head) 8 q
  := by
  obtain ⟨hspi, hcbs, -⟩ := hstep.spi_write hat
  have hview : p.cbs.view .spiClkIncrCb = (false, 0, (p.cbs.view .spiClkIncrCb).2.2) :=
    Prod.ext h.held (Prod.ext h.count rfl)
  have hq := view_ensure_clk p.cbs (f := .spiClkIncrCb) rfl hview
  rw [← hcbs] at hq
  exact ⟨hspi, by decide, Nat.le_refl 8, congrArg Prod.fst hq, congrArg (·.2.1) hq⟩

/-- A reset while no transfer goes on -/
theorem SpiIdle.reset
    {addr : Int} (h : SpiIdle p) (hstep : IoStep (.reset addr) p q)
    (hat : p.vdevAt addr = some .spi) :
  SpiIdle q
  := by
  cases hstep with
  | reset =>
    rw [devReset_at hat]
    exact ⟨rfl, congrArg Prod.fst (view_withdraw_self p.cbs (f := .spiClkIncrCb)), h.count⟩

/-- A step without a transfer -/
theorem SpiIdle.step
    (h : SpiIdle p) (hsep : p.cbs.Separate) (hstep : IoStep e p q)
    (hwrite : e.writesTo .spi p = false) :
  SpiIdle q
  := by
  by_cases hreset : e.resets .spi p = true
  · cases e with
    | reset addr => exact h.reset hstep (of_decide_eq_true hreset)
    | _ => contradiction
  · have hreset := eq_false_of_ne_true hreset
    cases e with
    | tick ck => exact h.of_part (hstep.spi_tick_idle hsep h.count)
    | async => exact h.of_part (hstep.spi_async hsep)
    | _ => exact h.of_part (hstep.spi_access rfl hwrite hreset)

/-- A tick of a transfer -/
theorem Transferring.tick
    {ck : Nat} {spcr : Byte} (h : Transferring spi left p) (hdiv : spi.divisor = spiDivisor spcr)
    (hsep : p.cbs.Separate) (hstep : IoStep (.tick ck) p q) :
  (spi.divisor.toNat ∣ ck →
      if left = 1 then Transferred spi q else Transferring spi (left - 1) q)
    ∧ (¬ spi.divisor.toNat ∣ ck → Transferring spi left q)
  := by
  obtain ⟨k, hk, hpow⟩ := spiDivisor_two_pow spcr
  have hdivisor : p.spi.divisor = spi.divisor := (congrArg SPI.divisor h.spi :)
  have hmult : isMultipleOf ck p.spi.divisor.toNat = decide (spi.divisor.toNat ∣ ck) := by
    rw [hdivisor, hdiv, hpow]
    exact isMultipleOf_two_pow hk ck
  have htcnt : p.spi.tcnt = BitVec.ofNat 8 left := (congrArg SPI.tcnt h.spi :)
  have hothers : ∀ g ∈ p.cbs.clkCb, g ≠ .spiClkIncrCb → _ :=
    fun g hg hne => callback_spi (hsep.clk g hg) hne ck
  have hstart : (p.spi, p.spiIntr, p.cbs.held .spiClkIncrCb) = (p.spi, p.spiIntr, true) := by
    rw [h.held]
  have hone : p.spi.tcnt = 1 → left = 1 := by
    intro heq
    rw [htcnt] at heq
    have hleft := congrArg BitVec.toNat heq
    change left % 256 = 1 at hleft
    have := h.le
    omega
  have hcounts (hlast : isMultipleOf ck p.spi.divisor.toNat = true → p.spi.tcnt ≠ 1) :=
    hstep.tick_once (fun _ _ => rfl) hothers
      (hstart ▸ @spiClkIncrCb_counts p.spi p.spiIntr ck hlast) h.count
  constructor
  · intro hck
    rw [decide_eq_true hck] at hmult
    split
    · next hleft =>
      rw [hleft] at htcnt
      obtain ⟨hq, hcount⟩ := hstep.tick_once (fun _ _ => rfl) hothers
        (hstart ▸ @spiClkIncrCb_completes p.spi p.spiIntr ck hmult htcnt) h.count
      obtain ⟨hspi, htail⟩ := Prod.mk.inj hq
      obtain ⟨hti, hheld⟩ := Prod.mk.inj htail
      rw [h.spi] at hspi
      constructor
      · rw [hspi]
        rfl
      · rw [hspi]
        rfl
      · have hbit := (BitMask.and_twoPow_ne_zero q.spiIntr.spsr 7).mpr
        rw [hti, BitVec.getLsbD_or] at hbit
        rw [hti]
        exact hbit (Bool.or_true _)
      · constructor
        · rw [hspi]
          rfl
        · exact hheld
        · exact hcount
    · next hleft =>
      obtain ⟨hq, hcount⟩ := hcounts fun _ heq => hleft (hone heq)
      obtain ⟨hspi, htail⟩ := Prod.mk.inj hq
      rw [if_pos hmult, h.spi] at hspi
      refine ⟨?_, ?_, ?_, (Prod.mk.inj htail).2, hcount⟩
      · rw [hspi]
        have := h.pos
        have := h.le
        have hpred : BitVec.ofNat 8 left - 1 = BitVec.ofNat 8 (left - 1) := by
          apply BitVec.eq_of_toNat_eq
          rw [BitVec.toNat_sub, BitVec.toNat_ofNat, BitVec.toNat_ofNat]
          change (2 ^ 8 - 1 + left % 2 ^ 8) % 2 ^ 8 = (left - 1) % 2 ^ 8
          omega
        exact congrArg (fun tcnt => { spi with tcnt := tcnt }) hpred
      · have := h.pos
        omega
      · have := h.le
        omega
  · intro hck
    rw [decide_eq_false hck] at hmult
    have hno : ¬ isMultipleOf ck p.spi.divisor.toNat = true := ne_true_of_eq_false hmult
    obtain ⟨hq, hcount⟩ := hcounts fun hyes => absurd hyes hno
    obtain ⟨hspi, htail⟩ := Prod.mk.inj hq
    rw [if_neg hno] at hspi
    exact ⟨hspi.trans h.spi, h.pos, h.le, (Prod.mk.inj htail).2, hcount⟩

/-- A step of a transfer that does not disturb it -/
theorem Transferring.step
    {spcr : Byte} (h : Transferring spi left p) (hdiv : spi.divisor = spiDivisor spcr)
    (hsep : p.cbs.Separate) (hstep : IoStep e p q) (hund : e.Undisturbing p) :
  (e.isTickAt spi.divisor.toNat = true →
      if left = 1 then Transferred spi q else Transferring spi (left - 1) q)
    ∧ (e.isTickAt spi.divisor.toNat = false → Transferring spi left q)
  := by
  cases e with
  | tick ck =>
    obtain ⟨hmult, hother⟩ := h.tick hdiv hsep hstep
    exact ⟨fun hck => hmult (of_decide_eq_true hck), fun hck => hother (of_decide_eq_false hck)⟩
  | async =>
    refine ⟨fun hck => absurd hck Bool.false_ne_true, fun _ => ?_⟩
    exact h.of_part (hstep.spi_async hsep)
  | read addr =>
    refine ⟨fun hck => absurd hck Bool.false_ne_true, fun _ => ?_⟩
    exact h.of_part (hstep.spi_access rfl rfl rfl)
  | write addr val =>
    refine ⟨fun hck => absurd hck Bool.false_ne_true, fun _ => ?_⟩
    by_cases hat : p.vdevAt addr = some .spi
    · obtain ⟨hspi, hcbs, -⟩ := hstep.spi_write hat
      rw [(hund hat h.tcnt_ne_zero).started] at hspi
      rw [CallBacks.ensure, if_pos h.held] at hcbs
      apply h.of_part
      rw [spiPart, spiPart, hspi, hcbs]
    · exact h.of_part (hstep.spi_access rfl (decide_eq_false hat) rfl)
  | reset addr =>
    refine ⟨fun hck => absurd hck Bool.false_ne_true, fun _ => ?_⟩
    have hat : p.vdevAt addr ≠ some .spi := fun hat => h.tcnt_ne_zero (hund hat)
    exact h.of_part (hstep.spi_access rfl rfl (decide_eq_false hat))

end

/-! ### Runs -/

/-- The state of the SPI: idle, or in a transfer -/
structure SpiState (p : Peripherals) : Prop where
  separate : p.cbs.Separate
  transfer : SpiIdle p ∨
    ∃ spi left spcr, spi.divisor = spiDivisor spcr ∧ Transferring spi left p

section

variable {p q : Peripherals} {taken : List (Peripherals × IoEvent)}

theorem SpiState.step
    {e : IoEvent} (h : SpiState p) (hund : e.Undisturbing p) (hstep : IoStep e p q) :
  SpiState q
  := by
  use hstep.separate h.separate
  rcases h.transfer with hidle | ⟨spi, left, spcr, hdiv, htrans⟩
  · by_cases hwrite : e.writesTo .spi p = true
    · cases e with
      | write addr val =>
        exact .inr ⟨_, 8, p.spiIntr.spcr, rfl, hidle.write hstep (of_decide_eq_true hwrite)⟩
      | _ => contradiction
    · exact .inl (hidle.step h.separate hstep (eq_false_of_ne_true hwrite))
  · obtain ⟨hmult, hother⟩ := htrans.step hdiv h.separate hstep hund
    cases hck : e.isTickAt spi.divisor.toNat with
    | false => exact .inr ⟨spi, left, spcr, hdiv, hother hck⟩
    | true =>
      have hq := hmult hck
      split at hq
      · exact .inl hq.idle
      · exact .inr ⟨spi, left - 1, spcr, hdiv, hq⟩

theorem SpiState.path
    (h : SpiState p) (hpath : Path IoStep p taken q) (hund : ∀ x ∈ taken, x.2.Undisturbing x.1) :
  SpiState q
  := by
  induction hpath with
  | nil => exact h
  | cons hst _ ih =>
    rw [List.forall_mem_cons] at hund
    exact ih (h.step hund.1 hst) hund.2

/-- A transfer along a path with fewer ticks at multiples of the divisor than are left -/
theorem Transferring.path
    {spi : SPI} {left : Nat} {spcr : Byte} (hpath : Path IoStep p taken q)
    (h : Transferring spi left p) (hdiv : spi.divisor = spiDivisor spcr) (hsep : p.cbs.Separate)
    (hund : ∀ x ∈ taken, x.2.Undisturbing x.1)
    (hlt : taken.countP (·.2.isTickAt spi.divisor.toNat) < left) :
  Transferring spi (left - taken.countP (·.2.isTickAt spi.divisor.toNat)) q
  := by
  induction hpath generalizing left with
  | nil => exact h
  | @cons p r q e taken hst _ ih =>
    rw [List.forall_mem_cons] at hund
    obtain ⟨hmult, hother⟩ := h.step hdiv hsep hst hund.1
    have hsep := hst.separate hsep
    rw [List.countP_cons] at hlt ⊢
    by_cases hck : e.isTickAt spi.divisor.toNat = true
    · rw [if_pos hck] at hlt ⊢
      have hr := hmult hck
      rw [if_neg (by omega)] at hr
      rw [Nat.add_comm, ← Nat.sub_sub]
      exact ih hr hsep hund.2 (by omega)
    · rw [if_neg hck] at hlt ⊢
      exact ih (hother (eq_false_of_ne_true hck)) hsep hund.2 hlt

/-- The SPI as constructed -/
structure SpiNew (p : Peripherals) : Prop extends SpiIdle p where
  separate : p.cbs.Separate

/-- A write to SPDR while a transfer goes on sets WCOL and leaves the transfer as it was exactly if
it starts the same transfer again.  In every run whose events do not disturb a transfer, the one that
a write to SPDR has started goes on until the eighth tick at a multiple of the divisor, which
completes it. -/
theorem spi_transfers
    (hnew : SpiNew p) (hpath : Path IoStep p taken q) (hund : ∀ x ∈ taken, x.2.Undisturbing x.1) :
  (∀ s r addr val, IoStep (.write addr val) s r → s.vdevAt addr = some .spi → s.spi.tcnt ≠ 0 →
      (TransferKept s r ↔ Restarts val s))
    ∧ ∀ before s addr val after, taken = before ++ (s, .write addr val) :: after →
      s.vdevAt addr = some .spi → s.spi.tcnt = 0 →
      let spi := s.spi.started s.spiIntr.spcr val s.world.spiPortRd.head
      let ticks := after.countP (·.2.isTickAt (spiDivisor s.spiIntr.spcr).toNat)
      (ticks < 8 → Transferring spi (8 - ticks) q)
        ∧ (ticks = 7 → ∀ e r, IoStep e q r →
          e.isTickAt (spiDivisor s.spiIntr.spcr).toNat = true → Transferred spi r)
  := by
  constructor
  · intro s r addr val hstep hat htcnt
    exact hstep.transferKept_iff hat htcnt
  · rintro before s addr val after rfl hat htcnt spi ticks
    have hstart : SpiState p := ⟨hnew.separate, .inl hnew.toSpiIdle⟩
    rw [List.forall_mem_append, List.forall_mem_cons] at hund
    obtain ⟨hund₁, -, hund₂⟩ := hund
    obtain ⟨t, hbefore, hwrite, hafter⟩ := hpath.of_append_cons
    have hs : SpiState s := hstart.path hbefore hund₁
    have hidle : SpiIdle s := by
      rcases hs.transfer with hidle | ⟨spi, left, spcr, -, htrans⟩
      · exact hidle
      · exact absurd htcnt htrans.tcnt_ne_zero
    have ht : Transferring spi 8 t := hidle.write hwrite hat
    have hsep := hwrite.separate hs.separate
    have hdiv : spi.divisor = spiDivisor s.spiIntr.spcr := rfl
    have hgoes : ticks < 8 → Transferring spi (8 - ticks) q :=
      ht.path hafter hdiv hsep hund₂
    use hgoes
    intro hseven e r hstep hck
    have hund : e.Undisturbing q := by
      cases e with
      | tick => trivial
      | _ => contradiction
    have hq := hgoes (by omega)
    have hsepq : q.cbs.Separate := by
      have hpathq : SpiState q := by
        apply SpiState.path _ hafter hund₂
        exact ⟨hsep, .inr ⟨spi, 8, s.spiIntr.spcr, rfl, ht⟩⟩
      exact hpathq.separate
    have hr := (hq.step hdiv hsepq hstep hund).1 hck
    rw [if_pos (by omega)] at hr
    exact hr

end

instance (val : Byte) (p : Peripherals) : Decidable (Restarts val p) :=
  decidable_of_iff (val = p.spi.spdr ∧ p.world.spiPortRd.head = p.spi.spdrIn
    ∧ spiDivisor p.spiIntr.spcr = p.spi.divisor ∧ p.spi.tcnt = 8)
    ⟨fun ⟨hval, hdata, hdivisor, htcnt⟩ => ⟨hval, hdata, hdivisor, htcnt⟩,
      fun ⟨hval, hdata, hdivisor, htcnt⟩ => ⟨hval, hdata, hdivisor, htcnt⟩⟩

instance (p : Peripherals) : DecidablePred (IoEvent.Undisturbing p)
  | .write addr val =>
    inferInstanceAs (Decidable (p.vdevAt addr = some .spi → p.spi.tcnt ≠ 0 → Restarts val p))
  | .reset addr => inferInstanceAs (Decidable (p.vdevAt addr = some .spi → p.spi.tcnt = 0))
  | .read _ | .tick _ | .async => inferInstanceAs (Decidable True)

/-- An SPI, at the addresses of the definitions of the devices -/
def spiPeripherals : Peripherals :=
  { (default : Peripherals) with
    vdevAt := fun addr =>
      if addr = 0x2f then some .spi else if addr = 0x2d ∨ addr = 0x2e then some .spiIntr else none
    spiIntr := { (default : SPIIntr) with spcrAddr := 0x2d, spsrAddr := 0x2e }
    spi := { (default : SPI) with spdrAddr := 0x2f } }

/-- A second byte replaces the first one. -/
theorem spi_transfers_collision :
  ∃ p q, exec IoEvent.next (fun _ _ => true) [.write 0x2f 0x55, .tick 4] spiPeripherals = some p
    ∧ p.vdevAt 0x2f = some .spi ∧ p.spi.tcnt ≠ 0 ∧ IoStep (.write 0x2f 0xaa) p q
    ∧ ¬ TransferKept p q
  := by
  have hregs : ((exec IoEvent.next (fun _ _ => true) [.write 0x2f 0x55, .tick 4] spiPeripherals).bind
      fun p => (IoEvent.next (.write 0x2f 0xaa) p).map fun q =>
        (p.vdevAt 0x2f, p.spi.tcnt, p.spi.spdr, q.spi.spdr)) = some (some .spi, 7, 0x55, 0xaa) := by
    decide +kernel
  obtain ⟨p, hp, hregs⟩ := Option.bind_eq_some_iff.mp hregs
  obtain ⟨q, hq, hregs⟩ := Option.map_eq_some_iff.mp hregs
  simp only [Prod.mk.injEq] at hregs
  obtain ⟨hat, htcnt, hspdr, hspdr'⟩ := hregs
  use p, q, hp, hat
  rw [htcnt]
  use by decide, .of_next _ p q hq
  intro h
  have heq := h.spdr
  rw [hspdr, hspdr'] at heq
  contradiction

/-- The same byte is written again, and the transfer is complete after the eighth tick at a multiple
of 4. -/
theorem spi_transfers_complete :
  ∃ q r, exec IoEvent.next (fun p e => decide (e.Undisturbing p))
      [.write 0x2f 0x55, .tick 3, .write 0x2f 0x55, .tick 4, .tick 8, .tick 12, .tick 14, .tick 16,
        .tick 20, .tick 24, .tick 28] spiPeripherals = some q
    ∧ IoStep (.tick 32) q r ∧ r.spi.portWr = [0x55]
  := by
  have hruns : ((exec IoEvent.next (fun p e => decide (e.Undisturbing p))
      [.write 0x2f 0x55, .tick 3, .write 0x2f 0x55, .tick 4, .tick 8, .tick 12, .tick 14, .tick 16,
        .tick 20, .tick 24, .tick 28] spiPeripherals).bind
      fun q => (IoEvent.next (.tick 32) q).map fun _ => ()) = some () := by decide +kernel
  obtain ⟨q, hq, hruns⟩ := Option.bind_eq_some_iff.mp hruns
  obtain ⟨r, hr, -⟩ := Option.map_eq_some_iff.mp hruns
  obtain ⟨taken, hpath, hevents, hcheck⟩ := exec_path_events IoStep.of_next hq
  obtain ⟨⟨s, _⟩, after, rfl, rfl, hafter⟩ := List.map_eq_cons_iff.mp hevents
  obtain rfl : s = spiPeripherals := by
    cases hpath
    rfl
  have hnew : SpiNew spiPeripherals := {
    tcnt := rfl
    held := rfl
    count := rfl
    separate := ⟨List.forall_mem_nil _, List.forall_mem_nil _⟩ }
  have hticks : after.countP (·.2.isTickAt 4) = 7 := by
    have hcount := congrArg (List.countP (IoEvent.isTickAt 4)) hafter
    rw [List.countP_map] at hcount
    exact hcount
  use q, r, hq, .of_next _ q r hr
  exact (((spi_transfers hnew hpath fun x hx => of_decide_eq_true (hcheck x hx)).2 []
    spiPeripherals 0x2f 0x55 after rfl rfl rfl).2 hticks _ r (.of_next _ q r hr) rfl).portWr

end SimulAvr
