import SimulAvr.Peripherals.Dispatch

/-!
# The transmitter of the UART

A transmitter shifts out the frame of a byte while another byte waits in the data register.  The
UART counts the bits of a frame in `tcnt`, and has a byte waiting where UDRE is clear.  A write to
UDR starts the count anew whether or not a frame is shifted out, and toggles UDRE, so that the UART
does what a transmitter does exactly if no bit of the frame has been counted, UDRE is clear where no
frame is shifted out, and the divisor has 16 bits.
-/

namespace SimulAvr

open Program CallbackList Transition

/-! ### A transmitter -/

/-- A frame that is shifted out -/
structure UartFrame where
  /-- the clocks of a bit -/
  divisor : Nat
  /-- the bits that are left -/
  left : Nat
  /-- a byte waits in the data register -/
  waiting : Bool
  divisor_pos : 0 < divisor
  left_pos : 0 < left
  left_le : left ≤ 11

/-- The clocks of a bit, for a rate -/
def bitClocks (ubrr : Word) : Nat :=
  16 * (ubrr.toNat + 1)

/-- The bits of a frame, with start and stop bits -/
def frameBits (ucr : Byte) : Nat :=
  if ucr &&& maskCHR9 ≠ 0 then 11 else 10

theorem frameBits_bounds
    (ucr : Byte) :
  0 < frameBits ucr ∧ frameBits ucr ≤ 11
  := by
  rw [frameBits]
  split <;> decide

theorem bitClocks_pos
    (ubrr : Word) :
  0 < bitClocks ubrr
  := by
  rw [bitClocks]
  omega

namespace UartFrame

/-- The frame of a byte that finds no other one -/
def start (ubrr : Word) (ucr : Byte) : UartFrame where
  divisor := bitClocks ubrr
  left := frameBits ucr
  waiting := false
  divisor_pos := bitClocks_pos ubrr
  left_pos := (frameBits_bounds ucr).1
  left_le := (frameBits_bounds ucr).2

/-- Another byte waits until the frame has been shifted out. -/
def accept (f : UartFrame) (ubrr : Word) : UartFrame :=
  { f with
    divisor := bitClocks ubrr
    waiting := true
    divisor_pos := bitClocks_pos ubrr }

/-- The frame after a bit: the last bit is followed by the frame of the byte that waits. -/
def shift (f : UartFrame) (ucr : Byte) : Option UartFrame :=
  if h : 1 < f.left then
    some { f with
      left := f.left - 1
      left_pos := Nat.sub_pos_of_lt h
      left_le := Nat.le_trans (Nat.sub_le _ _) f.left_le }
  else if f.waiting then
    some { start 0 ucr with divisor := f.divisor, divisor_pos := f.divisor_pos }
  else
    none

/-- The event is a tick that ends a bit. -/
def endsBit (f : UartFrame) : IoEvent → Bool
  | .tick ck => isDivisibleBy ck f.divisor
  | _ => false

end UartFrame

/-- A transmitter, which is idle or shifts out a frame -/
abbrev Transmitter : Type :=
  Option UartFrame

namespace Transmitter

/-- A write to the data register -/
def write (t : Transmitter) (ubrr : Word) (ucr : Byte) : Transmitter :=
  match t with
  | none => some (.start ubrr ucr)
  | some f => some (f.accept ubrr)

/-- The transmitter after an event -/
def next (t : Transmitter) (p : Peripherals) (e : IoEvent) : Transmitter :=
  match e with
  | .write addr _ =>
    if p.vdevAt addr = some .uart then t.write p.uartIntr.ubrr p.uartIntr.ucr else t
  | .tick ck => t.bind fun f => if isDivisibleBy ck f.divisor then f.shift p.uartIntr.ucr else some f
  | _ => t

/-- The data register is free: no byte waits there. -/
def Free (t : Transmitter) : Prop :=
  ∀ f ∈ t, f.waiting = false

/-- The event ends the last frame, with nothing waiting. -/
def Ends (t : Transmitter) (e : IoEvent) : Prop :=
  ∃ f ∈ t, f.left = 1 ∧ f.waiting = false ∧ f.endsBit e = true

end Transmitter

/-! ### The transmitter of a UART -/

/-- The UART shifts out a frame. -/
structure UartFrame.Sent (f : UartFrame) (p : Peripherals) : Prop where
  tcnt : p.uart.tcnt.toNat = f.left
  divisor : p.uart.divisor.toNat = f.divisor
  udre : p.uartIntr.usr &&& maskUDRE = if f.waiting then 0 else maskUDRE
  held : p.cbs.held .uartClkIncrCb = true
  count : p.cbs.clkCb.count .uartClkIncrCb = 1

/-- The UART does what a transmitter does. -/
def Transmits (t : Transmitter) (p : Peripherals) : Prop :=
  match t with
  | none => p.cbs.held .uartClkIncrCb = false ∧ p.cbs.clkCb.count .uartClkIncrCb = 0
  | some f => f.Sent p

/-- What the transmitter depends on -/
def uartPart (p : Peripherals) : Word × Word × Byte × Bool × Nat :=
  (p.uart.tcnt, p.uart.divisor, p.uartIntr.usr &&& maskUDRE, p.cbs.held .uartClkIncrCb,
    p.cbs.clkCb.count .uartClkIncrCb)

theorem Transmits.of_part
    {t : Transmitter} {p q : Peripherals} (h : Transmits t p) (hpart : uartPart q = uartPart p) :
  Transmits t q
  := by
  simp only [uartPart, Prod.mk.injEq] at hpart
  obtain ⟨htcnt, hdivisor, hudre, hheld, hcount⟩ := hpart
  cases t with
  | none => exact ⟨hheld.trans h.1, hcount.trans h.2⟩
  | some f =>
    obtain ⟨htcnt', hdivisor', hudre', hheld', hcount'⟩ := h
    constructor
    · rw [htcnt, htcnt']
    · rw [hdivisor, hdivisor']
    · rw [hudre, hudre']
    · rw [hheld, hheld']
    · rw [hcount, hcount']

/-! ### Accesses -/

/-- Clearing the bits of a mask leaves the bits of another one. -/
theorem and_not_and
    {mask other : Byte} (h : ~~~mask &&& other = other) (x : Byte) :
  x &&& ~~~mask &&& other = x &&& other
  := by
  rw [BitVec.and_assoc, h]

/-- Devices other than the UART and its interrupts leave the transmitter. -/
theorem Change.uartPart_eq
    {S : List IoVDev} {f : Peripherals → Peripherals} (h : Change S f) (huart : .uart ∉ S)
    (hintr : .uartIntr ∉ S) (p : Peripherals) :
  uartPart (f p) = uartPart p
  := by
  have huart' : (f p).uart = p.uart := h.regs_eq (d := .uart) huart p
  have hintr' : (f p).uartIntr = p.uartIntr := h.regs_eq (d := .uartIntr) hintr p
  have hview := h.view (g := .uartClkIncrCb) huart p
  rw [uartPart, huart', hintr']
  exact congrArg (fun v => (p.uart.tcnt, p.uart.divisor, p.uartIntr.usr &&& maskUDRE, v.1, v.2.1)) hview

/-- A change of the interrupts that leaves UDRE leaves the transmitter. -/
theorem setUARTIntr_leaves
    {f : UARTIntr → UARTIntr} (hf : ∀ ti, (f ti).usr &&& maskUDRE = ti.usr &&& maskUDRE) :
  Leaves uartPart (setUARTIntr f)
  := .set fun p => congrArg (fun x : Byte => (p.uart.tcnt, p.uart.divisor, x,
    p.cbs.held .uartClkIncrCb, p.cbs.clkCb.count CallBackFP.uartClkIncrCb)) (hf p.uartIntr)

/-- A change of another callback leaves the transmitter. -/
theorem setCbs_leaves
    {f : CallBacks → CallBacks} (hf : ∀ cbs, (f cbs).view .uartClkIncrCb = cbs.view .uartClkIncrCb) :
  Leaves uartPart (setCbs f)
  := .set fun p => congrArg (fun v : Bool × Nat × Nat => (p.uart.tcnt, p.uart.divisor,
    p.uartIntr.usr &&& maskUDRE, v.1, v.2.1)) (hf p.cbs)

theorem uartReceive_leaves :
  Leaves uartPart uartReceive
  := by
  refine .bind (.bind (.world fun _ _ => rfl) fun _ => .pure _) fun _ =>
    .bind (.set fun _ => rfl) fun _ => setUARTIntr_leaves fun ti => ?_
  split <;> rfl

theorem uartRead_leaves
    (addr : Int) :
  Leaves uartPart (uartRead addr)
  := .get fun _ => .get fun _ => .ite (.bind
    (setUARTIntr_leaves fun ti => and_not_and (by decide) ti.usr) fun _ =>
      .bind (.devIf uartReceive_leaves) fun _ => .get fun _ => .pure _) (.error _ _)

theorem uartIntrWrite_leaves
    (addr : Int) (val : Byte) :
  Leaves uartPart (uartIntrWrite addr val)
  := .get fun _ => .ite (.set fun _ => rfl) (.ite (.set fun _ => rfl) (.ite
    (.devIf (setUARTIntr_leaves fun ti => and_not_and (by decide) ti.usr))
    (.ite (.bind (.set fun _ => rfl) fun _ => .ite
      (setCbs_leaves fun cbs => view_ensure cbs (by decide))
      (setCbs_leaves fun cbs => view_withdraw cbs (by decide))) (.error _ _))))

/-- A raised interrupt leaves UDRE. -/
theorem raised_udre
    (uart : UARTIntr) :
  uart.raised.usr &&& maskUDRE = uart.usr &&& maskUDRE
  := by
  rw [UARTIntr.raised]
  split
  · exact and_not_and (by decide) uart.usr
  · rfl

/-- The callbacks that are not of the clock leave the transmitter. -/
theorem callback_uartPart
    {f : CallBackFP} (hclk : f.isClk = false) (time : Nat) :
  Leaves uartPart (callbackExecute time f)
  := by
  by_cases hf : f = .uartIntrCb
  · subst hf
    exact .bind (.get fun _ => .get fun _ => .ite (.pure _)
      (.bind (setUARTIntr_leaves raised_udre) fun _ => .pure _)) fun _ => .pure _
  · apply Leaves.of_touches (callbackExecute_touches time f)
    intro g p hg
    apply hg.uartPart_eq
    · cases f <;> simp_all [CallBackFP.reach, CallBackFP.owner, CallBackFP.isClk]
    · cases f <;> simp_all [CallBackFP.reach, CallBackFP.owner, CallBackFP.isClk]

section

variable {e : IoEvent} {p q : Peripherals}

/-- An access leaves the transmitter, unless it writes UDR or resets the UART or its interrupts. -/
theorem IoStep.uart_access
    (hstep : IoStep e p q) (haccess : e.isAccess = true) (hwrite : e.writesTo .uart p = false)
    (hreset : e.resets .uart p = false) (hresetIntr : e.resets .uartIntr p = false) :
  uartPart q = uartPart p
  := by
  apply hstep.access_leaves haccess
  · exact fun _ _ => rfl
  · intro addr d _ _
    by_cases hd : d = .uart
    · rw [hd]
      exact uartRead_leaves addr
    · apply Leaves.of_touches (d.read_touches addr)
      intro f p hf
      apply hf.uartPart_eq <;> cases d <;> simp_all [IoVDev.readReach]
  · rintro addr val d rfl hat
    have hd : d ≠ .uart := by
      rintro rfl
      exact of_decide_eq_false hwrite hat
    by_cases hintr : d = .uartIntr
    · rw [hintr]
      exact uartIntrWrite_leaves addr val
    · apply Leaves.of_touches (d.write_touches addr val)
      intro f p hf
      apply hf.uartPart_eq <;> cases d <;> simp_all [IoVDev.reach]
  · rintro addr d rfl hat p
    have hd : d ≠ .uart := by
      rintro rfl
      exact of_decide_eq_false hreset hat
    have hintr : d ≠ .uartIntr := by
      rintro rfl
      exact of_decide_eq_false hresetIntr hat
    apply d.reset_change.uartPart_eq <;> cases d <;> simp_all [IoVDev.reach]

/-- A pass over the other callbacks leaves the transmitter. -/
theorem IoStep.uart_async
    (hstep : IoStep .async p q) (hsep : p.cbs.Separate) :
  uartPart q = uartPart p
  := (hstep.async_leaves (fun _ _ => rfl) (fun _ _ => rfl)
    fun time f hf => callback_uartPart (hsep.async f hf) time).1

end

/-! ### A write to UDR -/

/-- `uart_write` -/
theorem uartWrite_ok
    {p q : Peripherals} {addr : Int} {val : Byte}
    (hrun : (uartWrite addr val).run p = .ok ((), q)) :
  q.uart.tcnt = uartFrame p.uartIntr.ucr ∧ q.uart.divisor = (p.uartIntr.ubrr + 1) * 16
    ∧ q.uartIntr.usr = (if p.uartIntr.usr &&& maskUDRE ≠ 0 then
      p.uartIntr.usr &&& ~~~maskUDRE else p.uartIntr.usr ||| maskUDRE)
    ∧ q.cbs = p.cbs.ensure .uartClkIncrCb
  := by
  rw [uartWrite, run_bind_of_ok rfl] at hrun
  split at hrun
  · cases hrun
    by_cases hudre : p.uartIntr.usr &&& maskUDRE ≠ 0
    · change uartFrame (UARTIntr.ucr (if _ then _ else _)) = _
        ∧ (UARTIntr.ubrr (if _ then _ else _) + 1) * 16 = _ ∧ UARTIntr.usr (if _ then _ else _) = _ ∧ _
      rw [if_pos hudre, if_pos hudre]
      exact ⟨rfl, rfl, rfl, rfl⟩
    · change uartFrame (UARTIntr.ucr (if _ then _ else _)) = _
        ∧ (UARTIntr.ubrr (if _ then _ else _) + 1) * 16 = _ ∧ UARTIntr.usr (if _ then _ else _) = _ ∧ _
      rw [if_neg hudre, if_neg hudre]
      exact ⟨rfl, rfl, rfl, rfl⟩
  · contradiction

theorem uartFrame_toNat
    (ucr : Byte) :
  (uartFrame ucr).toNat = frameBits ucr
  := by
  rw [uartFrame, frameBits]
  split <;> rfl

/-- The divisor has 16 bits. -/
theorem divisor_toNat
    (ubrr : Word) :
  ((ubrr + 1) * 16 : Word).toNat = bitClocks ubrr % 2 ^ 16
  := by
  rw [BitVec.toNat_mul, BitVec.toNat_add, bitClocks]
  change (ubrr.toNat + 1) % 65536 * 16 % 65536 = _
  omega

/-- UDRE is clear or set. -/
theorem and_udre_cases
    (x : Byte) :
  x &&& maskUDRE = 0 ∨ x &&& maskUDRE = maskUDRE
  := by
  have hbit : x &&& maskUDRE = if x.getLsbD 5 then maskUDRE else 0 := BitVec.and_twoPow x 5
  rw [hbit]
  split
  · exact .inr rfl
  · exact .inl rfl

/-- A write to UDR toggles UDRE. -/
theorem toggled_udre
    (x : Byte) :
  (if x &&& maskUDRE ≠ 0 then x &&& ~~~maskUDRE else x ||| maskUDRE) &&& maskUDRE
    = if x &&& maskUDRE ≠ 0 then 0 else maskUDRE
  := by
  split
  · rw [BitVec.and_assoc]
    exact BitVec.and_zero
  · rw [BitVec.and_or_distrib_right]
    rcases and_udre_cases x with hx | hx <;> rw [hx] <;> rfl

/-- What a write to UDR needs: a divisor of 16 bits, and UDRE clear where no frame is shifted out, or
no bit counted of the frame that is. -/
def TransmitterWriteFits (t : Transmitter) (p : Peripherals) : Prop :=
  bitClocks p.uartIntr.ubrr < 2 ^ 16 ∧ match t with
    | none => p.uartIntr.usr &&& maskUDRE = 0
    | some f => f.left = frameBits p.uartIntr.ucr

/-- A write to UDR while the data register is free -/
theorem Transmits.write_iff
    {t : Transmitter} {p q : Peripherals} {addr : Int} {val : Byte} (h : Transmits t p)
    (hfree : t.Free) (hstep : IoStep (.write addr val) p q) (hat : p.vdevAt addr = some .uart) :
  Transmits (t.write p.uartIntr.ubrr p.uartIntr.ucr) q ↔ TransmitterWriteFits t p
  := by
  obtain ⟨htcnt, hdivisor, husr, hcbs⟩ : q.uart.tcnt = uartFrame p.uartIntr.ucr
      ∧ q.uart.divisor = (p.uartIntr.ubrr + 1) * 16 ∧ _ ∧ q.cbs = p.cbs.ensure .uartClkIncrCb := by
    cases hstep with
    | write h =>
      rw [devWrite_at hat] at h
      exact uartWrite_ok (p := { p with history := p.history ++ [.write addr val] }) h
  have hudre := congrArg (· &&& maskUDRE) husr
  change q.uartIntr.usr &&& maskUDRE = (if p.uartIntr.usr &&& maskUDRE ≠ 0 then _ else _) &&& maskUDRE
    at hudre
  rw [toggled_udre] at hudre
  have hclocks : q.uart.divisor.toNat = bitClocks p.uartIntr.ubrr
      ↔ bitClocks p.uartIntr.ubrr < 2 ^ 16 := by
    rw [hdivisor, divisor_toNat]
    exact Nat.mod_eq_iff_lt (by decide)
  have hbits : q.uart.tcnt.toNat = frameBits p.uartIntr.ucr := by
    rw [htcnt, uartFrame_toNat]
  cases t with
  | none =>
    have hview : p.cbs.view .uartClkIncrCb = (false, 0, (p.cbs.view .uartClkIncrCb).2.2) :=
      Prod.ext h.1 (Prod.ext h.2 rfl)
    have hq := view_ensure_clk p.cbs (f := .uartClkIncrCb) rfl hview
    rw [← hcbs] at hq
    constructor
    · intro hsent
      use hclocks.mp hsent.divisor
      change p.uartIntr.usr &&& maskUDRE = 0
      by_contra hne
      have hsent' := hsent.udre
      rw [hudre, if_pos hne] at hsent'
      change (0 : Byte) = maskUDRE at hsent'
      exact absurd hsent' (by decide)
    · rintro ⟨hlt, hclear⟩
      constructor
      · exact hbits
      · exact hclocks.mpr hlt
      · rw [hudre, if_neg (not_not.mpr hclear)]
        rfl
      · exact congrArg Prod.fst hq
      · exact congrArg (·.2.1) hq
  | some f =>
    have hwaiting : f.waiting = false := hfree f rfl
    have hset : p.uartIntr.usr &&& maskUDRE = maskUDRE := by
      rw [h.udre, hwaiting]
      rfl
    rw [CallBacks.ensure, if_pos h.held] at hcbs
    constructor
    · intro hsent
      exact ⟨hclocks.mp hsent.divisor, hsent.tcnt.symm.trans hbits⟩
    · rintro ⟨hlt, hleft⟩
      constructor
      · exact hbits.trans hleft.symm
      · exact hclocks.mpr hlt
      · rw [hudre, hset]
        rfl
      · rw [hcbs]
        exact h.held
      · rw [hcbs]
        exact h.count

/-! ### A tick -/

/-- What `uart_clk_incr_cb` does to the registers, where the callback is held: whether the callback
is to be removed, the registers, and whether the callback is still held -/
def uartTicked (ck : Nat) (uart : UART) (ti : UARTIntr) : Bool × UART × UARTIntr × Bool :=
  let tcnt := if isDivisibleBy ck uart.divisor.toNat then uart.tcnt - 1 else uart.tcnt
  if tcnt ≠ (uart.tcnt.setWidth 8).setWidth 16 ∧ tcnt = 0 then
    if ti.usr &&& maskUDRE ≠ 0 then
      (true, { uart with tcnt := tcnt }, { ti with usr := ti.usr ||| maskTXC }, false)
    else
      (false, { uart with tcnt := uartFrame ti.ucr },
        { ti with usr := ti.usr ||| maskUDRE, usrShadow := ti.usrShadow ||| maskUDRE }, true)
  else
    (false, { uart with tcnt := tcnt }, ti, true)

/-- `uart_clk_incr_cb`, where the callback is held -/
theorem uartClkIncrCb_run
    (ck : Nat) {s : Peripherals} (hheld : s.cbs.held .uartClkIncrCb = true)
    (hdivisor : s.uart.divisor ≠ 0) :
  ∃ ret t, (uartClkIncrCb ck).run s = .ok (ret, t)
    ∧ (decide (ret = .remove), t.uart, t.uartIntr, t.cbs.held .uartClkIncrCb)
      = uartTicked ck s.uart s.uartIntr
  := by
  rw [uartClkIncrCb, run_bind_of_ok rfl, run_bind_of_ok rfl, run_bind_of_ok rfl,
    if_neg (not_not.mpr hheld), if_neg hdivisor]
  unfold uartTicked
  dsimp only
  generalize (if isDivisibleBy ck s.uart.divisor.toNat = true then s.uart.tcnt - 1 else s.uart.tcnt)
    = tcnt
  rw [run_bind_of_ok rfl]
  split
  · split
    · refine ⟨_, _, rfl, ?_⟩
      exact congrArg (fun v => (true, _, _, v.1)) (view_withdraw_self s.cbs (f := .uartClkIncrCb))
    · refine ⟨_, _, rfl, ?_⟩
      exact congrArg (fun held => (false, _, _, held)) hheld
  · refine ⟨_, _, rfl, ?_⟩
    exact congrArg (fun held => (false, _, _, held)) hheld

theorem uartClkIncrCb_ticked
    (ck : Nat) (uart : UART) (ti : UARTIntr) :
  Triple (fun s => (s.uart, s.uartIntr, s.cbs.held .uartClkIncrCb) = (uart, ti, true))
    (callbackExecute ck .uartClkIncrCb)
    (fun r s => r.1 = (uartTicked ck uart ti).1
      ∧ (s.uart, s.uartIntr, s.cbs.held .uartClkIncrCb) = (uartTicked ck uart ti).2)
    (fun _ => True)
  := by
  apply callbackExecute_clk (Q := fun removed s => removed = (uartTicked ck uart ti).1
    ∧ (s.uart, s.uartIntr, s.cbs.held .uartClkIncrCb) = (uartTicked ck uart ti).2) rfl
  intro s hs
  simp only [Prod.mk.injEq] at hs
  obtain ⟨rfl, rfl, hheld⟩ := hs
  by_cases hdivisor : s.uart.divisor = 0
  · rw [uartClkIncrCb, run_bind_of_ok rfl, run_bind_of_ok rfl, run_bind_of_ok rfl,
      if_neg (not_not.mpr hheld), if_pos hdivisor]
    trivial
  · obtain ⟨ret, t, hrun, hticked⟩ := uartClkIncrCb_run ck hheld hdivisor
    rw [hrun, ← hticked]
    exact ⟨rfl, rfl⟩

/-- The cases of a tick, where bits are left -/
theorem uartTicked_eq
    (ck : Nat) {uart : UART} (ti : UARTIntr) {left : Nat} (hleft : uart.tcnt.toNat = left)
    (hpos : 0 < left) (hle : left ≤ 11) :
  uartTicked ck uart ti =
    if isDivisibleBy ck uart.divisor.toNat then
      if 1 < left then (false, { uart with tcnt := uart.tcnt - 1 }, ti, true)
      else if ti.usr &&& maskUDRE ≠ 0 then
        (true, { uart with tcnt := 0 }, { ti with usr := ti.usr ||| maskTXC }, false)
      else
        (false, { uart with tcnt := uartFrame ti.ucr },
          { ti with usr := ti.usr ||| maskUDRE, usrShadow := ti.usrShadow ||| maskUDRE }, true)
    else (false, uart, ti, true)
  := by
  have hlast : (uart.tcnt.setWidth 8).setWidth 16 = uart.tcnt := by
    apply BitVec.eq_of_toNat_eq
    rw [BitVec.toNat_setWidth, BitVec.toNat_setWidth, hleft]
    omega
  have hpred : (uart.tcnt - 1).toNat = left - 1 := by
    rw [BitVec.toNat_sub, hleft]
    change (65536 - 1 + left) % 65536 = left - 1
    omega
  unfold uartTicked
  rw [hlast]
  split
  · next hck =>
    dsimp only
    have hne : uart.tcnt - 1 ≠ uart.tcnt := by
      intro heq
      rw [heq, hleft] at hpred
      omega
    by_cases hone : 1 < left
    · rw [if_pos hone]
      apply if_neg
      rintro ⟨-, hzero⟩
      rw [hzero] at hpred
      change 0 = left - 1 at hpred
      omega
    · have hzero : uart.tcnt - 1 = 0 := by
        apply BitVec.eq_of_toNat_eq
        rw [hpred]
        change left - 1 = 0
        omega
      rw [if_neg hone, if_pos ⟨hne, hzero⟩, hzero]
  · exact if_neg fun h => h.1 rfl

section

variable {t : Transmitter} {e : IoEvent} {p q : Peripherals} {ck : Nat}

/-- The other callbacks of the clock leave the registers of the UART and of its interrupts. -/
theorem callback_uart
    {g : CallBackFP} (hclk : g.isClk = true) (hg : g ≠ .uartClkIncrCb) (ck : Nat) :
  Leaves (fun p => (p.uart, p.uartIntr, p.cbs.held .uartClkIncrCb)) (callbackExecute ck g)
  := by
  have hreach : .uart ∉ g.reach ∧ .uartIntr ∉ g.reach := by
    cases g <;> first | contradiction | simp [CallBackFP.reach, CallBackFP.owner]
  exact callback_leaves_regs (d := .uart) (f := .uartClkIncrCb) hreach.1 hreach.2 hreach.1 ck

/-- A tick while no frame is shifted out -/
theorem IoStep.uart_tick_idle
    (hstep : IoStep (.tick ck) p q) (hsep : p.cbs.Separate) (h : Transmits none p) :
  Transmits none q ∧ q.uartIntr = p.uartIntr
  := by
  have hne : ∀ f ∈ p.cbs.clkCb, f ≠ .uartClkIncrCb := by
    rintro f hf rfl
    exact List.count_eq_zero.mp h.2 hf
  obtain ⟨hpart, hsub⟩ := hstep.tick_leaves (fun _ _ => rfl)
    fun f hf => callback_uart (hsep.clk f hf) (hne f hf) ck
  have hle := hsub.count_le .uartClkIncrCb
  rw [h.2] at hle
  simp only [Prod.mk.injEq] at hpart
  obtain ⟨-, hintr, hheld⟩ := hpart
  exact ⟨⟨hheld.trans h.1, Nat.le_zero.mp hle⟩, hintr⟩

/-- TXC is set by the end of the last frame, and by nothing else. -/
def TxcSet (t : Transmitter) (e : IoEvent) (p q : Peripherals) : Prop :=
  (t.Ends e → q.uartIntr.usr &&& maskTXC ≠ 0)
    ∧ (¬ t.Ends e → p.uartIntr.usr &&& maskTXC = 0 → q.uartIntr.usr &&& maskTXC = 0)

/-- A tick of a frame -/
theorem UartFrame.Sent.tick
    {f : UartFrame} (h : f.Sent p) (hsep : p.cbs.Separate) (hstep : IoStep (.tick ck) p q) :
  Transmits (Transmitter.next (some f) p (.tick ck)) q ∧ TxcSet (some f) (.tick ck) p q
  := by
  have hstart : (p.uart, p.uartIntr, p.cbs.held .uartClkIncrCb) = (p.uart, p.uartIntr, true) := by
    rw [h.held]
  obtain ⟨hq, hcount⟩ := hstep.tick_once (fun _ _ => rfl)
    (fun g hg hne => callback_uart (hsep.clk g hg) hne ck)
    (hstart ▸ uartClkIncrCb_ticked ck p.uart p.uartIntr) h.count
  rw [uartTicked_eq ck p.uartIntr h.tcnt f.left_pos f.left_le, h.divisor] at hq hcount
  change Transmits (if isDivisibleBy ck f.divisor = true then f.shift p.uartIntr.ucr else some f) q ∧ _
  by_cases hck : isDivisibleBy ck f.divisor = true
  · rw [if_pos hck] at hq hcount ⊢
    rw [UartFrame.shift]
    by_cases hone : 1 < f.left
    · rw [if_pos hone] at hq hcount
      rw [dif_pos hone]
      simp only [Prod.mk.injEq] at hq
      obtain ⟨huart, hintr, hheld⟩ := hq
      refine ⟨⟨?_, ?_, ?_, hheld, hcount⟩, ?_, ?_⟩
      · rw [huart]
        change (p.uart.tcnt - 1).toNat = f.left - 1
        rw [BitVec.toNat_sub, h.tcnt]
        change (65536 - 1 + f.left) % 65536 = f.left - 1
        have := f.left_le
        omega
      · rw [huart]
        exact h.divisor
      · rw [hintr]
        exact h.udre
      · rintro ⟨_, ⟨rfl⟩, hlast, -⟩
        omega
      · rw [hintr]
        exact fun _ hclear => hclear
    · have hlast : f.left = 1 := by
        have := f.left_pos
        omega
      rw [if_neg hone] at hq hcount
      rw [dif_neg hone]
      cases hwaiting : f.waiting with
      | false =>
        have hset : p.uartIntr.usr &&& maskUDRE ≠ 0 := by
          rw [h.udre, hwaiting]
          decide
        rw [if_pos hset] at hq hcount
        simp only [Prod.mk.injEq] at hq
        obtain ⟨-, hintr, hheld⟩ := hq
        refine ⟨⟨hheld, hcount⟩, ?_, ?_⟩
        · intro _
          have hbit := (BitMask.and_twoPow_ne_zero q.uartIntr.usr 6).mpr
          rw [hintr, BitVec.getLsbD_or] at hbit
          rw [hintr]
          exact hbit (Bool.or_true _)
        · exact fun hno => absurd ⟨f, rfl, hlast, hwaiting, hck⟩ hno
      | true =>
        have hclear : ¬ p.uartIntr.usr &&& maskUDRE ≠ 0 := by
          rw [h.udre, hwaiting]
          decide
        rw [if_neg hclear] at hq hcount
        simp only [Prod.mk.injEq] at hq
        obtain ⟨huart, hintr, hheld⟩ := hq
        refine ⟨⟨?_, ?_, ?_, hheld, hcount⟩, ?_, ?_⟩
        · rw [huart]
          exact uartFrame_toNat p.uartIntr.ucr
        · rw [huart]
          exact h.divisor
        · rw [hintr]
          change (p.uartIntr.usr ||| maskUDRE) &&& maskUDRE = maskUDRE
          rw [BitVec.and_or_distrib_right, not_not.mp hclear]
          rfl
        · rintro ⟨_, ⟨rfl⟩, -, hfalse, -⟩
          rw [hwaiting] at hfalse
          contradiction
        · intro _ htxc
          rw [hintr]
          change (p.uartIntr.usr ||| maskUDRE) &&& maskTXC = 0
          rw [BitVec.and_or_distrib_right, htxc]
          rfl
  · rw [if_neg hck] at hq hcount ⊢
    simp only [Prod.mk.injEq] at hq
    obtain ⟨huart, hintr, hheld⟩ := hq
    refine ⟨⟨?_, ?_, ?_, hheld, hcount⟩, ?_, ?_⟩
    · rw [huart]
      exact h.tcnt
    · rw [huart]
      exact h.divisor
    · rw [hintr]
      exact h.udre
    · rintro ⟨_, ⟨rfl⟩, -, -, hends⟩
      exact absurd hends hck
    · rw [hintr]
      exact fun _ hclear => hclear

end

/-! ### TXC -/

/-- TXC is clear. -/
def TxcClear (p : Peripherals) : Prop :=
  p.uartIntr.usr &&& maskTXC = 0

/-- The program does not set TXC. -/
abbrev KeepsTxc {α : Type} (x : DevM α) : Prop :=
  Keeps TxcClear (fun _ => True) x

theorem keepsTxc_get
    {α β : Type} {f : Peripherals → α} {g : α → DevM β} (h : ∀ a, KeepsTxc (g a)) :
  KeepsTxc (getDev f >>= g)
  := Triple.bind (Q := fun _ => TxcClear) (fun _ hp => hp) h

theorem keepsTxc_setUARTIntr
    {f : UARTIntr → UARTIntr} (hf : ∀ ti, ti.usr &&& maskTXC = 0 → (f ti).usr &&& maskTXC = 0) :
  KeepsTxc (setUARTIntr f)
  := fun p hp => hf p.uartIntr hp

/-- A method that touches other devices does not set TXC. -/
theorem Touches.keepsTxc
    {S : List IoVDev} {α : Type} {x : DevM α} (hx : Touches S x) (hintr : .uartIntr ∉ S) :
  KeepsTxc x
  := by
  apply hx.keeps
  intro f p hf hp
  have heq : (f p).uartIntr = p.uartIntr := hf.regs_eq (d := .uartIntr) hintr p
  rw [TxcClear, heq]
  exact hp

theorem uartReceive_keepsTxc :
  KeepsTxc uartReceive
  := by
  refine Triple.bind (Touches.keepsTxc (S := [])
    (.bind (.world _ _) fun _ => .pure _) List.not_mem_nil) fun _ => Triple.bind
    (Touches.keepsTxc (S := [.uart]) (setUART_touches (.head _) _) (by decide)) fun _ =>
    keepsTxc_setUARTIntr fun ti hti => ?_
  split <;> exact hti

theorem uartRead_keepsTxc
    (addr : Int) :
  KeepsTxc (uartRead addr)
  := keepsTxc_get fun _ => keepsTxc_get fun _ => Triple.ite (fun _ => Triple.bind
    (keepsTxc_setUARTIntr fun ti hti => (and_not_and (by decide) ti.usr).trans hti) fun _ =>
      Triple.bind (Triple.ite (fun _ => uartReceive_keepsTxc) fun _ => Triple.pure fun _ hp => hp)
      fun _ => keepsTxc_get fun _ => Triple.pure fun _ hp => hp) fun _ => Triple.throw trivial

theorem uartWrite_keepsTxc
    (addr : Int) (val : Byte) :
  KeepsTxc (uartWrite addr val)
  := by
  refine keepsTxc_get fun _ => Triple.ite (fun _ => Triple.bind
    (keepsTxc_setUARTIntr fun ti hti => ?_) fun _ => keepsTxc_get fun _ =>
      Touches.keepsTxc (S := [.uart]) (.bind (setUART_touches (.head _) _) fun _ =>
        .bind (ensure_touches (.head _)) fun _ => setUART_touches (.head _) _) (by decide))
    fun _ => Triple.throw trivial
  split
  · exact (and_not_and (by decide) ti.usr).trans hti
  · change (ti.usr ||| maskUDRE) &&& maskTXC = 0
    rw [BitVec.and_or_distrib_right, hti]
    rfl

theorem uartIntrWrite_keepsTxc
    (addr : Int) (val : Byte) :
  KeepsTxc (uartIntrWrite addr val)
  := by
  have hclear (ti : UARTIntr) : ti.usr &&& ~~~maskTXC &&& maskTXC = 0 := by
    rw [BitVec.and_assoc]
    exact BitVec.and_zero
  exact keepsTxc_get fun _ => Triple.ite (fun _ => keepsTxc_setUARTIntr fun _ hti => hti) fun _ =>
    Triple.ite (fun _ => keepsTxc_setUARTIntr fun _ hti => hti) fun _ =>
    Triple.ite (fun _ => Triple.ite (fun _ => keepsTxc_setUARTIntr fun ti _ => hclear ti) fun _ =>
      Triple.pure fun _ hp => hp) fun _ =>
    Triple.ite (fun _ => Triple.bind (keepsTxc_setUARTIntr fun _ hti => hti) fun _ =>
      Triple.ite (fun _ _ hp => hp) (fun _ _ hp => hp)) fun _ => Triple.throw trivial

/-- The callbacks that are not of the clock do not set TXC. -/
theorem callback_keepsTxc
    {f : CallBackFP} (hclk : f.isClk = false) (time : Nat) :
  KeepsTxc (callbackExecute time f)
  := by
  by_cases hf : f = .uartIntrCb
  · subst hf
    refine Triple.bind (keepsTxc_get fun _ => keepsTxc_get fun _ => Triple.ite
      (fun _ => Triple.pure fun _ hp => hp) fun _ => Triple.bind
      (keepsTxc_setUARTIntr fun ti hti => ?_) fun _ => Triple.pure fun _ hp => hp)
      fun _ => Triple.pure fun _ hp => hp
    rw [UARTIntr.raised]
    split
    · rw [BitVec.and_assoc]
      exact BitVec.and_zero
    · exact hti
  · apply (callbackExecute_touches time f).keepsTxc
    cases f <;> simp_all [CallBackFP.reach, CallBackFP.owner, CallBackFP.isClk]

section

variable {e : IoEvent} {p q : Peripherals}

/-- Nothing but a tick sets TXC. -/
theorem IoStep.txc_other
    (hstep : IoStep e p q) (hsep : p.cbs.Separate) (htick : e.isTick = false) (hp : TxcClear p) :
  TxcClear q
  := by
  cases e with
  | tick ck => contradiction
  | async =>
    exact (hstep.async_keeps (fun _ _ hp => hp) (fun _ _ hp => hp)
      (fun time f hf => callback_keepsTxc (hsep.async f hf) time) hp).1
  | _ =>
    apply hstep.access_keeps (I := TxcClear) rfl _ _ _ _ hp
    · exact fun _ _ hp => hp
    · intro addr d _ _
      by_cases hd : d = .uart
      · rw [hd]
        exact uartRead_keepsTxc addr
      · apply (d.read_touches addr).keepsTxc
        cases d <;> simp_all [IoVDev.readReach]
    · intro addr val d _ _
      by_cases hd : d = .uart
      · rw [hd]
        exact uartWrite_keepsTxc addr val
      by_cases hintr : d = .uartIntr
      · rw [hintr]
        exact uartIntrWrite_keepsTxc addr val
      · apply (d.write_touches addr val).keepsTxc
        cases d <;> simp_all [IoVDev.reach]
    · intro addr d _ _ p hp
      by_cases hintr : d = .uartIntr
      · rw [hintr]
        exact BitVec.zero_and
      by_cases hd : d = .uart
      · rw [hd]
        exact hp
      · have heq : (d.reset p).uartIntr = p.uartIntr := by
          apply d.reset_change.regs_eq (d := .uartIntr)
          cases d <;> simp_all [IoVDev.reach]
        rw [TxcClear, heq]
        exact hp

end

/-! ### Runs -/

/-- A step of a transmitter and of a UART, side by side: UDR is written while the data register is
free, and the UART is reset while no frame is shifted out. -/
structure TransmitStep (e : IoEvent) (s t : Transmitter × Peripherals) : Prop where
  step : IoStep e s.2 t.2
  next : t.1 = s.1.next s.2 e
  free : e.writesTo .uart s.2 = true → s.1.Free
  reset : e.resets .uart s.2 = true ∨ e.resets .uartIntr s.2 = true → s.1 = none

/-- A write to UDR does what it does to a transmitter. -/
def TransmitFits (s : Transmitter × Peripherals) : IoEvent → Prop
  | .write addr _ => s.2.vdevAt addr = some .uart → TransmitterWriteFits s.1 s.2
  | _ => True

section

variable {e : IoEvent} {s t : Transmitter × Peripherals}

/-- A reset of an idle UART -/
theorem Transmits.reset
    {addr : Int} {p q : Peripherals} (h : Transmits none p) (hstep : IoStep (.reset addr) p q) :
  Transmits none q
  := by
  cases hstep with
  | reset =>
    cases hat : p.vdevAt addr with
    | none =>
      rw [devReset_none hat]
      exact h
    | some d =>
      rw [devReset_at hat]
      by_cases hd : d = .uart
      · rw [hd]
        exact ⟨congrArg Prod.fst (view_withdraw_self p.cbs (f := .uartClkIncrCb)), h.2⟩
      · have hview := d.reset_change.view (g := .uartClkIncrCb) (by
          cases d <;> simp_all [IoVDev.reach, CallBackFP.owner])
          { p with history := p.history ++ [.reset addr] }
        exact ⟨(congrArg Prod.fst hview).trans h.1, (congrArg (·.2.1) hview).trans h.2⟩

/-- A step of a UART that does what a transmitter does is one of the transmitter exactly if the event
fits. -/
theorem TransmitStep.transmits_iff
    (hstep : TransmitStep e s t) (hsep : s.2.cbs.Separate) (h : Transmits s.1 s.2) :
  Transmits t.1 t.2 ↔ TransmitFits s e
  := by
  obtain ⟨hio, hnext, hfree, hreset⟩ := hstep
  rw [hnext]
  have hother (hpart : uartPart t.2 = uartPart s.2) : Transmits s.1 t.2 ↔ True :=
    iff_true_intro (h.of_part hpart)
  cases e with
  | read addr => exact hother (hio.uart_access rfl rfl rfl rfl)
  | write addr val =>
    by_cases hat : s.2.vdevAt addr = some .uart
    · rw [Transmitter.next, if_pos hat, TransmitFits, h.write_iff (hfree (decide_eq_true hat)) hio hat]
      exact ⟨fun hfits _ => hfits, fun hfits => hfits hat⟩
    · rw [Transmitter.next, if_neg hat, TransmitFits]
      have hpart := hio.uart_access rfl (decide_eq_false hat) rfl rfl
      exact (hother hpart).trans (iff_true_intro fun hyes => absurd hyes hat).symm
  | reset addr =>
    by_cases hr : (IoEvent.reset addr).resets .uart s.2 = true
        ∨ (IoEvent.reset addr).resets .uartIntr s.2 = true
    · have hidle := hreset hr
      change Transmits s.1 t.2 ↔ True
      rw [hidle] at h ⊢
      exact iff_true_intro (h.reset hio)
    · rw [not_or] at hr
      exact hother (hio.uart_access rfl rfl (eq_false_of_ne_true hr.1) (eq_false_of_ne_true hr.2))
  | tick ck =>
    obtain ⟨u, p⟩ := s
    cases u with
    | none => exact iff_true_intro (hio.uart_tick_idle hsep h).1
    | some f => exact iff_true_intro (UartFrame.Sent.tick h hsep hio).1
  | async => exact hother (hio.uart_async hsep)

/-- TXC is set at the end of the last frame only. -/
theorem TransmitStep.txcSet
    (hstep : TransmitStep e s t) (hsep : s.2.cbs.Separate) (h : Transmits s.1 s.2) :
  TxcSet s.1 e s.2 t.2
  := by
  have hother (htick : e.isTick = false) : TxcSet s.1 e s.2 t.2 := by
    constructor
    · rintro ⟨f, -, -, -, hends⟩
      cases e with
      | tick => contradiction
      | _ => contradiction
    · exact fun _ hp => hstep.step.txc_other hsep htick hp
  cases e with
  | tick ck =>
    obtain ⟨u, p⟩ := s
    cases u with
    | none =>
      constructor
      · rintro ⟨f, hf, -⟩
        contradiction
      · intro _ hp
        rw [(hstep.step.uart_tick_idle hsep h).2]
        exact hp
    | some f => exact (UartFrame.Sent.tick h hsep hstep.step).2
  | _ => exact hother rfl

/-- A frame along a path, until its last bit -/
theorem UartFrame.path
    {f : UartFrame} {taken : List ((Transmitter × Peripherals) × IoEvent)}
    (hpath : Path TransmitStep s taken t) (hs : s.1 = some f)
    (hlt : taken.countP (fun x => x.1.1.any (·.endsBit x.2)) < f.left) :
  ∃ g, t.1 = some g ∧ g.left + taken.countP (fun x => x.1.1.any (·.endsBit x.2)) = f.left
  := by
  induction hpath generalizing f with
  | nil => exact ⟨f, hs, Nat.add_zero _⟩
  | @cons s r t e taken hst _ ih =>
    rw [List.countP_cons] at hlt ⊢
    have hends : s.1.any (·.endsBit e) = f.endsBit e := by
      rw [hs]
      rfl
    rw [hends] at hlt ⊢
    have hnext := hst.next
    rw [hs] at hnext
    by_cases hbit : f.endsBit e = true
    · rw [if_pos hbit] at hlt ⊢
      cases e with
      | tick ck =>
        have hone : 1 < f.left := by omega
        have hshift : Transmitter.next (some f) s.2 (.tick ck) = f.shift s.2.uartIntr.ucr := if_pos hbit
        rw [hshift, UartFrame.shift, dif_pos hone] at hnext
        obtain ⟨g, hg, hleft⟩ := ih hnext (by
          change _ < f.left - 1
          omega)
        use g, hg
        change _ = f.left - 1 at hleft
        omega
      | _ => contradiction
    · rw [if_neg hbit] at hlt ⊢
      obtain ⟨g, hg, hleft⟩ : ∃ g, r.1 = some g ∧ g.left = f.left := by
        rw [hnext]
        cases e with
        | tick ck =>
          use f
          exact ⟨if_neg hbit, rfl⟩
        | write addr val =>
          rw [Transmitter.next]
          split
          · exact ⟨_, rfl, rfl⟩
          · exact ⟨_, rfl, rfl⟩
        | _ => exact ⟨f, rfl, rfl⟩
      rw [← hleft] at hlt ⊢
      exact ih hg hlt

end

/-- The UART as constructed -/
structure UartNew (p : Peripherals) : Prop where
  held : p.cbs.held .uartClkIncrCb = false
  count : p.cbs.clkCb.count .uartClkIncrCb = 0
  separate : p.cbs.Separate

/-- In every run in which UDR is written while the data register is free, the UART does what a
transmitter does exactly if every write fits.  Then the clock of the UART does not abort, TXC is set
at the end of the last frame and by nothing else, and a frame takes as many ends of bits as it has
bits. -/
theorem uart_transmits
    {p q : Peripherals} {t : Transmitter} {taken : List ((Transmitter × Peripherals) × IoEvent)}
    (hnew : UartNew p) (hpath : Path TransmitStep (none, p) taken (t, q)) :
  (((∀ x ∈ taken, Transmits x.1.1 x.1.2) ∧ Transmits t q) ↔ ∀ x ∈ taken, TransmitFits x.1 x.2)
    ∧ ((∀ x ∈ taken, TransmitFits x.1 x.2) →
      (∀ ck, ∃ ret r, (uartClkIncrCb ck).run q = .ok (ret, r))
      ∧ (∀ e r, TransmitStep e (t, q) r → TxcSet t e q r.2)
      ∧ ∀ f later r, t = some f → Path TransmitStep (t, q) later r →
        later.countP (fun x => x.1.1.any (·.endsBit x.2)) < f.left →
        ∃ g, r.1 = some g ∧ g.left + later.countP (fun x => x.1.1.any (·.endsBit x.2)) = f.left)
  := by
  have hiff : ((∀ x ∈ taken, Transmits x.1.1 x.1.2) ∧ Transmits t q)
      ↔ ∀ x ∈ taken, TransmitFits x.1 x.2 :=
    Path.invariant_iff (I := fun s => Transmits s.1 s.2) (J := fun s => s.2.cbs.Separate)
      (fun s e t hsep hstep => hstep.step.separate hsep)
      (fun s e t hsep h hstep => hstep.transmits_iff hsep h) hpath hnew.separate
      (show Transmits none p from ⟨hnew.held, hnew.count⟩)
  use hiff
  intro hfits
  have hq := (hiff.mpr hfits).2
  have hseps : ((∀ x ∈ taken, x.1.2.cbs.Separate) ∧ q.cbs.Separate) ↔ ∀ x ∈ taken, True :=
    Path.invariant_iff (I := fun s => s.2.cbs.Separate) (J := fun _ => True)
      (fun _ _ _ _ _ => trivial)
      (fun s e t _ hs hstep => iff_true_intro (hstep.step.separate hs)) hpath trivial
      hnew.separate
  obtain ⟨-, hsep⟩ := hseps.mpr fun _ _ => trivial
  split_ands
  · intro ck
    cases t with
    | none =>
      use .remove, q
      rw [uartClkIncrCb, run_bind_of_ok rfl, run_bind_of_ok rfl, run_bind_of_ok rfl,
        if_pos (ne_true_of_eq_false hq.1)]
      rfl
    | some f =>
      have hdivisor : q.uart.divisor ≠ 0 := by
        intro hzero
        have heq := hq.divisor
        rw [hzero] at heq
        exact absurd heq (Nat.ne_of_lt f.divisor_pos)
      obtain ⟨ret, r, hrun, -⟩ := uartClkIncrCb_run ck hq.held hdivisor
      exact ⟨ret, r, hrun⟩
  · exact fun e r hstep => hstep.txcSet hsep hq
  · exact fun f later r ht hlater hlt => UartFrame.path hlater ht hlt

/-- The UART of the at43usb320 -/
def uartTransmitter : Peripherals :=
  { (default : Peripherals) with
    vdevAt := fun addr =>
      if addr = 0x2c then some .uart else if addr ∈ [0x29, 0x2a, 0x2b] then some .uartIntr else none
    uartIntr := { (default : UARTIntr) with ubrrlAddr := 0x29, ucrAddr := 0x2a, usrAddr := 0x2b }
    uart := { (default : UART) with udrAddr := 0x2c } }

theorem uartTransmitter_new :
  UartNew uartTransmitter
  := ⟨rfl, rfl, List.forall_mem_nil _, List.forall_mem_nil _⟩

/-- A first byte is written. -/
theorem transmitStep_first
    {q : Peripherals} (hq : IoEvent.next (.write 0x2c 0x55) uartTransmitter = some q) :
  TransmitStep (.write 0x2c 0x55) (none, uartTransmitter) (some (.start 0 0), q)
  := by
  constructor
  · exact .of_next _ _ _ hq
  · rfl
  · exact fun _ => nofun
  · exact fun _ => rfl

/-- A second byte is written after a bit of the first frame: 10 bits are left again, not 9. -/
theorem uart_transmits_waiting :
  ∃ taken t q, Path TransmitStep (none, uartTransmitter) taken (t, q)
    ∧ taken.map Prod.snd = [.write 0x2c 0x55, .tick 16, .write 0x2c 0xaa] ∧ ¬ Transmits t q
  := by
  have hregs : ((IoEvent.next (.write 0x2c 0x55) uartTransmitter).bind fun q₁ =>
      (IoEvent.next (.tick 16) q₁).bind fun q₂ => (IoEvent.next (.write 0x2c 0xaa) q₂).map fun q₃ =>
        decide (q₁.uartIntr.ucr = 0 ∧ q₂.uartIntr.ubrr = 0 ∧ q₂.vdevAt 0x2c = some .uart
          ∧ q₃.uart.tcnt = 10)) = some true := by
    decide +kernel
  obtain ⟨q₁, hq₁, hregs⟩ := Option.bind_eq_some_iff.mp hregs
  obtain ⟨q₂, hq₂, hregs⟩ := Option.bind_eq_some_iff.mp hregs
  obtain ⟨q₃, hq₃, hregs⟩ := Option.map_eq_some_iff.mp hregs
  obtain ⟨hucr₁, hubrr₂, hat₂, htcnt⟩ := of_decide_eq_true hregs
  have hfirst := transmitStep_first hq₁
  have hnext : Transmitter.next (some (.start 0 0)) q₁ (.tick 16) = (UartFrame.start 0 0).shift 0 := by
    rw [Transmitter.next, hucr₁]
    rfl
  obtain ⟨f, hf, hleft, hwaiting⟩ : ∃ f : UartFrame, (UartFrame.start 0 0).shift 0 = some f
      ∧ f.left = 9 ∧ f.waiting = false := ⟨_, rfl, rfl, rfl⟩
  have hsecond : TransmitStep (.tick 16) (some (.start 0 0), q₁) (some f, q₂) := by
    constructor
    · exact .of_next _ _ _ hq₂
    · exact hf.symm.trans hnext.symm
    · nofun
    · rintro (h | h) <;> contradiction
  have hthird : TransmitStep (.write 0x2c 0xaa) (some f, q₂) (some (f.accept 0), q₃) := by
    constructor
    · exact .of_next _ _ _ hq₃
    · change _ = if q₂.vdevAt 0x2c = some .uart then some (f.accept q₂.uartIntr.ubrr) else _
      rw [if_pos hat₂, hubrr₂]
    · rintro - g ⟨rfl⟩
      exact hwaiting
    · rintro (h | h) <;> contradiction
  refine ⟨_, _, q₃, .cons hfirst (.cons hsecond (.cons hthird (.nil _))), rfl, ?_⟩
  intro h
  have heq : q₃.uart.tcnt.toNat = f.left := h.tcnt
  rw [htcnt, hleft] at heq
  contradiction

/-- The transmitter and the UART after a tick; none where the simulator aborts -/
def transmitTick (e : IoEvent) (s : Transmitter × Peripherals) :
    Option (Transmitter × Peripherals) :=
  if e.isTick then (e.next s.2).map fun q => (s.1.next s.2 e, q) else none

theorem TransmitStep.of_tick
    (e : IoEvent) (s t : Transmitter × Peripherals) (h : transmitTick e s = some t) :
  TransmitStep e s t
  := by
  rw [transmitTick] at h
  split at h
  · next htick =>
    obtain ⟨q, hq, rfl⟩ := Option.map_eq_some_iff.mp h
    cases e with
    | tick ck =>
      constructor
      · exact .of_next _ _ _ hq
      · rfl
      · nofun
      · rintro (h | h) <;> contradiction
    | _ => contradiction
  · contradiction

/-- The ticks that end the first bits of a frame, at 16 clocks a bit -/
def bitEnds (n : Nat) : List IoEvent :=
  (List.range n).map fun i => .tick (16 * (i + 1))

/-- A byte is written, and its frame is shifted out: the tenth tick ends it, and sets TXC. -/
theorem uart_transmits_frame :
  ∃ taken t q r, Path TransmitStep (none, uartTransmitter) taken (t, q)
    ∧ taken.map Prod.snd = .write 0x2c 0x55 :: bitEnds 9
    ∧ TransmitStep (.tick 160) (t, q) (none, r) ∧ Transmits none r
    ∧ r.uartIntr.usr &&& maskTXC ≠ 0
  := by
  have hregs : ((IoEvent.next (.write 0x2c 0x55) uartTransmitter).bind fun p =>
      (exec transmitTick (fun _ _ => true) (bitEnds 9) (some (.start 0 0), p)).bind fun s =>
        (transmitTick (.tick 160) s).map fun t =>
          (decide (∃ f ∈ s.1, f.left = 1 ∧ f.waiting = false ∧ f.endsBit (.tick 160) = true),
            t.1.isNone))
        = some (true, true) := by
    decide +kernel
  obtain ⟨p, hp, hregs⟩ := Option.bind_eq_some_iff.mp hregs
  obtain ⟨⟨t, q⟩, hq, hregs⟩ := Option.bind_eq_some_iff.mp hregs
  obtain ⟨⟨t', r⟩, hr, hregs⟩ := Option.map_eq_some_iff.mp hregs
  obtain ⟨hends, hnone⟩ := Prod.mk.inj hregs
  obtain rfl := Option.isNone_iff_eq_none.mp hnone
  have hstart := transmitStep_first hp
  have hlast := TransmitStep.of_tick _ _ _ hr
  obtain ⟨taken, hpath, hevents, -⟩ := exec_path_events TransmitStep.of_tick hq
  have hpath := Path.cons hstart hpath
  have hfits : ∀ x ∈ ((none, uartTransmitter), .write 0x2c 0x55) :: taken,
      TransmitFits x.1 x.2 := by
    rw [List.forall_mem_cons]
    use fun _ => ⟨by decide, rfl⟩
    rintro ⟨s, e⟩ hx
    have hmem : e ∈ bitEnds 9 := by
      rw [← hevents]
      exact List.mem_map_of_mem hx
    obtain ⟨i, -, rfl⟩ := List.mem_map.mp hmem
    trivial
  have hlastFits : ∀ x ∈ ((none, uartTransmitter), .write 0x2c 0x55) :: taken
      ++ [((t, q), .tick 160)], TransmitFits x.1 x.2 := by
    rw [List.forall_mem_append, List.forall_mem_singleton]
    exact ⟨hfits, trivial⟩
  refine ⟨_, t, q, r, hpath, congrArg _ hevents, hlast, ?_, ?_⟩
  · exact ((uart_transmits uartTransmitter_new (hpath.append (.single hlast))).1.mpr hlastFits).2
  · have hset := ((uart_transmits uartTransmitter_new hpath).2 hfits).2.1 _ _ hlast
    apply hset.1
    apply of_decide_eq_true hends

end SimulAvr
