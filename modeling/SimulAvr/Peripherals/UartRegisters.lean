import SimulAvr.Lib.BitMask
import SimulAvr.Peripherals.Dispatch

/-!
# The registers of the UART

The method that writes the registers of the UART compares the address with the value of the
status register, not with its address: a write to USR aborts unless the two are equal, and a
write to UCR is taken for one to USR if UCR is there.  UBRR is read as the pair that was written
last.
-/

namespace SimulAvr

open Program CallbackList Transition

/-! ### The method that writes -/

/-- The addresses of the registers -/
def UARTIntr.addrs (uart : UARTIntr) : List Int :=
  [uart.ubrrlAddr, uart.ubrrhAddr, uart.usrAddr, uart.ucrAddr]

/-- What the device is attached to are its registers, at different addresses. -/
structure UartAttached (p : Peripherals) : Prop where
  attached : ∀ addr, p.vdevAt addr = some .uartIntr → addr ∈ p.uartIntr.addrs
  nodup : p.uartIntr.addrs.Nodup

/-- USR after a write -/
def clearTXC (usr val : Byte) : Byte :=
  if val &&& maskTXC ≠ 0 then usr &&& ~~~maskTXC else usr

section

variable {addr : Int} {p : Peripherals} (val : Byte)

theorem uartIntrWrite_ubrrl
    (h : addr = p.uartIntr.ubrrlAddr) :
  (uartIntrWrite addr val).run p
    = .ok ((), { p with uartIntr := { p.uartIntr with ubrr := p.uartIntr.ubrrTemp ++ val } })
  := by
  rw [uartIntrWrite, run_bind_of_ok rfl, if_pos h]
  rfl

theorem uartIntrWrite_ubrrh
    (hl : addr ≠ p.uartIntr.ubrrlAddr) (h : addr = p.uartIntr.ubrrhAddr) :
  (uartIntrWrite addr val).run p
    = .ok ((), { p with uartIntr := { p.uartIntr with ubrrTemp := val } })
  := by
  rw [uartIntrWrite, run_bind_of_ok rfl, if_neg hl, if_pos h]
  rfl

/-- The address is the value of USR. -/
theorem uartIntrWrite_usr
    (hl : addr ≠ p.uartIntr.ubrrlAddr) (hh : addr ≠ p.uartIntr.ubrrhAddr)
    (h : addr = p.uartIntr.usr.toNat) :
  (uartIntrWrite addr val).run p
    = .ok ((), { p with uartIntr := { p.uartIntr with usr := clearTXC p.uartIntr.usr val } })
  := by
  rw [uartIntrWrite, run_bind_of_ok rfl, if_neg hl, if_neg hh, if_pos h, clearTXC, devIf]
  split
  · rfl
  · rfl

theorem uartIntrWrite_ucr
    (hl : addr ≠ p.uartIntr.ubrrlAddr) (hh : addr ≠ p.uartIntr.ubrrhAddr)
    (hs : addr ≠ p.uartIntr.usr.toNat) (h : addr = p.uartIntr.ucrAddr) :
  ∃ cbs, (uartIntrWrite addr val).run p
    = .ok ((), { p with uartIntr := { p.uartIntr with ucr := val }, cbs := cbs })
  := by
  rw [uartIntrWrite, run_bind_of_ok rfl, if_neg hl, if_neg hh, if_neg hs, if_pos h,
    run_bind_of_ok rfl]
  split
  · use p.cbs.ensure .uartIntrCb
    rfl
  · use p.cbs.withdraw .uartIntrCb
    rfl

theorem uartIntrWrite_bad
    (hl : addr ≠ p.uartIntr.ubrrlAddr) (hh : addr ≠ p.uartIntr.ubrrhAddr)
    (hs : addr ≠ p.uartIntr.usr.toNat) (hc : addr ≠ p.uartIntr.ucrAddr) :
  (uartIntrWrite addr val).run p
    = .error { fmt := "Bad address: 0x%04x", args := [addr] }
  := by
  rw [uartIntrWrite, run_bind_of_ok rfl, if_neg hl, if_neg hh, if_neg hs, if_neg hc]
  rfl

end

/-- A read of an attached register returns a value. -/
theorem uartIntrRead_ok
    {addr : Int} {p : Peripherals} (h : addr ∈ p.uartIntr.addrs) :
  ∃ val, (uartIntrRead addr).run p = .ok (val, p)
  := by
  simp only [UARTIntr.addrs, List.mem_cons, List.not_mem_nil, or_false] at h
  rw [uartIntrRead, run_bind_of_ok rfl]
  split_ifs with hl hh hc hs
  · use p.uartIntr.ubrr.extractLsb' 0 8
    rfl
  · use p.uartIntr.ubrr.extractLsb' 8 8
    rfl
  · use p.uartIntr.ucr
    rfl
  · use p.uartIntr.usr
    rfl
  · rcases h with h | h | h | h
    · contradiction
    · contradiction
    · contradiction
    · contradiction

/-! ### The law of the status register -/

namespace IoEvent

/-- The event is an access to a register of a device. -/
def accesses (d : IoVDev) (p : Peripherals) : IoEvent → Prop
  | read addr => p.vdevAt addr = some d
  | write addr _ => p.vdevAt addr = some d
  | _ => False

/-- The access aborts with 'Bad address'. -/
def BadAddress (p : Peripherals) : IoEvent → Prop
  | read addr => ∃ args, (devRead addr).run p = .error { fmt := "Bad address: 0x%04x", args := args }
  | write addr val =>
    ∃ args, (devWrite addr val).run p = .error { fmt := "Bad address: 0x%04x", args := args }
  | _ => False

end IoEvent

/-- An access to a register of the UART does not abort; a write to USR clears TXC if it is one in
the value, and changes nothing else; a write to another register does not change USR. -/
structure UsrLaw (p : Peripherals) (e : IoEvent) : Prop where
  noAbort (h : e.accesses .uartIntr p) : ¬ e.BadAddress p
  usr {val : Byte} {q : Peripherals} (he : e = .write p.uartIntr.usrAddr val)
    (h : e.accesses .uartIntr p) (hstep : IoStep e p q) :
    q = { p with
      uartIntr := { p.uartIntr with usr := clearTXC p.uartIntr.usr val }
      history := p.history ++ [.write p.uartIntr.usrAddr val] }
  others {addr : Int} {val : Byte} {q : Peripherals} (he : e = .write addr val)
    (h : e.accesses .uartIntr p) (haddr : addr ≠ p.uartIntr.usrAddr) (hstep : IoStep e p q) :
    q.uartIntr.usr = p.uartIntr.usr

/-- The comparison with the value of USR does no harm: a write to USR is at that address, and a
write to UCR is not, or there is no TXC to clear. -/
def UsrFits (p : Peripherals) : IoEvent → Prop
  | .write addr val =>
    p.vdevAt addr = some .uartIntr →
      (addr = p.uartIntr.usrAddr → addr = p.uartIntr.usr.toNat) ∧
      (addr = p.uartIntr.ucrAddr → addr = p.uartIntr.usr.toNat →
        val &&& maskTXC = 0 ∨ p.uartIntr.usr &&& maskTXC = 0)
  | _ => True

/-- A write to USR leaves it if there is no TXC to clear. -/
theorem clearTXC_eq_iff
    (usr val : Byte) :
  clearTXC usr val = usr ↔ val &&& maskTXC = 0 ∨ usr &&& maskTXC = 0
  := by
  rw [clearTXC]
  split
  · next hval =>
    rw [BitMask.and_not_eq_self_iff, or_iff_right hval]
  · next hval =>
    exact iff_of_true rfl (.inl (not_not.mp hval))

section

variable {p : Peripherals} {e : IoEvent}

/-- A read does what the law says. -/
theorem UsrLaw.read
    (hp : UartAttached p) (addr : Int) :
  UsrLaw p (.read addr)
  := by
  constructor
  · rintro (hat : p.vdevAt addr = some .uartIntr) ⟨args, hrun⟩
    obtain ⟨val, hok⟩ := uartIntrRead_ok
      (p := { p with history := p.history ++ [.read addr] }) (hp.attached addr hat)
    rw [devRead_at hat, IoVDev.read, hok] at hrun
    contradiction
  · rintro _ _ ⟨⟩
  · rintro _ _ _ ⟨⟩

/-- A write to a register is one to the register at its address. -/
theorem UartAttached.ne
    (hp : UartAttached p) :
  p.uartIntr.ubrrhAddr ≠ p.uartIntr.ubrrlAddr ∧ p.uartIntr.usrAddr ≠ p.uartIntr.ubrrlAddr ∧
    p.uartIntr.usrAddr ≠ p.uartIntr.ubrrhAddr ∧ p.uartIntr.ucrAddr ≠ p.uartIntr.ubrrlAddr ∧
    p.uartIntr.ucrAddr ≠ p.uartIntr.ubrrhAddr ∧ p.uartIntr.ucrAddr ≠ p.uartIntr.usrAddr
  := by
  have hnodup := hp.nodup
  simp only [UARTIntr.addrs, List.nodup_cons, List.mem_cons, List.not_mem_nil, or_false,
    not_or] at hnodup
  obtain ⟨⟨hlh, hls, hlc⟩, ⟨hhs, hhc⟩, hsc, -⟩ := hnodup
  use Ne.symm hlh, Ne.symm hls, Ne.symm hhs, Ne.symm hlc, Ne.symm hhc, Ne.symm hsc

/-- The run of a write to a register of the UART -/
theorem IoStep.uartIntr_write
    {addr : Int} {val : Byte} {q : Peripherals} (hat : p.vdevAt addr = some .uartIntr)
    (hstep : IoStep (.write addr val) p q) :
  (uartIntrWrite addr val).run { p with history := p.history ++ [.write addr val] }
    = .ok ((), q)
  := by
  cases hstep with
  | write h =>
    rw [devWrite_at hat] at h
    apply h

/-- A write to UBRRL or UBRRH does what the law says. -/
theorem UsrLaw.write_ubrr
    (hp : UartAttached p) {addr : Int} (hat : p.vdevAt addr = some .uartIntr)
    (haddr : addr = p.uartIntr.ubrrlAddr ∨ addr = p.uartIntr.ubrrhAddr) (val : Byte) :
  UsrLaw p (.write addr val)
  := by
  obtain ⟨hhl, hsl, hsh, -⟩ := hp.ne
  have hrun : ∃ ubrr temp, (uartIntrWrite addr val).run
      { p with history := p.history ++ [.write addr val] } = .ok ((), { p with
        uartIntr := { p.uartIntr with ubrr := ubrr, ubrrTemp := temp }
        history := p.history ++ [.write addr val] }) := by
    rcases haddr with rfl | rfl
    · use p.uartIntr.ubrrTemp ++ val, p.uartIntr.ubrrTemp
      exact uartIntrWrite_ubrrl val rfl
    · use p.uartIntr.ubrr, val
      exact uartIntrWrite_ubrrh val hhl rfl
  obtain ⟨ubrr, temp, hrun⟩ := hrun
  constructor
  · rintro - ⟨args, hbad⟩
    rw [devWrite_at hat, IoVDev.write, hrun] at hbad
    contradiction
  · rintro _ q ⟨⟩
    rcases haddr with haddr | haddr
    · contradiction
    · contradiction
  · rintro _ _ q ⟨⟩ - - hstep
    rw [hstep.uartIntr_write hat] at hrun
    cases hrun
    rfl

/-- A write to USR does what the law says exactly if it is at the address that is the value of
USR. -/
theorem usrLaw_write_usr
    (hp : UartAttached p) (hat : p.vdevAt p.uartIntr.usrAddr = some .uartIntr) (val : Byte) :
  UsrLaw p (.write p.uartIntr.usrAddr val) ↔ p.uartIntr.usrAddr = p.uartIntr.usr.toNat
  := by
  obtain ⟨-, hsl, hsh, -, -, hcs⟩ := hp.ne
  constructor
  · intro h
    by_contra hne
    apply h.noAbort hat
    use [p.uartIntr.usrAddr]
    rw [devWrite_at hat]
    exact uartIntrWrite_bad val hsl hsh hne hcs.symm
  · intro heq
    have hrun := uartIntrWrite_usr
      (p := { p with history := p.history ++ [.write p.uartIntr.usrAddr val] }) val hsl hsh heq
    constructor
    · rintro - ⟨args, hbad⟩
      rw [devWrite_at hat, IoVDev.write, hrun] at hbad
      contradiction
    · rintro _ q ⟨⟩ - hstep
      rw [hstep.uartIntr_write hat] at hrun
      cases hrun
      rfl
    · rintro _ _ q ⟨⟩ - haddr
      contradiction

/-- A write to UCR does what the law says exactly if it is not taken for one to USR, or if there
is no TXC to clear. -/
theorem usrLaw_write_ucr
    (hp : UartAttached p) (hat : p.vdevAt p.uartIntr.ucrAddr = some .uartIntr) (val : Byte) :
  UsrLaw p (.write p.uartIntr.ucrAddr val) ↔
    (p.uartIntr.ucrAddr = p.uartIntr.usr.toNat →
      val &&& maskTXC = 0 ∨ p.uartIntr.usr &&& maskTXC = 0)
  := by
  obtain ⟨-, -, -, hcl, hch, hcs⟩ := hp.ne
  rcases eq_or_ne p.uartIntr.ucrAddr p.uartIntr.usr.toNat with heq | hne
  · have hrun := uartIntrWrite_usr
      (p := { p with history := p.history ++ [.write p.uartIntr.ucrAddr val] }) val hcl hch heq
    rw [← clearTXC_eq_iff, forall_prop_of_true heq]
    constructor
    · intro h
      have hstep := IoStep.write ((devWrite_at hat val).trans hrun)
      exact h.others rfl hat hcs hstep
    · intro hclear
      constructor
      · rintro - ⟨args, hbad⟩
        rw [devWrite_at hat, IoVDev.write, hrun] at hbad
        contradiction
      · rintro _ q heq'
        exact absurd (IoEvent.write.inj heq').1 hcs
      · rintro _ _ q ⟨⟩ - - hstep
        rw [hstep.uartIntr_write hat] at hrun
        cases hrun
        exact hclear
  · obtain ⟨cbs, hrun⟩ := uartIntrWrite_ucr
      (p := { p with history := p.history ++ [.write p.uartIntr.ucrAddr val] }) val hcl hch hne rfl
    apply iff_of_true _ fun heq => absurd heq hne
    constructor
    · rintro - ⟨args, hbad⟩
      rw [devWrite_at hat, IoVDev.write, hrun] at hbad
      contradiction
    · rintro _ q heq'
      exact absurd (IoEvent.write.inj heq').1 hcs
    · rintro _ _ q ⟨⟩ - - hstep
      rw [hstep.uartIntr_write hat] at hrun
      cases hrun
      rfl

/-- An event does what the law says exactly if the comparison with the value of USR does no
harm. -/
theorem usrLaw_iff
    (hp : UartAttached p) (e : IoEvent) :
  UsrLaw p e ↔ UsrFits p e
  := by
  cases e with
  | read addr => exact iff_of_true (.read hp addr) trivial
  | write addr val =>
    obtain ⟨-, hsl, hsh, hcl, hch, hcs⟩ := hp.ne
    by_cases hat : p.vdevAt addr = some .uartIntr
    · rw [UsrFits, forall_prop_of_true hat]
      have haddr := hp.attached addr hat
      simp only [UARTIntr.addrs, List.mem_cons, List.not_mem_nil, or_false] at haddr
      rcases haddr with rfl | rfl | rfl | rfl
      · apply iff_of_true (.write_ubrr hp hat (.inl rfl) val)
        use fun heq => absurd heq.symm hsl, fun heq => absurd heq.symm hcl
      · apply iff_of_true (.write_ubrr hp hat (.inr rfl) val)
        use fun heq => absurd heq.symm hsh, fun heq => absurd heq.symm hch
      · rw [usrLaw_write_usr hp hat val]
        constructor
        · intro h
          use fun _ => h, fun heq => absurd heq.symm hcs
        · intro h
          apply h.1 rfl
      · rw [usrLaw_write_ucr hp hat val]
        constructor
        · intro h
          use fun heq => absurd heq hcs, fun _ => h
        · intro h
          apply h.2 rfl
    · apply iff_of_true _ fun h => absurd h hat
      constructor
      · exact fun h => absurd h hat
      · rintro _ _ ⟨⟩ h
        exact absurd h hat
      · rintro _ _ _ ⟨⟩ h
        exact absurd h hat
  | reset addr =>
    apply iff_of_true _ trivial
    exact ⟨nofun, nofun, nofun⟩
  | tick ck =>
    apply iff_of_true _ trivial
    exact ⟨nofun, nofun, nofun⟩
  | async =>
    apply iff_of_true _ trivial
    exact ⟨nofun, nofun, nofun⟩

end

/-! ### The baud rate register -/

/-- The addresses and the baud rate, which only a write to UBRRL or UBRRH changes -/
def UARTIntr.baud (uart : UARTIntr) : (Int × Int × Int × Int) × Word × Byte :=
  ((uart.ubrrlAddr, uart.ubrrhAddr, uart.usrAddr, uart.ucrAddr), uart.ubrr, uart.ubrrTemp)

/-- The baud rate of the peripherals -/
def uartBaud (p : Peripherals) : (Int × Int × Int × Int) × Word × Byte :=
  p.uartIntr.baud

theorem uartBaud_of_touches
    {S : List IoVDev} (hS : .uartIntr ∉ S) {α : Type} {x : DevM α} (hx : Touches S x) :
  Leaves uartBaud x
  := by
  apply Leaves.of_touches hx
  intro f p hf
  have hregs : (f p).uartIntr = p.uartIntr := hf.regs_eq hS p
  rw [uartBaud, hregs, uartBaud]

/-- A change of the status and control registers leaves the baud rate. -/
theorem uartBaud_setUARTIntr
    {f : UARTIntr → UARTIntr} (hf : ∀ uart, (f uart).baud = uart.baud) :
  Leaves uartBaud (setUARTIntr f)
  := .set fun p => hf p.uartIntr

theorem uartRead_baud
    (addr : Int) :
  Leaves uartBaud (uartRead addr)
  := by
  have hset (f : UART → UART) : Leaves uartBaud (setUART f) := .set fun _ => rfl
  refine .get fun _ => .get fun _ => .ite (.bind ?_ fun _ => .bind ?_ fun _ =>
    .get fun _ => .pure _) (.error _ _)
  · exact uartBaud_setUARTIntr fun _ => rfl
  · refine .devIf (.bind (.bind (.world fun _ _ => rfl) fun _ => .pure _) fun _ =>
      .bind (hset _) fun _ => ?_)
    apply uartBaud_setUARTIntr
    intro uart
    split
    · rfl
    · rfl

theorem uartWrite_baud
    (addr : Int) (val : Byte) :
  Leaves uartBaud (uartWrite addr val)
  := by
  have hset (f : UART → UART) : Leaves uartBaud (setUART f) := .set fun _ => rfl
  have hcbs (f : CallBacks → CallBacks) : Leaves uartBaud (setCbs f) := .set fun _ => rfl
  refine .get fun _ => .ite (.bind ?_ fun _ => .get fun _ => .bind (hset _) fun _ =>
    .bind (hcbs _) fun _ => hset _) (.error _ _)
  apply uartBaud_setUARTIntr
  intro uart
  split
  · rfl
  · rfl

theorem uartIntrCb_baud :
  Leaves uartBaud uartIntrCb
  := by
  refine .get fun _ => .get fun _ => .ite (.pure _) (.bind ?_ fun _ => .pure _)
  exact uartBaud_setUARTIntr fun _ => rfl

theorem uartClkIncrCb_baud
    (ck : Nat) :
  Leaves uartBaud (uartClkIncrCb ck)
  := by
  have hset (f : UART → UART) : Leaves uartBaud (setUART f) := .set fun _ => rfl
  have hcbs (f : CallBacks → CallBacks) : Leaves uartBaud (setCbs f) := .set fun _ => rfl
  refine .get fun _ => .get fun _ => .get fun _ => .ite (.pure _) (.ite (.error _ _)
    (.bind (hset _) fun _ => .ite (.ite (.bind ?_ fun _ => .bind (hcbs _) fun _ => .pure _)
      (.bind ?_ fun _ => .bind (hset _) fun _ => .pure _)) (.pure _)))
  · exact uartBaud_setUARTIntr fun _ => rfl
  · exact uartBaud_setUARTIntr fun _ => rfl

theorem callback_baud
    (time : Nat) (f : CallBackFP) :
  Leaves uartBaud (callbackExecute time f)
  := by
  have hexecute {x : DevM (CbRet × List DevEvent)} (hf : f.func time = x) (hx : Leaves uartBaud x) :
      Leaves uartBaud (callbackExecute time f) := by
    rw [callbackExecute, hf]
    apply Leaves.bind hx fun _ => Leaves.pure _
  have htouches := callbackExecute_touches time f
  cases f with
  | uartIntrCb => exact hexecute rfl uartIntrCb_baud
  | uartClkIncrCb =>
    exact hexecute rfl (Leaves.bind (uartClkIncrCb_baud time) fun _ => Leaves.pure _)
  | _ => exact uartBaud_of_touches (by simp [CallBackFP.reach, CallBackFP.owner]) htouches

/-- A step that neither writes to the registers of the UART nor resets them leaves the baud
rate. -/
theorem IoStep.uartBaud_eq
    {e : IoEvent} {p q : Peripherals} (hstep : IoStep e p q)
    (hwrite : e.writesTo .uartIntr p = false) (hreset : e.resets .uartIntr p = false) :
  uartBaud q = uartBaud p
  := by
  apply hstep.leaves
  · exact fun _ _ _ => rfl
  · exact fun _ _ => rfl
  · intro addr d _ _
    have htouches := d.read_touches addr
    cases d with
    | uart => apply uartRead_baud
    | _ => exact uartBaud_of_touches (by simp [IoVDev.readReach]) htouches
  · rintro addr val d rfl hat
    have hne : p.vdevAt addr ≠ some .uartIntr := of_decide_eq_false hwrite
    have htouches := d.write_touches addr val
    cases d with
    | uart => apply uartWrite_baud
    | uartIntr => contradiction
    | _ => exact uartBaud_of_touches (by simp [IoVDev.reach]) htouches
  · rintro addr d rfl hat p'
    have hne : p.vdevAt addr ≠ some .uartIntr := of_decide_eq_false hreset
    have hregs := d.reset_change.regs_eq (d := .uartIntr)
    cases d with
    | uart => rfl
    | uartIntr => contradiction
    | _ => exact congrArg UARTIntr.baud (hregs (by simp [IoVDev.reach]) p')
  · exact callback_baud

/-- A write to the registers of the UART changes of the baud rate what it is at the address
of. -/
theorem uartIntrWrite_baud
    {addr : Int} {val : Byte} {p q : Peripherals}
    (hrun : (uartIntrWrite addr val).run p = .ok ((), q)) :
  uartBaud q =
    if addr = p.uartIntr.ubrrlAddr then
      ((uartBaud p).1, p.uartIntr.ubrrTemp ++ val, p.uartIntr.ubrrTemp)
    else if addr = p.uartIntr.ubrrhAddr then ((uartBaud p).1, p.uartIntr.ubrr, val)
    else uartBaud p
  := by
  split_ifs with hl hh
  · rw [uartIntrWrite_ubrrl val hl] at hrun
    cases hrun
    rfl
  · rw [uartIntrWrite_ubrrh val hl hh] at hrun
    cases hrun
    rfl
  · rcases eq_or_ne addr p.uartIntr.usr.toNat with hs | hs
    · rw [uartIntrWrite_usr val hl hh hs] at hrun
      cases hrun
      rfl
    · rcases eq_or_ne addr p.uartIntr.ucrAddr with hc | hc
      · obtain ⟨cbs, hucr⟩ := uartIntrWrite_ucr val hl hh hs hc
        rw [hucr] at hrun
        cases hrun
        rfl
      · rw [uartIntrWrite_bad val hl hh hs hc] at hrun
        contradiction

/-- What a step other than a reset does to the baud rate -/
theorem IoStep.uartBaud_step
    {e : IoEvent} {p q : Peripherals} (hstep : IoStep e p q)
    (hreset : e.resets .uartIntr p = false) :
  (uartBaud q).1 = (uartBaud p).1 ∧
    ((∀ val, e ≠ .write p.uartIntr.ubrrhAddr val) → q.uartIntr.ubrrTemp = p.uartIntr.ubrrTemp) ∧
    ((∀ val, e ≠ .write p.uartIntr.ubrrlAddr val) → q.uartIntr.ubrr = p.uartIntr.ubrr)
  := by
  have hsame (h : uartBaud q = uartBaud p) :
      (uartBaud q).1 = (uartBaud p).1 ∧ q.uartIntr.ubrrTemp = p.uartIntr.ubrrTemp ∧
        q.uartIntr.ubrr = p.uartIntr.ubrr :=
    ⟨congrArg (·.1) h, congrArg (·.2.2) h, congrArg (·.2.1) h⟩
  cases hwrite : e.writesTo .uartIntr p with
  | false =>
    obtain ⟨haddrs, htemp, hubrr⟩ := hsame (hstep.uartBaud_eq hwrite hreset)
    use haddrs, fun _ => htemp, fun _ => hubrr
  | true =>
    cases e with
    | write addr val =>
      have hbaud := uartIntrWrite_baud (hstep.uartIntr_write (of_decide_eq_true hwrite))
      split at hbaud
      · next hl =>
        use congrArg (·.1) hbaud, fun _ => congrArg (·.2.2) hbaud
        intro h
        exact absurd (congrArg (IoEvent.write · val) hl) (h val)
      · split at hbaud
        · next hh =>
          use congrArg (·.1) hbaud
          use fun h => absurd (congrArg (IoEvent.write · val) hh) (h val)
          intro _
          exact congrArg (·.2.1) hbaud
        · obtain ⟨haddrs, htemp, hubrr⟩ := hsame hbaud
          use haddrs, fun _ => htemp, fun _ => hubrr
    | _ => contradiction

/-- A path without a reset of the UART -/
theorem uartBaud_path
    {p q : Peripherals} {taken : List (Peripherals × IoEvent)} (hpath : Path IoStep p taken q)
    (hreset : ∀ x ∈ taken, x.2.resets .uartIntr x.1 = false) :
  (uartBaud q).1 = (uartBaud p).1 ∧
    ((∀ x ∈ taken, ∀ val, x.2 ≠ .write p.uartIntr.ubrrhAddr val) →
      q.uartIntr.ubrrTemp = p.uartIntr.ubrrTemp) ∧
    ((∀ x ∈ taken, ∀ val, x.2 ≠ .write p.uartIntr.ubrrlAddr val) →
      q.uartIntr.ubrr = p.uartIntr.ubrr)
  := by
  induction hpath with
  | nil =>
    use rfl, fun _ => rfl
    intro _
    rfl
  | @cons p r q e taken hst _ ih =>
    rw [List.forall_mem_cons] at hreset
    obtain ⟨haddrs, htemp, hubrr⟩ := hst.uartBaud_step hreset.1
    obtain ⟨haddrs', htemp', hubrr'⟩ := ih hreset.2
    have hl : r.uartIntr.ubrrlAddr = p.uartIntr.ubrrlAddr := congrArg (·.1) haddrs
    have hh : r.uartIntr.ubrrhAddr = p.uartIntr.ubrrhAddr := congrArg (·.2.1) haddrs
    rw [hh] at htemp'
    rw [hl] at hubrr'
    rw [List.forall_mem_cons, List.forall_mem_cons]
    use haddrs'.trans haddrs
    use fun h => (htemp' h.2).trans (htemp h.1)
    intro h
    exact (hubrr' h.2).trans (hubrr h.1)

/-! ### Runs -/

/-- The pair of UBRRH and UBRRL that was written last, the high byte first -/
def LastPair (uart : UARTIntr) (taken : List (Peripherals × IoEvent)) (high low : Byte) : Prop :=
  ∃ before mid after s s',
    taken = before ++ (s, .write uart.ubrrhAddr high) :: (mid ++
      (s', .write uart.ubrrlAddr low) :: after) ∧
    (∀ x ∈ mid, ∀ val, x.2 ≠ .write uart.ubrrhAddr val) ∧
    ∀ x ∈ after, ∀ val, x.2 ≠ .write uart.ubrrlAddr val

section

variable {p q : Peripherals} {taken : List (Peripherals × IoEvent)}

/-- The devices stay attached where they are. -/
theorem vdevAt_path
    (hpath : Path IoStep p taken q) :
  q.vdevAt = p.vdevAt
  := by
  induction hpath with
  | nil => rfl
  | cons hst _ ih => rw [ih, hst.vdevAt_eq]

theorem UartAttached.path
    (hp : UartAttached p) (hpath : Path IoStep p taken q)
    (hreset : ∀ x ∈ taken, x.2.resets .uartIntr x.1 = false) :
  UartAttached q
  := by
  have haddrs : q.uartIntr.addrs = p.uartIntr.addrs :=
    congrArg (fun a : Int × Int × Int × Int => [a.1, a.2.1, a.2.2.1, a.2.2.2])
      (uartBaud_path hpath hreset).1
  obtain ⟨hattached, hnodup⟩ := hp
  rw [← haddrs] at hattached hnodup
  rw [← vdevAt_path hpath] at hattached
  use hattached

/-- UBRR is the last pair. -/
theorem ubrr_lastPair
    (hp : UartAttached p) (hpath : Path IoStep p taken q)
    (hreset : ∀ x ∈ taken, x.2.resets .uartIntr x.1 = false) {high low : Byte}
    (hh : p.vdevAt p.uartIntr.ubrrhAddr = some .uartIntr)
    (hl : p.vdevAt p.uartIntr.ubrrlAddr = some .uartIntr)
    (hpair : LastPair p.uartIntr taken high low) :
  q.uartIntr.ubrr = high ++ low
  := by
  obtain ⟨before, mid, after, s, s', rfl, hmid, hafter⟩ := hpair
  simp only [List.forall_mem_append, List.forall_mem_cons] at hreset
  obtain ⟨hreset₁, hresets, hreset₂, hresets', hreset₃⟩ := hreset
  obtain ⟨t, hbefore, hwrite, hrest⟩ := hpath.of_append_cons
  obtain ⟨t', hmids, hwrite', hafters⟩ := hrest.of_append_cons
  have haddrs₁ := (uartBaud_path hbefore hreset₁).1
  have haddrs₂ := (hwrite.uartBaud_step hresets).1.trans haddrs₁
  have haddrs₃ := (uartBaud_path hmids hreset₂).1.trans haddrs₂
  have haddrs₄ := (hwrite'.uartBaud_step hresets').1.trans haddrs₃
  have hne : s.uartIntr.ubrrhAddr ≠ s.uartIntr.ubrrlAddr :=
    (hp.path hbefore hreset₁).ne.1
  have hhs : s.uartIntr.ubrrhAddr = p.uartIntr.ubrrhAddr := congrArg (·.2.1) haddrs₁
  have hht : t.uartIntr.ubrrhAddr = p.uartIntr.ubrrhAddr := congrArg (·.2.1) haddrs₂
  have hls' : s'.uartIntr.ubrrlAddr = p.uartIntr.ubrrlAddr := congrArg (·.1) haddrs₃
  have hlt' : t'.uartIntr.ubrrlAddr = p.uartIntr.ubrrlAddr := congrArg (·.1) haddrs₄
  have htemp : t.uartIntr.ubrrTemp = high := by
    rw [← vdevAt_path hbefore] at hh
    have hbaud := uartIntrWrite_baud (hwrite.uartIntr_write hh)
    rw [← hhs, if_neg hne, if_pos rfl] at hbaud
    exact congrArg (·.2.2) hbaud
  have htemp' : s'.uartIntr.ubrrTemp = high := by
    rw [← hht] at hmid
    rw [(uartBaud_path hmids hreset₂).2.1 hmid, htemp]
  have hubrr : t'.uartIntr.ubrr = high ++ low := by
    rw [← vdevAt_path hbefore, ← hwrite.vdevAt_eq, ← vdevAt_path hmids] at hl
    have hbaud := uartIntrWrite_baud (hwrite'.uartIntr_write hl)
    rw [if_pos hls'.symm, htemp'] at hbaud
    exact congrArg (·.2.1) hbaud
  rw [← hlt'] at hafter
  rw [(uartBaud_path hafters hreset₃).2.2 hafter, hubrr]

/-- The access to every register is right exactly if the comparison with the value of USR does no
harm, and UBRR reads back the pair that was written last. -/
theorem uart_registers
    (hp : UartAttached p) (hpath : Path IoStep p taken q)
    (hreset : ∀ x ∈ taken, x.2.resets .uartIntr x.1 = false) :
  (∀ e, ((∀ x ∈ taken, UsrLaw x.1 x.2) ∧ UsrLaw q e) ↔
      (∀ x ∈ taken, UsrFits x.1 x.2) ∧ UsrFits q e) ∧
    ∀ high low, p.vdevAt p.uartIntr.ubrrhAddr = some .uartIntr →
      p.vdevAt p.uartIntr.ubrrlAddr = some .uartIntr → LastPair p.uartIntr taken high low →
      (∃ r, (devRead p.uartIntr.ubrrlAddr).run q = .ok (low, r)) ∧
        ∃ r, (devRead p.uartIntr.ubrrhAddr).run q = .ok (high, r)
  := by
  have haddrs := (uartBaud_path hpath hreset).1
  have hl : q.uartIntr.ubrrlAddr = p.uartIntr.ubrrlAddr := congrArg (·.1) haddrs
  have hh : q.uartIntr.ubrrhAddr = p.uartIntr.ubrrhAddr := congrArg (·.2.1) haddrs
  have hne : q.uartIntr.ubrrhAddr ≠ q.uartIntr.ubrrlAddr := (hp.path hpath hreset).ne.1
  constructor
  · intro e
    rw [usrLaw_iff (hp.path hpath hreset)]
    apply and_congr_left'
    apply forall₂_congr
    intro x hx
    obtain ⟨before, after, rfl⟩ := List.append_of_mem hx
    obtain ⟨t, hbefore, -, -⟩ := hpath.of_append_cons
    rw [List.forall_mem_append] at hreset
    apply usrLaw_iff (hp.path hbefore hreset.1)
  · intro high low hath hatl hpair
    have hubrr := ubrr_lastPair hp hpath hreset hath hatl hpair
    rw [← vdevAt_path hpath] at hath hatl
    constructor
    · rw [devRead_at hatl, ← hl]
      use { q with history := q.history ++ [.read q.uartIntr.ubrrlAddr] }
      change (uartIntrRead _).run _ = _
      rw [uartIntrRead, run_bind_of_ok rfl, if_pos rfl]
      change Except.ok (q.uartIntr.ubrr.extractLsb' 0 8, _) = _
      rw [hubrr, BitVec.extractLsb'_append_eq_right]
    · rw [devRead_at hath, ← hh]
      use { q with history := q.history ++ [.read q.uartIntr.ubrrhAddr] }
      change (uartIntrRead _).run _ = _
      rw [uartIntrRead, run_bind_of_ok rfl, if_neg hne, if_pos rfl]
      change Except.ok (q.uartIntr.ubrr.extractLsb' 8 8, _) = _
      rw [hubrr, BitVec.extractLsb'_append_eq_left]

end

/-- The UART of the at43usb320, which has no UBRRH -/
def uartPeripherals : Peripherals :=
  { (default : Peripherals) with
    vdevAt := fun addr => if addr ∈ [0x29, 0x2a, 0x2b] then some .uartIntr else none
    uartIntr := { (default : UARTIntr) with
      ubrrlAddr := 0x29
      ucrAddr := 0x2a
      usrAddr := 0x2b } }

/-- After a reset, a write to USR aborts. -/
theorem uart_registers_usr :
  (IoEvent.write 0x2b 0x40).BadAddress uartPeripherals ∧
    ¬ UsrLaw uartPeripherals (.write 0x2b 0x40)
  := by
  have hbad : (IoEvent.write 0x2b 0x40).BadAddress uartPeripherals := by
    use [0x2b]
    have hat : uartPeripherals.vdevAt 0x2b = some .uartIntr := rfl
    rw [devWrite_at hat]
    apply uartIntrWrite_bad
    · decide
    · decide
    · decide
    · decide
  use hbad
  intro h
  exact h.noAbort rfl hbad

/-- A UART with UBRRH -/
def uartPeripherals16 : Peripherals :=
  { uartPeripherals with
    vdevAt := fun addr => if addr ∈ [0x28, 0x29, 0x2a, 0x2b] then some .uartIntr else none
    uartIntr := { uartPeripherals.uartIntr with ubrrhAddr := 0x28 } }

/-- UBRR is written, with a tick in between. -/
theorem uart_registers_pair :
  ∃ taken q, Path IoStep uartPeripherals16 taken q ∧
    taken.map Prod.snd = [.write 0x28 1, .tick 5, .write 0x29 2] ∧
    (∃ r, (devRead 0x29).run q = .ok (2, r)) ∧ ∃ r, (devRead 0x28).run q = .ok (1, r)
  := by
  obtain ⟨q, hq⟩ := Option.isSome_iff_exists.mp (show (exec IoEvent.next
    (fun p e => !e.resets .uartIntr p) [.write 0x28 1, .tick 5, .write 0x29 2]
    uartPeripherals16).isSome = true by decide +kernel)
  obtain ⟨taken, hpath, hevents, hcheck⟩ := exec_path_events IoStep.of_next hq
  have hattached : UartAttached uartPeripherals16 := by
    constructor
    · intro addr hat
      have hmem : addr ∈ [0x28, 0x29, 0x2a, 0x2b] := by
        by_contra hnot
        exact absurd ((if_neg hnot).symm.trans hat) (by decide)
      rw [UARTIntr.addrs]
      simp only [List.mem_cons] at hmem ⊢
      change _ = 0x29 ∨ _ = 0x28 ∨ _ = 0x2b ∨ _ = 0x2a ∨ _
      tauto
    · decide
  have hpair : LastPair uartPeripherals16.uartIntr taken 1 2 := by
    obtain ⟨⟨s, _⟩, rest₁, rfl, rfl, hrest₁⟩ := List.map_eq_cons_iff.mp hevents
    obtain ⟨⟨t, _⟩, rest₂, rfl, rfl, hrest₂⟩ := List.map_eq_cons_iff.mp hrest₁
    obtain ⟨⟨s', _⟩, rest₃, rfl, rfl, hrest₃⟩ := List.map_eq_cons_iff.mp hrest₂
    obtain rfl := List.map_eq_nil_iff.mp hrest₃
    use [], [(t, .tick 5)], [], s, s', rfl
    constructor
    · intro x hx
      rw [List.mem_singleton.mp hx]
      nofun
    · apply List.forall_mem_nil
  use taken, q, hpath, hevents
  exact (uart_registers hattached hpath fun x hx => (Bool.not_eq_true' _).mp (hcheck x hx)).2 1 2
    rfl rfl hpair

end SimulAvr
