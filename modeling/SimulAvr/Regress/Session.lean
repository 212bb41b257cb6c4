import SimulAvr.GdbKill
import SimulAvr.Regress.Methods

/-!
# Sessions of the client

A session of the client calls methods of the target, one after the other, and chooses the next one
by the answers so far.  On the core alone a method is one step: it answers from the core, and
leaves another one.  The client and the server exchange bytes, in any order of their steps; where
no call asks for what the core does not have, the session ends as it does on the core alone, and
it does so in every order.
-/

namespace SimulAvr

open Program Exchange

/-! ### Calls -/

/-- The calls of methods of the target, by the type of the answer -/
inductive MethodCall : Type → Type
  | readRegs : MethodCall Regs
  | writeRegs (regs : Regs) : MethodCall Unit
  | readReg (reg : Fin 35) : MethodCall Nat
  | writeReg (reg : Fin 35) (val : Nat) : MethodCall Unit
  | readMem (s : Segment) (addr : Int) (len : Nat) : MethodCall (List Byte)
  | writeMem (s : Segment) (addr : Int) (buf : List Byte) : MethodCall Unit
  | breakInsert (type addr len : Nat) : MethodCall Unit
  | breakRemove (type addr len : Nat) : MethodCall Unit
  | step : MethodCall (List Char)
  | cont : MethodCall (List Char)
  | reset : MethodCall Unit

namespace MethodCall

variable {δ : Type} [IoDevices δ] {α : Type}

/-- The program of the client for a call, which reads past `limit` packets of output at most -/
def client (limit : Nat) : MethodCall α → ClientM α
  | readRegs => SimulAvr.readRegs
  | writeRegs regs => SimulAvr.writeRegs regs
  | readReg reg => SimulAvr.readReg reg
  | writeReg reg val => SimulAvr.writeReg reg val
  | readMem s addr len => SimulAvr.readMem (s.offset + addr).toNat len
  | writeMem s addr buf => SimulAvr.writeMem (s.offset + addr).toNat buf.length buf
  | breakInsert type addr len => SimulAvr.breakInsert type addr len
  | breakRemove type addr len => SimulAvr.breakRemove type addr len
  | step => rspStep limit
  | cont => rspCont limit
  | reset => targetReset limit

/-- The core steps up to a breakpoint, at which `gdb_continue` takes the breakpoints out. -/
def RunsTo (c c' : AvrCore (WithEEprom δ)) : Prop :=
  ∃ n c₁ c₂, StepsFor n c c₁ ∧ avrCoreStep.run c₁ = .ok (.breakPoint, c₂)
    ∧ avrCoreDisableBreakpoints.run c₂ = .ok ((), c')

/-- A packet of a breakpoint runs the operation if it is about a software breakpoint. -/
def Breaks (type : Nat) (op : CoreM (WithEEprom δ) Unit) (c c' : AvrCore (WithEEprom δ)) : Prop :=
  if type = 0 then op.run c = .ok ((), c') else c' = c

/-- What a call does to the core alone -/
def Does (c : AvrCore (WithEEprom δ)) :
    MethodCall α → AvrCore (WithEEprom δ) → α → Prop
  | readRegs, c', answer => c' = c ∧ answer = c.regFile.regs
  | writeRegs regs, c', _ => ∃ display, c' = c.withRegFile (RegFile.ofRegs regs) display
  | readReg reg, c', answer => c' = c ∧ answer = c.regFile.regs reg
  | writeReg reg val, c', _ => ∃ display,
      c' = c.withRegFile (c.regFile.set reg (RegFile.ofRegs (oneReg reg val))) display
  | readMem s addr len, c', answer => c' = c ∧ answer = readRange (s.byte c) addr len
  | writeMem s addr buf, c', _ => Wrote s addr buf c c' ∧ OtherMemory c c'
  | breakInsert type addr _, c', _ => Breaks type (avrCoreInsertBreakpoint (addr / 2 : Nat)) c c'
  | breakRemove type addr _, c', _ => Breaks type (avrCoreRemoveBreakpoint (addr / 2 : Nat)) c c'
  | step, c', answer => StepsFor 1 c c' ∧ answer = stopText sigtrap c'
  | cont, c', answer => RunsTo c c' ∧ answer = stopText sigtrap c'
  | reset, c', _ => c' = c.reset

/-- A type, an address and a length of a breakpoint fit into a packet, and a software breakpoint
is at a word of the flash. -/
def BreakAllowed (c : AvrCore (WithEEprom δ)) (type addr len : Nat) : Prop :=
  type < 10 ∧ addr < 2 ^ 31 ∧ len < 2 ^ 31
    ∧ (type = 0 → ((addr / 2 : Nat) : Int) < c.pcMax ∧ c.flash.Valid (addr / 2 : Nat))

/-- A call asks for registers the core has, for values that fit the registers, for bytes inside
of a segment that fit into a packet, for a breakpoint inside of the flash, or for steps that do not
abort. -/
def Allowed (c : AvrCore (WithEEprom δ)) : MethodCall α → Prop
  | readRegs => HasGdbSp c
  | writeRegs regs => HasGdbSp c ∧ regs.Valid ∧ (RegFile.ofRegs regs).pc < c.pcMax
  | readReg _ => HasGdbSp c
  | writeReg reg val => HasGdbSp c ∧ val < 2 ^ (8 * regSize reg)
      ∧ (reg = Reg.PC → val % 2 = 0) ∧ (RegFile.ofRegs (oneReg reg val)).pc < c.pcMax
  | readMem s addr len => 1 ≤ len ∧ 2 * len ≤ 395
      ∧ ∀ x, addr ≤ x → x < addr + len → s.Has c x
  | writeMem s addr buf => 1 ≤ buf.length ∧ 2 * buf.length ≤ 380
      ∧ ∀ x, addr ≤ x → x < addr + buf.length → s.Has c x
  | breakInsert type addr len => BreakAllowed c type addr len
  | breakRemove type addr len => BreakAllowed c type addr len
  | step => ∃ c', StepsFor 1 c c' ∧ HasGdbSp c'
  | cont => ∃ c', RunsTo c c' ∧ HasGdbSp c'
  | reset => True

variable {cellName : Int → Option (List Char)} {c : AvrCore (WithEEprom δ)}

variable (cellName) in
/-- A breakpoint that is allowed is inserted or removed, where the operation returns. -/
theorem performs_breaks
    {z : Char} (hz : z = 'Z' ∨ z = 'z') {type addr len : Nat} (h : BreakAllowed c type addr len)
    {op : CoreM (WithEEprom δ) Unit} {c₁ : AvrCore (WithEEprom δ)}
    (hop : op = if z = 'z' then avrCoreRemoveBreakpoint (addr / 2 : Nat)
      else avrCoreInsertBreakpoint (addr / 2 : Nat))
    (hrun : type = 0 → op.run c = .ok ((), c₁)) :
  ∃ c', Breaks type op c c' ∧ Performs cellName c (breakCommand z type addr len) c' ()
  := by
  obtain ⟨htype, haddr, hlen, hsoftware⟩ := h
  by_cases hzero : type = 0
  · subst hzero
    obtain ⟨hpc, -⟩ := hsoftware rfl
    have hrun := hrun rfl
    refine ⟨c₁, by rwa [Breaks, if_pos rfl], ?_⟩
    rw [hop] at hrun
    exact performs_breakCommand_software hz haddr hlen hpc hrun
  · refine ⟨c, by rw [Breaks, if_neg hzero], ?_⟩
    exact performs_breakCommand_other hz htype hzero haddr hlen

variable (cellName) in
/-- The program of a call that is allowed performs what the call does. -/
theorem performs
    (r : MethodCall α) (limit : Nat) (h : r.Allowed c) :
  ∃ c' answer, r.Does c c' answer ∧ Performs cellName c (r.client limit) c' answer
  := by
  cases r with
  | readRegs => exact ⟨c, _, ⟨rfl, rfl⟩, performs_readRegs h⟩
  | writeRegs regs =>
    obtain ⟨hsp, hvalid, hpc⟩ := h
    obtain ⟨display, hp⟩ := performs_writeRegs cellName hsp hvalid hpc
    exact ⟨_, (), ⟨display, rfl⟩, hp⟩
  | readReg reg => exact ⟨c, _, ⟨rfl, rfl⟩, performs_readReg h reg⟩
  | writeReg reg val =>
    obtain ⟨hsp, hval, heven, hpc⟩ := h
    obtain ⟨display, hp⟩ := performs_writeReg cellName hsp hval heven hpc
    exact ⟨_, (), ⟨display, rfl⟩, hp⟩
  | readMem s addr len =>
    obtain ⟨hlen, hfits, hin⟩ := h
    exact ⟨c, _, ⟨rfl, rfl⟩, performs_readMem hlen hin hfits⟩
  | writeMem s addr buf =>
    obtain ⟨hlen, hfits, hin⟩ := h
    obtain ⟨c', hp, hwrote⟩ := performs_writeMem cellName hlen hin hfits
    exact ⟨c', (), hwrote, hp⟩
  | breakInsert type addr len =>
    obtain ⟨c', hdoes, hp⟩ := performs_breaks cellName (.inl rfl) h rfl
      fun hzero => run_avrCoreInsertBreakpoint (h.2.2.2 hzero).2
    exact ⟨c', (), hdoes, hp⟩
  | breakRemove type addr len =>
    have hremove : ∃ c₁, type = 0 → (avrCoreRemoveBreakpoint (addr / 2 : Nat)).run c
        = .ok ((), c₁) := by
      cases hlookup : c.brkPtLookup (addr / 2 : Nat) with
      | none => exact ⟨c, fun _ => run_avrCoreRemoveBreakpoint_of_none hlookup⟩
      | some bp =>
        exact ⟨_, fun hzero => run_avrCoreRemoveBreakpoint_of_some hlookup (h.2.2.2 hzero).2⟩
    obtain ⟨c₁, hrun⟩ := hremove
    obtain ⟨c', hdoes, hp⟩ := performs_breaks cellName (.inr rfl) h rfl hrun
    exact ⟨c', (), hdoes, hp⟩
  | step =>
    obtain ⟨c', hstep, hsp⟩ := h
    have hdoes := hstep
    cases hstep with
    | succ hstep hret hrest =>
      cases hrest
      exact ⟨c', _, ⟨hdoes, rfl⟩, performs_rspStep hstep hret hsp limit⟩
  | cont =>
    obtain ⟨c', hruns, hsp⟩ := h
    have hdoes := hruns
    obtain ⟨n, c₁, c₂, hsteps, hbreak, hdisable⟩ := hruns
    exact ⟨c', _, ⟨hdoes, rfl⟩, performs_rspCont hsteps hbreak hdisable hsp limit⟩
  | reset => exact ⟨c.reset, (), rfl, performs_targetReset c limit⟩

end MethodCall

/-! ### Sessions -/

/-- A session of the client -/
inductive Session (α : Type) : Type 1 where
  | done (a : α)
  | call {β : Type} (r : MethodCall β) (next : β → Session α)

namespace Session

variable {δ : Type} [IoDevices δ] {α : Type}

/-- The program of the client for a session -/
def client (limit : Nat) : Session α → ClientM α
  | done a => .ret a
  | call r next => (r.client limit).bind fun answer => (next answer).client limit

/-- How a session ends on the core alone -/
inductive Ends : AvrCore (WithEEprom δ) → Session α → AvrCore (WithEEprom δ) → α → Prop
  | done (c : AvrCore (WithEEprom δ)) (a : α) : Ends c (.done a) c a
  | call {β : Type} {c c₁ c' : AvrCore (WithEEprom δ)} {r : MethodCall β} {answer : β}
      {next : β → Session α} {a : α} (hdoes : r.Does c c₁ answer)
      (h : Ends c₁ (next answer) c' a) : Ends c (.call r next) c' a

/-- No call of the session asks for what the core does not have. -/
inductive Allowed : AvrCore (WithEEprom δ) → Session α → Prop
  | done (c : AvrCore (WithEEprom δ)) (a : α) : Allowed c (.done a)
  | call {β : Type} {c : AvrCore (WithEEprom δ)} {r : MethodCall β} {next : β → Session α}
      (hr : r.Allowed c) (h : ∀ c' answer, r.Does c c' answer → Allowed c' (next answer)) :
      Allowed c (.call r next)

variable {cellName : Int → Option (List Char)} {c : AvrCore (WithEEprom δ)} {s : Session α}

variable (cellName) in
/-- The program of a session gets to the end of the session. -/
theorem performs
    (h : s.Allowed c) (limit : Nat) :
  ∃ c' a, s.Ends c c' a ∧ Performs cellName c (s.client limit) c' a
  := by
  induction h with
  | done c a => exact ⟨c, a, .done c a, .pure c a⟩
  | call hr _ ih =>
    obtain ⟨c₁, answer, hdoes, hcall⟩ := MethodCall.performs cellName _ limit hr
    obtain ⟨c', a, hends, hrest⟩ := ih c₁ answer hdoes
    exact ⟨c', a, .call hdoes hends, hcall.bind hrest⟩

end Session

end SimulAvr
