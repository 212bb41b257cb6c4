import SimulAvr.GdbLink

/-!
# The mode of the descriptor

The server keeps in `block_on` whether the descriptor of the connection is in blocking mode, and
`gdb_pre_parse_packet` sets the mode only when `block_on` differs from the mode it is asked
for.  A packet that arrives while `gdb_continue` is running turns blocking on and leaves
`block_on` off; in the runs without such packets, and in no others, `block_on` tells the
mode all along (`blocking_mode_tracked`).
-/

namespace SimulAvr

open Program Descriptor Transition

/-! ### Sessions over bytes -/

/-- The events of a session over bytes. -/
inductive LinkEvent where
  /-- `gdb_continue` steps the core. -/
  | step
  /-- `gdb_pre_parse_packet` is called. -/
  | request
  /-- The signal SIGINT has occurred. -/
  | sigint
  /-- The next connection, whose descriptor is in blocking mode. -/
  | accept (input : List (Arrival Byte))

section

variable {δ : Type} [IoDevices δ]

/-- What the server does at an event, where it is ready for it. -/
def linkNext (cellName : Int → Option (List Char)) (mode : Mode) :
    LinkEvent → Option (ConnectionM δ Unit)
  | .step => (serverNext cellName mode .step).map Connection.lift
  | .sigint => (serverNext cellName mode .sigint).map Connection.lift
  | .accept input => (serverNext cellName mode .accept).map fun x => do
    Connection.lift x
    modify fun l => { l with input := input, blocking := true }
  | .request =>
    match mode with
    | .waiting => some do
      let request ← gdbReadRequest true
      Connection.lift (gdbMainLoopPass cellName request)
    | .polling step => some do
      let request ← gdbReadRequest false
      Connection.lift (gdbContinuePoll cellName step request)
    | _ => none

/-- The steps of a session over bytes. -/
def LinkStep (cellName : Int → Option (List Char)) (e : LinkEvent) (l l' : Connection δ) : Prop :=
  ∃ x, linkNext cellName l.server.mode e = some x ∧ x.run l = .ok ((), l')

/-- The server after an event. -/
def linkAfter (cellName : Int → Option (List Char)) (e : LinkEvent) (l : Connection δ) :
    Option (Connection δ) :=
  (linkNext cellName l.server.mode e).bind fun x => (x.run l).toOption.map Prod.snd

theorem linkStep_of_after
    {cellName : Int → Option (List Char)} {e : LinkEvent} {l l' : Connection δ}
    (h : linkAfter cellName e l = some l') :
  LinkStep cellName e l l'
  := by
  obtain ⟨x, hnext, hx⟩ := Option.bind_eq_some_iff.mp h
  use x, hnext
  cases hrun : x.run l with
  | error e =>
    rw [hrun] at hx
    contradiction
  | ok r =>
    rw [hrun] at hx
    cases hx
    rfl

/-! ### What the reads change -/

omit [IoDevices δ] in
/-- A program of the server leaves the connection. -/
theorem linkLift_eq_ok
    {α : Type} {x : ServerM δ α} {l l' : Connection δ} {a : α} (h : (Connection.lift x).run l = .ok (a, l')) :
  ∃ s, x.run l.server = .ok (a, s) ∧ l' = { l with server := s }
  := by
  change ((x.run l.server).mapError _).map _ = _ at h
  cases hx : x.run l.server with
  | error e =>
    rw [hx] at h
    contradiction
  | ok r =>
    rw [hx] at h
    cases h
    exact ⟨_, rfl, rfl⟩

omit [IoDevices δ] in
/-- A read of a byte changes what later reads find. -/
theorem gdbReadByteFrom_frame
    {cnt : Nat} {l l' : Connection δ} {c : Int} (h : (gdbReadByteFrom cnt).run l = .ok (c, l')) :
  ∃ input, l' = l.after input
  := by
  induction cnt generalizing l with
  | zero => contradiction
  | succ cnt ih =>
    rw [gdbReadByteFrom, run_bind_of_ok (run_get l)] at h
    cases hread : Descriptor.read l.blocking l.input with
    | none =>
      rw [hread] at h
      contradiction
    | some r =>
      obtain ⟨arrival, input⟩ := r
      rw [hread] at h
      dsimp only at h
      rw [run_bind_of_ok (run_modify _ l)] at h
      cases arrival with
      | byte b =>
        cases h
        exact ⟨input, rfl⟩
      | noData =>
        cases h
        exact ⟨input, rfl⟩
      | failed => contradiction
      | endOfFile =>
        obtain ⟨input', rfl⟩ := ih h
        exact ⟨input', rfl⟩

omit [IoDevices δ] in
/-- The first character of a request is `$` when the first thing that arrives is. -/
theorem gdbReadByteFrom_eq_start
    {cnt : Nat} {l l' : Connection δ} {c : Int} (hmode : l.blocking = false)
    (h : (gdbReadByteFrom cnt).run l = .ok (c, l')) :
  c = 0x24 ↔ l.input.find? (· ≠ .endOfFile) = some (.byte 0x24)
  := by
  induction cnt generalizing l with
  | zero => contradiction
  | succ cnt ih =>
    rw [gdbReadByteFrom, run_bind_of_ok (run_get l), hmode] at h
    cases hinput : l.input with
    | nil =>
      rw [hinput] at h
      cases h
      apply iff_of_false
      · decide
      · exact (Option.some_ne_none _).symm
    | cons arrival input =>
      rw [hinput] at h
      cases arrival with
      | byte b =>
        cases h
        rw [List.find?_cons_of_pos (by simp)]
        constructor
        · intro heq
          have hb : b = 0x24 := BitVec.eq_of_toInt_eq heq
          rw [hb]
        · intro heq
          cases heq
          rfl
      | noData =>
        cases h
        rw [List.find?_cons_of_pos (by simp)]
        apply iff_of_false
        · decide
        · intro heq
          cases heq
      | failed => contradiction
      | endOfFile =>
        rw [List.find?_cons_of_neg (by simp)]
        apply ih (l := l.after input) hmode h

omit [IoDevices δ] in
/-- A read in non-blocking mode does not wait. -/
theorem gdbReadByteFrom_of_not_blocking
    {cnt : Nat} {l : Connection δ} (hmode : l.blocking = false) :
  (gdbReadByteFrom cnt).run l ≠ .error .waiting
  := by
  induction cnt generalizing l with
  | zero =>
    intro h
    cases h
  | succ cnt ih =>
    rw [gdbReadByteFrom, run_bind_of_ok (run_get l), hmode]
    cases l.input with
    | nil =>
      intro h
      cases h
    | cons arrival input =>
      cases arrival with
      | endOfFile => apply ih (l := l.after input) hmode
      | _ =>
        intro h
        cases h

omit [IoDevices δ] in
/-- The branch for packets turns blocking on. -/
theorem gdbReadPacket_frame
    {l l' : Connection δ} {pkt : List Byte} (h : gdbReadPacket.run l = .ok (pkt, l')) :
  ∃ input, l' = { l with input := input, blocking := true }
  := by
  let I (l' : Connection δ) : Prop := ∃ input, l' = { l with input := input, blocking := true }
  have hread : Keeps I (fun _ => True) gdbReadChar := by
    apply Triple.bind (Q := fun _ => I)
    · rintro l₁ ⟨input, rfl⟩
      cases hrun : gdbReadByte.run { l with input := input, blocking := true } with
      | error e => trivial
      | ok r =>
        obtain ⟨c, l₂⟩ := r
        obtain ⟨input', rfl⟩ := gdbReadByteFrom_frame hrun
        use input'
        rfl
    · intro c
      exact Triple.pure fun _ h => h
  have hnibble (c : Byte) : Keeps I (fun _ => True) (gdbHex2nib c) := by
    intro l₁ hl₁
    have hrun : (gdbHex2nib c).run l₁ =
        ((hex2nib (byteChar c)).mapError .avr).map fun nib => (nib, l₁) := rfl
    rw [hrun]
    cases hex2nib (byteChar c) with
    | error e => trivial
    | ok nib => apply hl₁
  have hpacket : Triple (fun l₁ => l₁ = l) gdbReadPacket (fun _ => I) (fun _ => True) := by
    apply Triple.bind (Q := fun _ => I)
    · rintro l₁ rfl
      use l₁.input
    · intro _
      apply Triple.bind (Framing.keeps_readFrame hread hnibble maxBuf)
      intro r
      apply Triple.ite
      · intro _
        apply Triple.bind (Q := fun _ => I)
        · exact Triple.throw trivial
        · intro _
          exact Triple.pure fun _ h => h
      · intro _
        exact Triple.pure fun _ h => h
  apply hpacket.of_ok rfl h

/-- The mode that the start of `gdb_pre_parse_packet` leaves. -/
def Connection.entered (l : Connection δ) (blocking : Bool) : Bool :=
  if l.blockOn = blocking then l.blocking else blocking

/-- The connection after the start of `gdb_pre_parse_packet`. -/
def Connection.enter (l : Connection δ) (blocking : Bool) : Connection δ :=
  { l with blockOn := blocking, blocking := l.entered blocking }

omit [IoDevices δ] in
theorem run_gdbEnter
    (blocking : Bool) (l : Connection δ) :
  (gdbEnter blocking).run l = .ok ((), l.enter blocking)
  := by
  rw [gdbEnter, run_bind_of_ok (run_get l), Connection.enter, Connection.entered]
  by_cases hon : l.blockOn = blocking
  · rw [if_neg (not_not.mpr hon), if_pos hon]
    subst hon
    rfl
  · rw [if_pos hon, if_neg hon]
    rfl

/-- The request is a packet. -/
def Request.isPacket : Request → Bool
  | .packet _ => true
  | _ => false

/-- The first byte that arrives, before the end of the data there is, starts a packet. -/
def Connection.PacketArrives (l : Connection δ) : Prop :=
  l.input.find? (· ≠ .endOfFile) = some (.byte 0x24)

omit [IoDevices δ] in
/-- What the read of a request changes: a packet turns blocking on. -/
theorem gdbReadRequest_frame
    {blocking : Bool} {l l' : Connection δ} {request : Request}
    (h : (gdbReadRequest blocking).run l = .ok (request, l')) :
  l'.server = l.server ∧ l'.blockOn = blocking ∧
    l'.blocking = (request.isPacket || l.entered blocking) ∧
    (l.entered blocking = false → (request.isPacket = true ↔ l.PacketArrives))
  := by
  rw [gdbReadRequest, run_bind_of_ok (run_gdbEnter blocking l)] at h
  obtain ⟨c, l₁, hread, h⟩ := run_bind_eq_ok.mp h
  have hstart (hmode : l.entered blocking = false) : c = 0x24 ↔ l.PacketArrives :=
    gdbReadByteFrom_eq_start (l := l.enter blocking) hmode hread
  obtain ⟨input, rfl⟩ := gdbReadByteFrom_frame hread
  by_cases hc : c = 0x24
  · rw [if_pos hc] at h
    obtain ⟨pkt, l₂, hpacket, h⟩ := run_bind_eq_ok.mp h
    obtain ⟨input', rfl⟩ := gdbReadPacket_frame hpacket
    cases h
    refine ⟨rfl, rfl, rfl, ?_⟩
    intro hmode
    rw [← hstart hmode]
    simp only [Request.isPacket, hc]
  · rw [if_neg hc] at h
    have hother : request.isPacket = false ∧
        l' = (l.enter blocking).after input := by
      repeat' split at h
      all_goals
        cases h
        exact ⟨rfl, rfl⟩
    obtain ⟨hpacket, rfl⟩ := hother
    rw [hpacket, Bool.false_or]
    refine ⟨rfl, rfl, rfl, ?_⟩
    intro hmode
    rw [← hstart hmode]
    simp only [hc, Bool.false_eq_true]

/-! ### The mode in a session -/

/-- The server knows the mode of the descriptor: `block_on` tells it, the start of
`gdb_pre_parse_packet` leaves the mode it is asked for, and a read from the loop of
`gdb_continue` does not wait. -/
structure Connection.Tracks (l : Connection δ) : Prop where
  flag : l.blockOn = l.blocking
  entered : ∀ blocking l', (gdbEnter blocking).run l = .ok ((), l') → l'.blocking = blocking
  polled : ∀ l', (gdbEnter false).run l = .ok ((), l') → gdbReadByte.run l' ≠ .error .waiting

omit [IoDevices δ] in
theorem entered_of_flag
    {l : Connection δ} (h : l.blockOn = l.blocking) (blocking : Bool) :
  l.entered blocking = blocking
  := by
  rw [Connection.entered]
  split
  · next hon => rw [← h, hon]
  · rfl

omit [IoDevices δ] in
/-- It is enough that `block_on` tells the mode. -/
theorem tracks_iff
    {l : Connection δ} :
  l.Tracks ↔ l.blockOn = l.blocking
  := by
  constructor
  · intro h
    apply h.flag
  · intro h
    have hentered (blocking : Bool) (l' : Connection δ)
        (hrun : (gdbEnter blocking).run l = .ok ((), l')) : l'.blocking = blocking := by
      rw [run_gdbEnter] at hrun
      cases hrun
      apply entered_of_flag h
    refine ⟨h, hentered, ?_⟩
    intro l' hrun
    apply gdbReadByteFrom_of_not_blocking (hentered false l' hrun)

/-- A packet arrives while `gdb_continue` is running. -/
def PacketWhileRunning (l : Connection δ) (e : LinkEvent) : Prop :=
  e = .request ∧ (∃ step, l.server.mode = .polling step) ∧ l.PacketArrives

/-- After the end of a session `block_on` is on. -/
def Connection.ClosedBlocking (l : Connection δ) : Prop :=
  l.server.mode = .closed → l.blockOn = true

/-- The program does not end the session. -/
def KeepsOpen (x : ServerM δ Unit) : Prop :=
  Triple (fun _ => True) x (fun _ s => s.mode ≠ .closed) (fun _ => True)

omit [IoDevices δ] in
theorem setMode_keepsOpen
    {mode : Mode} (h : mode ≠ .closed) :
  KeepsOpen (Server.setMode mode : ServerM δ Unit)
  := fun _ _ => h

theorem gdbContinueEnd_keepsOpen
    (signo : Byte) :
  KeepsOpen (gdbContinueEnd signo : ServerM δ Unit)
  := by
  apply Triple.bind Triple.anything
  intro reply
  apply Triple.bind Triple.anything
  intro _
  apply setMode_keepsOpen
  nofun

/-- The loop of `gdb_continue` does not end the session. -/
theorem gdbContinueStep_keepsOpen
    (step : Char) :
  KeepsOpen (gdbContinueStep step : ServerM δ Unit)
  := by
  apply Triple.bind Triple.anything
  intro res
  apply Triple.ite
  · intro _
    apply Triple.bind Triple.anything
    intro _
    apply gdbContinueEnd_keepsOpen
  · intro _
    apply setMode_keepsOpen
    nofun

theorem gdbContinuePoll_keepsOpen
    (cellName : Int → Option (List Char)) (step : Char) (request : Request) :
  KeepsOpen (gdbContinuePoll cellName step request : ServerM δ Unit)
  := by
  apply Triple.bind Triple.anything
  intro res
  cases res with
  | ctrlC => apply gdbContinueEnd_keepsOpen
  | killRequest => apply gdbContinueEnd_keepsOpen
  | ok =>
    apply Triple.ite
    · intro _
      apply gdbContinueEnd_keepsOpen
    · intro _
      apply setMode_keepsOpen
      nofun

/-- What the step of a session does to the mode of the descriptor. -/
theorem LinkStep.cases
    {cellName : Int → Option (List Char)} {e : LinkEvent} {l l' : Connection δ}
    (h : LinkStep cellName e l l') :
  (e ≠ .request ∧ l'.server.mode ≠ .closed ∧ l'.blockOn = l.blockOn ∧
      (l'.blocking = l.blocking ∨ l.server.mode = .closed ∧ l'.blocking = true)) ∨
    (e = .request ∧ l.server.mode = .waiting ∧ l'.blockOn = true ∧
      ∃ request : Request, l'.blocking = (request.isPacket || l.entered true)) ∨
    (e = .request ∧ (∃ step, l.server.mode = .polling step) ∧ l'.server.mode ≠ .closed ∧
      l'.blockOn = false ∧ ∃ request : Request,
        l'.blocking = (request.isPacket || l.entered false) ∧
        (l.entered false = false → (request.isPacket = true ↔ l.PacketArrives)))
  := by
  obtain ⟨x, hnext, hrun⟩ := h
  cases e with
  | step =>
    obtain ⟨y, hy, rfl⟩ := Option.map_eq_some_iff.mp hnext
    obtain ⟨s, hs, rfl⟩ := linkLift_eq_ok hrun
    left
    refine ⟨nofun, ?_, rfl, Or.inl rfl⟩
    cases hmode : l.server.mode with
    | stepping step =>
      rw [hmode] at hy
      cases hy
      apply (gdbContinueStep_keepsOpen step).of_ok trivial hs
    | _ =>
      rw [hmode] at hy
      contradiction
  | sigint =>
    obtain ⟨y, hy, rfl⟩ := Option.map_eq_some_iff.mp hnext
    obtain ⟨s, hs, rfl⟩ := linkLift_eq_ok hrun
    left
    refine ⟨nofun, ?_, rfl, Or.inl rfl⟩
    cases hmode : l.server.mode with
    | stepping step =>
      rw [hmode] at hy
      cases hy
      apply (gdbContinueEnd_keepsOpen sigtrap).of_ok trivial hs
    | _ =>
      rw [hmode] at hy
      contradiction
  | accept input =>
    obtain ⟨y, hy, rfl⟩ := Option.map_eq_some_iff.mp hnext
    obtain ⟨_, l₁, hlift, h⟩ := run_bind_eq_ok.mp hrun
    obtain ⟨s, hs, rfl⟩ := linkLift_eq_ok hlift
    cases h
    left
    cases hmode : l.server.mode with
    | closed =>
      rw [hmode] at hy
      cases hy
      refine ⟨nofun, ?_, rfl, Or.inr ⟨rfl, rfl⟩⟩
      have hopen : KeepsOpen (do
          Server.lift (update AvrCore.reset)
          Server.setMode .waiting : ServerM δ Unit) :=
        Triple.bind Triple.anything fun _ => setMode_keepsOpen nofun
      apply hopen.of_ok trivial hs
    | _ =>
      rw [hmode] at hy
      contradiction
  | request =>
    right
    cases hmode : l.server.mode with
    | waiting =>
      rw [hmode] at hnext
      cases hnext
      obtain ⟨request, l₁, hread, h⟩ := run_bind_eq_ok.mp hrun
      obtain ⟨s, hs, rfl⟩ := linkLift_eq_ok h
      obtain ⟨-, hon, hblocking, -⟩ := gdbReadRequest_frame hread
      left
      exact ⟨rfl, rfl, hon, request, hblocking⟩
    | polling step =>
      rw [hmode] at hnext
      cases hnext
      obtain ⟨request, l₁, hread, h⟩ := run_bind_eq_ok.mp hrun
      obtain ⟨s, hs, rfl⟩ := linkLift_eq_ok h
      obtain ⟨-, hon, hblocking, hpacket⟩ := gdbReadRequest_frame hread
      right
      refine ⟨rfl, ⟨step, rfl⟩, ?_, hon, request, hblocking, hpacket⟩
      apply (gdbContinuePoll_keepsOpen cellName step request).of_ok trivial hs
    | _ =>
      rw [hmode] at hnext
      contradiction

/-- A session over bytes is a session over the requests that the bytes encode. -/
theorem LinkStep.serverStep
    {cellName : Int → Option (List Char)} {e : LinkEvent} {l l' : Connection δ}
    (h : LinkStep cellName e l l') :
  ∃ e', ServerStep cellName e' l.server l'.server
  := by
  obtain ⟨x, hnext, hrun⟩ := h
  cases e with
  | step =>
    obtain ⟨y, hy, rfl⟩ := Option.map_eq_some_iff.mp hnext
    obtain ⟨s, hs, rfl⟩ := linkLift_eq_ok hrun
    exact ⟨.step, y, hy, hs⟩
  | sigint =>
    obtain ⟨y, hy, rfl⟩ := Option.map_eq_some_iff.mp hnext
    obtain ⟨s, hs, rfl⟩ := linkLift_eq_ok hrun
    exact ⟨.sigint, y, hy, hs⟩
  | accept input =>
    obtain ⟨y, hy, rfl⟩ := Option.map_eq_some_iff.mp hnext
    obtain ⟨_, l₁, hlift, h⟩ := run_bind_eq_ok.mp hrun
    obtain ⟨s, hs, rfl⟩ := linkLift_eq_ok hlift
    cases h
    exact ⟨.accept, y, hy, hs⟩
  | request =>
    cases hmode : l.server.mode with
    | waiting =>
      rw [hmode] at hnext
      cases hnext
      obtain ⟨request, l₁, hread, h⟩ := run_bind_eq_ok.mp hrun
      obtain ⟨s, hs, rfl⟩ := linkLift_eq_ok h
      rw [(gdbReadRequest_frame hread).1] at hs
      use .request request, gdbMainLoopPass cellName request
      rw [hmode]
      exact ⟨rfl, hs⟩
    | polling step =>
      rw [hmode] at hnext
      cases hnext
      obtain ⟨request, l₁, hread, h⟩ := run_bind_eq_ok.mp hrun
      obtain ⟨s, hs, rfl⟩ := linkLift_eq_ok h
      rw [(gdbReadRequest_frame hread).1] at hs
      use .request request, gdbContinuePoll cellName step request
      rw [hmode]
      exact ⟨rfl, hs⟩
    | _ =>
      rw [hmode] at hnext
      contradiction

/-- Steps keep `block_on` on after the end of a session. -/
theorem LinkStep.closedBlocking
    {cellName : Int → Option (List Char)} {e : LinkEvent} {l l' : Connection δ}
    (h : LinkStep cellName e l l') :
  l'.ClosedBlocking
  := by
  intro hclosed
  obtain ⟨-, hopen, -⟩ | ⟨-, -, hon, -⟩ | ⟨-, -, hopen, -⟩ := h.cases
  · contradiction
  · apply hon
  · contradiction

/-- A step from a state in which the server knows the mode leads to another one exactly if no
packet arrives while `gdb_continue` is running. -/
theorem LinkStep.tracks_iff
    {cellName : Int → Option (List Char)} {e : LinkEvent} {l l' : Connection δ}
    (hclosed : l.ClosedBlocking) (hl : l.Tracks) (h : LinkStep cellName e l l') :
  l'.Tracks ↔ ¬ PacketWhileRunning l e
  := by
  have hflag := hl.flag
  rw [SimulAvr.tracks_iff]
  obtain ⟨hne, -, hon, hmode⟩ | ⟨-, hwaiting, hon, request, hmode⟩ |
    ⟨rfl, hpolling, -, hon, request, hmode, hpacket⟩ := h.cases
  · have hquiet : ¬ PacketWhileRunning l e := fun hp => hne hp.1
    obtain hmode | ⟨hc, hmode⟩ := hmode
    · simp only [hon, hmode, hflag, hquiet, not_false_eq_true]
    · simp only [hon, hmode, hclosed hc, hquiet, not_false_eq_true]
  · have hquiet : ¬ PacketWhileRunning l e := by
      rintro ⟨-, ⟨step, hstep⟩, -⟩
      rw [hwaiting] at hstep
      contradiction
    rw [entered_of_flag hflag, Bool.or_true] at hmode
    simp only [hon, hmode, hquiet, not_false_eq_true]
  · rw [entered_of_flag hflag, Bool.or_false] at hmode
    have harrives := hpacket (entered_of_flag hflag false)
    rw [hon, hmode]
    constructor
    · rintro hfalse ⟨-, -, hp⟩
      rw [harrives.mpr hp] at hfalse
      contradiction
    · intro hquiet
      cases hp : request.isPacket with
      | false => rfl
      | true => exact absurd ⟨rfl, hpolling, harrives.mp hp⟩ hquiet

/-- In the runs of a session from its first connection on, `block_on` tells the mode of the
descriptor all along exactly if no packet arrives while `gdb_continue` is running. -/
theorem blocking_mode_tracked
    (cellName : Int → Option (List Char)) {l l' : Connection δ} {taken : List (Connection δ × LinkEvent)}
    (hwaiting : l.server.mode = .waiting) (hon : l.blockOn = true) (hmode : l.blocking = true)
    (hpath : Path (LinkStep cellName) l taken l') :
  ((∀ p ∈ taken, p.1.Tracks) ∧ l'.Tracks) ↔ ∀ p ∈ taken, ¬ PacketWhileRunning p.1 p.2
  := by
  have hclosed : ∀ (l₁ : Connection δ) e l₂, l₁.ClosedBlocking → LinkStep cellName e l₁ l₂ →
      l₂.ClosedBlocking := by
    intro l₁ e l₂ _ hstep
    apply hstep.closedBlocking
  have htracks : ∀ (l₁ : Connection δ) e l₂, l₁.ClosedBlocking → l₁.Tracks → LinkStep cellName e l₁ l₂ →
      (l₂.Tracks ↔ ¬ PacketWhileRunning l₁ e) := by
    intro l₁ e l₂ hclosed htracks hstep
    apply hstep.tracks_iff hclosed htracks
  apply hpath.invariant_iff hclosed htracks
  · intro hclosed
    rw [hwaiting] at hclosed
    contradiction
  · rw [tracks_iff, hon, hmode]

/-! ### Two sessions -/

/-- The events without packets that arrive while `gdb_continue` is running. -/
def quietEvent (l : Connection Unit) : LinkEvent → Bool
  | .request =>
    match l.server.mode with
    | .polling _ => l.input.find? (· ≠ .endOfFile) ≠ some (.byte 0x24)
    | _ => true
  | _ => true

theorem quietEvent_quiet
    {l : Connection Unit} {e : LinkEvent} (h : quietEvent l e = true) :
  ¬ PacketWhileRunning l e
  := by
  rintro ⟨rfl, ⟨step, hstep⟩, harrives⟩
  rw [quietEvent, hstep] at h
  exact of_decide_eq_true h harrives

/-- A session in which gdb continues, and sends an acknowledgement while the target runs. -/
theorem blocking_mode_tracked_ack :
  ∃ taken l', Path (LinkStep fun _ => none) (.idle "$c#63+".toList) taken l' ∧
    l'.server.mode.isRunning = true ∧ (∀ p ∈ taken, p.1.Tracks) ∧ l'.Tracks
  := by
  have h : (exec (linkAfter fun _ => none) quietEvent [.request, .step, .request]
      (.idle "$c#63+".toList)).map (fun l' => l'.server.mode.isRunning) = some true := by
    decide +kernel
  obtain ⟨l', hexec, hrunning⟩ := Option.map_eq_some_iff.mp h
  obtain ⟨taken, hpath, hquiet⟩ := exec_path (fun _ _ _ => linkStep_of_after) hexec
  refine ⟨taken, l', hpath, hrunning, ?_⟩
  apply (blocking_mode_tracked (fun _ => none) rfl rfl rfl hpath).mpr
  intro p hp
  apply quietEvent_quiet (hquiet p hp)

/-- A packet `?` that arrives while the target runs leaves `block_on` off and the descriptor in
blocking mode when `gdb_continue` looks for the next request. -/
theorem blocking_mode_not_tracked :
  ¬ ∀ (cellName : Int → Option (List Char)) (l l' : Connection Unit) (taken : List (Connection Unit × LinkEvent)),
    l.server.mode = .waiting → l.blockOn = true → l.blocking = true →
    Path (LinkStep cellName) l taken l' → (∀ p ∈ taken, p.1.Tracks) ∧ l'.Tracks
  := by
  intro htracks
  have h : (exec (linkAfter fun _ => none) (fun _ _ => true) [.request, .step, .request, .step]
      (.idle "$c#63$?#3f".toList)).map (fun l' => (l'.blockOn, l'.blocking)) =
        some (false, true) := by
    decide +kernel
  obtain ⟨l', hexec, hmode⟩ := Option.map_eq_some_iff.mp h
  obtain ⟨hon, hblocking⟩ := Prod.mk.inj hmode
  obtain ⟨taken, hpath, -⟩ := exec_path (fun _ _ _ => linkStep_of_after) hexec
  obtain ⟨-, hl'⟩ := htracks _ _ l' taken rfl rfl rfl hpath
  have hflag := hl'.flag
  rw [hon, hblocking] at hflag
  exact absurd hflag (by decide)

end

end SimulAvr
