import SimulAvr.Lib.ArrayQueue
import SimulAvr.Peripherals.Dispatch

/-!
# The FIFO of the OsEID

The FIFO is a queue of at most `FIFO_LEN` bytes exactly as long as no byte is popped from it while
it is empty and none is pushed while it is full: `oseid_read` does not look at the length, and
`oseid_write` compares it with `<=`.
-/

namespace SimulAvr

open Program CallbackList Transition

/-! ### Operations -/

/-- What an access to FIFO or FIFOCTRL does to the FIFO -/
inductive FifoOp where
  /-- a read of FIFO -/
  | pop
  /-- a write to FIFO -/
  | push (val : Byte)
  /-- FIFOCTRL = 0 -/
  | clear
  /-- FIFOCTRL = 1: the FIFO goes to `stdout` -/
  | display
  /-- FIFOCTRL = 2 -/
  | load (line : OseidLine)
  /-- FIFOCTRL = 3 -/
  | random (val : Byte)
  /-- any other access -/
  | none

/-- What an event does to the FIFO -/
def IoEvent.fifoOp (p : Peripherals) : IoEvent → FifoOp
  | .read addr =>
    if p.vdevAt addr = some .oseid ∧ addr = p.oseid.addr then .pop else .none
  | .write addr val =>
    if p.vdevAt addr = some .oseid then
      if addr = p.oseid.addr + 1 then
        if val = 0 then .clear
        else if val = 1 then .display
        else if val = 2 then .load p.world.oseidLine.head
        else if val = 3 then .random p.world.urandom.head
        else .none
      else if addr = p.oseid.addr then .push val
      else .none
    else .none
  | _ => .none

namespace Oseid

/-- The FIFO after an operation -/
def apply (o : Oseid) : FifoOp → Oseid
  | .pop => o.pop
  | .push val => o.push val
  | .clear | .display => { o with flen := 0 }
  | .load line => o.loadLine line
  | .random val => o.loadRandom val
  | .none => o

/-- The places of the array that the loop of a load writes -/
def loadPlaces (o : Oseid) : List Byte → List Nat
  | [] => []
  | val :: vals =>
    if fifoLen ≤ o.flen.toNat then [] else o.flen.toNat :: (o.put val).loadPlaces vals

/-- The places of the array that an operation reads or writes -/
def places (o : Oseid) : FifoOp → List Nat
  | .pop => List.range fifoLen
  | .push _ => if o.flen.toNat ≤ fifoLen then [o.flen.toNat] else []
  | .display => List.range o.flen.toNat
  | .load line => ({ o with flen := 0 } : Oseid).loadPlaces line.bytes
  | .random _ => [0]
  | .clear | .none => []

/-- The bytes in the FIFO -/
def contents (o : Oseid) : List Byte :=
  ArrayQueue.contents o.fifo o.flen.toNat

/-- The operation takes no byte from an empty FIFO, and puts none into a full one. -/
def Fits (o : Oseid) : FifoOp → Prop
  | .pop => o.flen ≠ 0
  | .push _ => o.flen.toNat ≠ fifoLen
  | _ => True

instance (o : Oseid) : (op : FifoOp) → Decidable (o.Fits op)
  | .pop => inferInstanceAs (Decidable (o.flen ≠ 0))
  | .push _ => inferInstanceAs (Decidable (o.flen.toNat ≠ fifoLen))
  | .clear | .display | .load _ | .random _ | .none => inferInstanceAs (Decidable True)

/-! ### One operation -/

variable {o : Oseid}

theorem toNat_put
    (h : o.flen.toNat ≤ fifoLen) (val : Byte) :
  (o.put val).flen.toNat = o.flen.toNat + 1
  := by
  change (o.flen + 1).toNat = _
  rw [BitVec.toNat_add]
  apply Nat.mod_eq_of_lt
  have : fifoLen = 266 := rfl
  simp
  omega

theorem contents_put
    (h : o.flen.toNat ≤ fifoLen) (val : Byte) :
  (o.put val).contents = o.contents ++ [val]
  := by
  rw [contents, toNat_put h]
  exact ArrayQueue.contents_put o.fifo o.flen.toNat val

theorem toNat_pop
    (h : o.flen ≠ 0) :
  o.flen.toNat = o.pop.flen.toNat + 1
  := by
  change _ = (o.flen - 1).toNat + 1
  have hne : o.flen.toNat ≠ 0 := fun h0 => h (BitVec.eq_of_toNat_eq h0)
  bv_omega

/-- A pop of a FIFO that is not empty -/
theorem contents_pop
    (h : o.flen ≠ 0) (hle : o.flen.toNat ≤ fifoLen) :
  o.contents = o.fifo 0 :: o.pop.contents
  := by
  rw [contents, toNat_pop h]
  apply ArrayQueue.contents_shift
  intro i hi
  have := toNat_pop h
  exact if_pos (by omega)

/-- A load fills the FIFO up to its capacity, and writes places of the array only. -/
theorem loadBytes_contents
    (vals : List Byte) (h : o.flen.toNat ≤ fifoLen) :
  (o.loadBytes vals).contents = o.contents ++ vals.take (fifoLen - o.flen.toNat)
    ∧ (o.loadBytes vals).flen.toNat ≤ fifoLen ∧ ∀ i ∈ o.loadPlaces vals, i < fifoLen
  := by
  induction vals generalizing o with
  | nil =>
    rw [List.take_nil, List.append_nil]
    exact ⟨rfl, h, nofun⟩
  | cons val vals ih =>
    rw [loadBytes, loadPlaces]
    split
    · next hfull =>
      rw [Nat.sub_eq_zero_of_le hfull, List.take_zero, List.append_nil]
      exact ⟨rfl, h, nofun⟩
    · next hroom =>
      have hput : (o.put val).flen.toNat = o.flen.toNat + 1 := toNat_put h val
      obtain ⟨hcontents, hle, hplaces⟩ := ih (o := o.put val) (by omega)
      rw [hcontents, contents_put h, hput, List.append_assoc,
        show fifoLen - o.flen.toNat = (fifoLen - (o.flen.toNat + 1)) + 1 by omega,
        List.take_succ_cons, List.forall_mem_cons]
      exact ⟨rfl, hle, by omega, hplaces⟩

/-- What an operation pops, and what it pushes after a clear or none -/
def log (o : Oseid) : FifoOp → List Byte × List Byte → List Byte × List Byte
  | .pop, (pushed, popped) => (pushed, popped ++ [o.fifo 0])
  | .push val, (pushed, popped) => (pushed ++ [val], popped)
  | .clear, _ | .display, _ | .random _, _ => ([], [])
  | .load line, _ => (line.bytes.take fifoLen, [])
  | .none, l => l

/-- The bytes popped and the bytes in the FIFO are the bytes pushed, in order. -/
def InOrder (o : Oseid) (l : List Byte × List Byte) : Prop :=
  l.1 = l.2 ++ o.contents

/-- An operation that fits keeps the order and the bound, and uses places of the array only. -/
theorem apply_fits
    {op : FifoOp} (h : o.flen.toNat ≤ fifoLen) (hfits : o.Fits op) {l : List Byte × List Byte}
    (hl : o.InOrder l) :
  (o.apply op).InOrder (o.log op l) ∧ (o.apply op).flen.toNat ≤ fifoLen
    ∧ ∀ i ∈ o.places op, i < fifoLen
  := by
  have hzero : (0 : Word).toNat ≤ fifoLen := by decide
  cases op with
  | pop =>
    refine ⟨?_, ?_, fun i => List.mem_range.mp⟩
    · rw [InOrder, contents_pop hfits h, ← List.singleton_append, ← List.append_assoc] at hl
      exact hl
    · have := toNat_pop hfits
      change o.pop.flen.toNat ≤ fifoLen
      omega
  | push val =>
    have hpush : o.push val = o.put val := if_pos h
    have hput := toNat_put h val
    have hne : o.flen.toNat ≠ fifoLen := hfits
    rw [apply, hpush, places, if_pos h, List.forall_mem_singleton]
    refine ⟨?_, by omega, by omega⟩
    rw [InOrder] at hl ⊢
    rw [log, contents_put h, hl, List.append_assoc]
  | clear => exact ⟨rfl, hzero, nofun⟩
  | display =>
    refine ⟨rfl, hzero, fun i hi => ?_⟩
    have := List.mem_range.mp hi
    omega
  | load line =>
    obtain ⟨hcontents, hle, -⟩ := loadBytes_contents line.bytes hzero
      (o := { o with flen := 0, protocol := line.protocol.getD o.protocol })
    have hplaces := (loadBytes_contents line.bytes hzero (o := { o with flen := 0 })).2.2
    exact ⟨hcontents.symm, hle, hplaces⟩
  | random val =>
    refine ⟨rfl, hzero, ?_⟩
    rw [places, List.forall_mem_singleton]
    decide
  | none => exact ⟨hl, h, nofun⟩

/-- An operation keeps the bound exactly if it fits. -/
theorem apply_bound_iff
    {op : FifoOp} (h : o.flen.toNat ≤ fifoLen) :
  (o.apply op).flen.toNat ≤ fifoLen ↔ o.Fits op
  := by
  constructor
  · intro hbound
    cases op with
    | pop =>
      intro hempty
      have hwrap : (o.apply .pop).flen = 65535 := by
        change o.flen - 1 = _
        rw [hempty]
        rfl
      rw [hwrap] at hbound
      contradiction
    | push val =>
      intro hfull
      have hpush : o.push val = o.put val := if_pos h
      rw [apply, hpush, toNat_put h] at hbound
      omega
    | _ => trivial
  · intro hfits
    exact (apply_fits h hfits (l := (o.contents, [])) rfl).2.1

end Oseid

/-! ### Runs -/

theorem oseid_part : Part .oseid Peripherals.oseid where
  change _ _ p h hd := h.regs_eq hd p
  history _ _ := rfl

/-- Callbacks leave the OsEID. -/
theorem callback_oseid
    (o : Oseid) (time : Nat) (g : CallBackFP) :
  Keeps (fun s => s.oseid = o) (fun _ => True) (callbackExecute time g)
  := by
  apply oseid_part.keeps _ (callbackExecute_touches time g)
  cases g <;> simp [CallBackFP.reach, CallBackFP.owner]

/-- `oseid_read` -/
theorem oseid_read
    {p q : Peripherals} {addr : Int} {val : Byte} (hat : p.vdevAt addr = some .oseid)
    (hrun : (devRead addr).run p = .ok (val, q)) :
  q.oseid = p.oseid.apply (IoEvent.fifoOp p (.read addr))
    ∧ (IoEvent.fifoOp p (.read addr) = .pop → val = p.oseid.fifo 0)
  := by
  rw [devRead_at hat] at hrun
  change StateT.run (oseidRead addr) _ = _ at hrun
  rw [oseidRead, run_bind_of_ok rfl] at hrun
  split at hrun
  · next haddr =>
    have hne : addr ≠ p.oseid.addr := by
      have : addr = p.oseid.addr + 1 := haddr
      omega
    cases hrun
    rw [IoEvent.fifoOp, if_neg fun h => hne h.2]
    exact ⟨rfl, nofun⟩
  · split at hrun
    · next haddr =>
      cases hrun
      rw [IoEvent.fifoOp, if_pos ⟨hat, haddr⟩]
      exact ⟨rfl, fun _ => rfl⟩
    · contradiction

/-- `oseid_write` -/
theorem oseid_write
    {p q : Peripherals} {addr : Int} {val : Byte} (hat : p.vdevAt addr = some .oseid)
    (hrun : (devWrite addr val).run p = .ok ((), q)) :
  q.oseid = p.oseid.apply (IoEvent.fifoOp p (.write addr val))
  := by
  rw [devWrite_at hat] at hrun
  change StateT.run (oseidWrite addr val) _ = _ at hrun
  rw [oseidWrite, run_bind_of_ok rfl] at hrun
  rw [IoEvent.fifoOp, if_pos hat]
  split at hrun
  · next haddr =>
    rw [if_pos haddr]
    rw [oseidCommand] at hrun
    split at hrun
    · next hval =>
      cases hrun
      rcases hval with rfl | rfl
      · rfl
      · rfl
    · next hval =>
      rw [if_neg fun h => hval (.inl h), if_neg fun h => hval (.inr h)]
      split at hrun
      · next hval =>
        cases hrun
        rw [if_pos hval]
        rfl
      · next hval =>
        rw [if_neg hval]
        split at hrun
        · next hval =>
          cases hrun
          rw [if_pos hval]
          rfl
        · next hval =>
          cases hrun
          rw [if_neg hval]
          rfl
  · next hctrl =>
    rw [if_neg hctrl]
    split at hrun
    · next haddr =>
      rw [if_pos haddr]
      cases hrun
      rfl
    · contradiction

/-- What a step other than a reset does to the OsEID -/
theorem IoStep.oseid
    {e : IoEvent} {p q : Peripherals} (hstep : IoStep e p q) (hreset : e.resets .oseid p = false) :
  q.oseid = p.oseid.apply (e.fifoOp p)
  := by
  cases hstep with
  | @read addr val _ _ h =>
    by_cases hat : p.vdevAt addr = some .oseid
    · exact (oseid_read hat h).1
    · rw [IoEvent.fifoOp, if_neg fun h => hat h.1]
      apply oseid_part.read _ h
      intro d hd
      cases d <;> simp_all [IoVDev.readReach]
  | @write addr val _ _ h =>
    by_cases hat : p.vdevAt addr = some .oseid
    · exact oseid_write hat h
    · rw [IoEvent.fifoOp, if_neg hat]
      apply oseid_part.write _ h
      intro d hd
      cases d <;> simp_all [IoVDev.reach]
  | @reset addr =>
    have hne : p.vdevAt addr ≠ some .oseid := of_decide_eq_false hreset
    apply oseid_part.reset
    intro d hd
    cases d <;> simp_all [IoVDev.reach]
  | tick h =>
    obtain ⟨r, s, hpass, rfl⟩ := (IoStep.tick h).tick_pass
    exact ((pass_keeps fun g _ => callback_oseid p.oseid _ g).of_ok rfl hpass).1
  | async h =>
    obtain ⟨time, world, r, s, hpass, rfl⟩ := (IoStep.async h).async_pass
    exact ((pass_keeps fun g _ => callback_oseid p.oseid _ g).of_ok
      (s := { p with world := world }) rfl hpass).1

/-- The byte that a read returns -/
def IoEvent.returned (p : Peripherals) : IoEvent → Option Byte
  | .read addr => ((devRead addr).run p).toOption.map Prod.fst
  | _ => none

/-- The bytes pushed and the bytes popped since the last clear, after an event; a load clears the
FIFO and pushes the bytes of the line, up to its capacity. -/
def fifoLog (l : List Byte × List Byte) (x : Peripherals × IoEvent) : List Byte × List Byte :=
  match x.2.fifoOp x.1 with
  | .pop => (l.1, l.2 ++ (x.2.returned x.1).toList)
  | .push val => (l.1 ++ [val], l.2)
  | .clear | .display | .random _ => ([], [])
  | .load line => (line.bytes.take fifoLen, [])
  | .none => l

/-- A pop returns the first byte of the array. -/
theorem fifoLog_step
    {e : IoEvent} {p q : Peripherals} (hstep : IoStep e p q) (l : List Byte × List Byte) :
  fifoLog l (p, e) = p.oseid.log (e.fifoOp p) l
  := by
  rw [fifoLog]
  cases hop : e.fifoOp p with
  | pop =>
    have hreturned : e.returned p = some (p.oseid.fifo 0) := by
      cases hstep with
      | @read addr val _ _ h =>
        have hat : p.vdevAt addr = some .oseid := by
          rw [IoEvent.fifoOp] at hop
          split at hop
          · next hat => exact hat.1
          · contradiction
        rw [IoEvent.returned, h, ← (oseid_read hat h).2 hop]
        rfl
      | write =>
        rw [IoEvent.fifoOp] at hop
        split_ifs at hop
      | reset => contradiction
      | tick => contradiction
      | async => contradiction
    change (l.1, l.2 ++ (e.returned p).toList) = _
    rw [hreturned]
    rfl
  | _ => rfl

/-- The FIFO is a bounded queue along a path: its length is at most `FIFO_LEN`, the operations use
places of its array only, and the bytes popped, followed by those in the FIFO, are the bytes
pushed since the last clear. -/
structure BoundedFifo (p : Peripherals) (taken : List (Peripherals × IoEvent)) (q : Peripherals) :
    Prop where
  flen : ∀ x ∈ taken, x.1.oseid.flen.toNat ≤ fifoLen
  last : q.oseid.flen.toNat ≤ fifoLen
  places : ∀ x ∈ taken, ∀ i ∈ x.1.oseid.places (x.2.fifoOp x.1), i < fifoLen
  inOrder : q.oseid.InOrder (taken.foldl fifoLog (p.oseid.contents, []))

section

variable {p q : Peripherals} {taken : List (Peripherals × IoEvent)}

/-- A path of operations that fit -/
theorem fifo_path
    (hpath : Path IoStep p taken q) (hreset : ∀ x ∈ taken, x.2.resets .oseid x.1 = false)
    (hstart : p.oseid.flen.toNat ≤ fifoLen)
    (hfits : ∀ x ∈ taken, x.1.oseid.Fits (x.2.fifoOp x.1)) {l : List Byte × List Byte}
    (hl : p.oseid.InOrder l) :
  (∀ x ∈ taken, x.1.oseid.flen.toNat ≤ fifoLen) ∧ q.oseid.flen.toNat ≤ fifoLen
    ∧ (∀ x ∈ taken, ∀ i ∈ x.1.oseid.places (x.2.fifoOp x.1), i < fifoLen)
    ∧ q.oseid.InOrder (taken.foldl fifoLog l)
  := by
  induction hpath generalizing l with
  | nil => exact ⟨List.forall_mem_nil _, hstart, List.forall_mem_nil _, hl⟩
  | cons hst _ ih =>
    rw [List.forall_mem_cons] at hreset hfits
    obtain ⟨hinOrder, hbound, hplaces⟩ := Oseid.apply_fits hstart hfits.1 hl
    rw [← hst.oseid hreset.1] at hinOrder hbound
    rw [← fifoLog_step hst] at hinOrder
    obtain ⟨hflen, hlast, hrest, hend⟩ := ih hreset.2 hbound hfits.2 hinOrder
    rw [List.forall_mem_cons, List.forall_mem_cons]
    exact ⟨⟨hstart, hflen⟩, hlast, ⟨hplaces, hrest⟩, hend⟩

/-- Along a path that keeps the bound, all operations fit. -/
theorem fifo_bound
    (hpath : Path IoStep p taken q) (hreset : ∀ x ∈ taken, x.2.resets .oseid x.1 = false)
    (hflen : ∀ x ∈ taken, x.1.oseid.flen.toNat ≤ fifoLen) (hlast : q.oseid.flen.toNat ≤ fifoLen) :
  ∀ x ∈ taken, x.1.oseid.Fits (x.2.fifoOp x.1)
  := by
  induction hpath with
  | nil => apply List.forall_mem_nil
  | cons hst hpath ih =>
    rw [List.forall_mem_cons] at hreset hflen ⊢
    refine ⟨?_, ih hreset.2 hflen.2 hlast⟩
    have hnext := hpath.first (I := fun s => s.oseid.flen.toNat ≤ fifoLen) ⟨hflen.2, hlast⟩
    rw [hst.oseid hreset.1] at hnext
    exact (Oseid.apply_bound_iff hflen.1).mp hnext

/-- The FIFO is a bounded queue along a path exactly if no byte is popped while it is empty and
none is pushed while it is full. -/
theorem oseid_fifo
    (hstart : p.oseid.flen.toNat ≤ fifoLen) (hpath : Path IoStep p taken q)
    (hreset : ∀ x ∈ taken, x.2.resets .oseid x.1 = false) :
  BoundedFifo p taken q ↔ ∀ x ∈ taken, x.1.oseid.Fits (x.2.fifoOp x.1)
  := by
  constructor
  · intro h
    exact fifo_bound hpath hreset h.flen h.last
  · intro hfits
    obtain ⟨hflen, hlast, hplaces, hinOrder⟩ := fifo_path hpath hreset hstart hfits
      (l := (p.oseid.contents, [])) rfl
    exact ⟨hflen, hlast, hplaces, hinOrder⟩

end

/-- An OsEID with FIFO at the address 0x60 -/
def oseidPeripherals : Peripherals :=
  { (default : Peripherals) with
    vdevAt := fun addr => if addr = 0x60 ∨ addr = 0x61 then some .oseid else none
    oseid := { (default : Oseid) with addr := 0x60 } }

/-- A pop of the empty FIFO after the command 3 -/
theorem oseid_fifo_wraps :
  ∃ taken q, Path IoStep oseidPeripherals taken q ∧ (∀ x ∈ taken, x.2.resets .oseid x.1 = false)
    ∧ taken.map Prod.snd = [.write 0x61 3, .read 0x60] ∧ q.oseid.flen = 65535
    ∧ ¬ BoundedFifo oseidPeripherals taken q
  := by
  have hflen : (exec IoEvent.next (fun p e => !e.resets .oseid p) [.write 0x61 3, .read 0x60]
      oseidPeripherals).map (·.oseid.flen) = some 65535 := by decide +kernel
  obtain ⟨q, hq, hflen⟩ := Option.map_eq_some_iff.mp hflen
  obtain ⟨taken, hpath, hevents, hcheck⟩ := exec_path_events IoStep.of_next hq
  use taken, q, hpath, fun x hx => (Bool.not_eq_true' _).mp (hcheck x hx), hevents, hflen
  intro h
  have hlast := h.last
  rw [hflen] at hlast
  contradiction

/-- Two bytes are pushed and one is popped. -/
theorem oseid_fifo_push_pop :
  ∃ taken q, Path IoStep oseidPeripherals taken q
    ∧ taken.map Prod.snd = [.write 0x60 7, .write 0x60 8, .read 0x60]
    ∧ BoundedFifo oseidPeripherals taken q
  := by
  obtain ⟨q, hq⟩ := Option.isSome_iff_exists.mp (show (exec IoEvent.next
    (fun p e => !e.resets .oseid p && decide (p.oseid.Fits (e.fifoOp p)))
    [.write 0x60 7, .write 0x60 8, .read 0x60] oseidPeripherals).isSome = true by decide +kernel)
  obtain ⟨taken, hpath, hevents, hcheck⟩ := exec_path_events IoStep.of_next hq
  have hcheck (x : Peripherals × IoEvent) (hx : x ∈ taken) :
      x.2.resets .oseid x.1 = false ∧ x.1.oseid.Fits (x.2.fifoOp x.1) := by
    have h := hcheck x hx
    rw [Bool.and_eq_true, Bool.not_eq_true', decide_eq_true_eq] at h
    exact h
  use taken, q, hpath, hevents
  exact (oseid_fifo (by decide) hpath fun x hx => (hcheck x hx).1).mpr fun x hx => (hcheck x hx).2

end SimulAvr
