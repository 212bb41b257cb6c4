import SimulAvr.Device
import SimulAvr.Lib.Runs
import SimulAvr.Oseid
import SimulAvr.Reset

/-!
# The cells of the EEPROM

The program reaches the cells of the EEPROM by strobes of EECR, at the address in EEARH and EEARL,
and the debugger reaches them by their addresses.  Both see one map of 4096 cells, each of which
holds what has been stored to it last.
-/

namespace SimulAvr

open Program Transition

/-! ### The registers and the cells -/

namespace EEprom

/-- `(EEARH:EEARL) mod 4096` -/
def cell (ee : EEprom) : Fin 4096 :=
  Fin.ofNat 4096 (256 * ee.eearh.toNat + ee.eearl.toNat)

theorem memAddr_eq
    (ee : EEprom) :
  ee.memAddr = ee.cell
  := by
  have hlow : ee.eearl.toNat < 2 ^ 8 := ee.eearl.isLt
  have happend : (ee.eearh ++ ee.eearl : Word).toNat = 256 * ee.eearh.toNat + ee.eearl.toNat := by
    rw [BitVec.toNat_append, ← Nat.shiftLeft_add_eq_or_of_lt hlow, Nat.shiftLeft_eq]
    omega
  change (((ee.eearh ++ ee.eearl : Word) &&& 0xfff).toNat : Int) = _
  rw [BitVec.toNat_and, happend]
  exact congrArg _ (Nat.and_two_pow_sub_one_eq_mod _ 12)

end EEprom

/-! ### Calls -/

/-- A call that reaches the EEPROM: an access to a register, one of the debugger to a cell, or a
reset of the core -/
inductive EepromCall where
  | read (addr : Int)
  | write (addr : Int) (val : Byte)
  | gdbRead (adr : Fin 4096)
  | gdbWrite (adr : Fin 4096) (data : Byte)
  | reset

namespace EepromCall

section

variable {δ : Type} [IoDevices δ]

/-- The call on a core, with the value that it returns -/
def exec : EepromCall → CoreM (WithEEprom δ) (Option Byte)
  | .read addr => return some (← ioRead addr)
  | .write addr val => do
    ioWrite addr val
    return none
  | .gdbRead adr => gets fun c => some (IoDevices.gdbEeRead adr c.dev)
  | .gdbWrite adr data => do
    update (fun c => { c with dev := IoDevices.gdbEeWrite adr data c.dev })
    return none
  | .reset => do
    update AvrCore.reset
    return none

/-- The step of a call -/
def Step (e : EepromCall) (c d : AvrCore (WithEEprom δ)) : Prop :=
  ∃ out, (exec e).run c = .ok (out, d)

end

/-- What the call stores to a cell: a strobe of EECR with bit 1 stores EEDR. -/
def stores (a : Fin 4096) (ee : EEprom) : EepromCall → Option Byte
  | .write addr val =>
    if addr = ee.addr ∧ val.getLsbD 1 = true ∧ ee.cell = a then some ee.eedr else none
  | .gdbWrite adr data => if adr = a then some data else none
  | _ => none

/-- What the call writes to the register at an offset from EECR -/
def writes (offset : Int) (ee : EEprom) : EepromCall → Option Byte
  | .write addr val => if addr = ee.addr + offset then some val else none
  | _ => none

/-- What the call loads into EEDR: EECR = 1 loads the cell. -/
def loads (ee : EEprom) : EepromCall → Option Byte
  | .write addr val =>
    if addr = ee.addr + 1 then
      some val
    else if addr = ee.addr ∧ val = 1 then
      some (ee.mem ee.cell)
    else
      none
  | _ => none

/-- The EEPROM after a call, in terms of what the call stores, writes and loads -/
structure Effect (e : EepromCall) (ee ee' : EEprom) : Prop where
  addr : ee'.addr = ee.addr
  mem : ∀ a : Fin 4096, ee'.mem a = (e.stores a ee).getD (ee.mem a)
  eearl : ee'.eearl = (e.writes 2 ee).getD ee.eearl
  eearh : ee'.eearh = (e.writes 3 ee).getD ee.eearh
  eedr : ee'.eedr = (e.loads ee).getD ee.eedr

/-- A call that gives nothing leaves the EEPROM. -/
theorem Effect.refl
    {e : EepromCall} {ee : EEprom} (hstores : ∀ a, e.stores a ee = none)
    (hwrites : ∀ offset, 0 < offset → offset ≤ 3 → e.writes offset ee = none)
    (hloads : e.loads ee = none) :
  Effect e ee ee
  := by
  constructor
  · rfl
  · intro a
    rw [hstores a]
    rfl
  · rw [hwrites 2 (by decide) (by decide)]
    rfl
  · rw [hwrites 3 (by decide) (by decide)]
    rfl
  · rw [hloads]
    rfl

/-- A write to another device leaves the EEPROM. -/
theorem Effect.write_other
    {addr : Int} {val : Byte} {ee : EEprom} (h : ¬ (ee.addr ≤ addr ∧ addr ≤ ee.addr + 3)) :
  Effect (.write addr val) ee ee
  := by
  apply Effect.refl
  · intro a
    apply if_neg
    omega
  · intro offset hpos hle
    apply if_neg
    omega
  · rw [loads, if_neg (by omega), if_neg (by omega)]

/-- Bit 1, as the code tests it -/
theorem and_two_ne_zero_iff
    (val : Byte) :
  val &&& 2 ≠ 0 ↔ val.getLsbD 1 = true
  := by
  revert val
  decide

/-- A write to a register of the EEPROM -/
theorem Effect.write
    {addr : Int} {val : Byte} {ee ee' : EEprom} (h : ee.write addr val = .ok ee') :
  Effect (.write addr val) ee ee'
  := by
  have hself (offset : Int) (hoffset : offset ≠ 0) : ¬ ee.addr + offset = ee.addr := by
    omega
  have hself' (offset : Int) (hoffset : offset ≠ 0) : ¬ ee.addr = ee.addr + offset := by
    omega
  rw [EEprom.write] at h
  split at h
  · next haddr =>
    subst haddr
    cases h
    constructor <;> simp [stores, writes, loads, hself]
  split at h
  · next haddr =>
    subst haddr
    cases h
    constructor <;> simp [stores, writes, loads, hself]
  split at h
  · next haddr =>
    subst haddr
    cases h
    constructor <;> simp [stores, writes, loads, hself]
  split at h
  · next haddr =>
    subst haddr
    split at h
    · next hval =>
      subst hval
      cases h
      constructor <;> simp [stores, writes, loads, hself', EEprom.memAddr_eq]
    split at h
    · next hval hbit =>
      rw [and_two_ne_zero_iff] at hbit
      cases h
      constructor
      · rfl
      · intro a
        rw [stores, EEprom.memAddr_eq]
        change Function.update ee.mem ee.cell ee.eedr a = _
        by_cases ha : ee.cell = a
        · rw [if_pos ⟨rfl, hbit, ha⟩, ha, Function.update_self]
          rfl
        · have hne : (a : Int) ≠ ee.cell := by
            intro heq
            apply ha
            omega
          rw [if_neg fun h => ha h.2.2, Function.update_of_ne hne]
          rfl
      · simp [writes, hself']
      · simp [writes, hself']
      · rw [loads, if_neg (hself' 1 (by decide)), if_neg fun h => hval h.2]
        rfl
    · next hval hbit =>
      rw [and_two_ne_zero_iff] at hbit
      cases h
      apply Effect.refl
      · exact fun a => if_neg fun h => hbit h.2.1
      · exact fun offset hpos _ => if_neg (hself' offset hpos.ne')
      · rw [loads, if_neg (hself' 1 (by decide)), if_neg fun h => hval h.2]
  · contradiction

section

variable {δ : Type} [IoDevices δ]

/-- The reset of a virtual device leaves the EEPROM. -/
theorem vdevReset_ee
    (c : AvrCore (WithEEprom δ)) (addr : Int) (vdev : VDevice) :
  (c.vdevReset addr vdev).dev.ee = c.dev.ee
  := by
  cases vdev with
  | gpwr =>
    obtain ⟨display, h⟩ := c.vdevReset_gpwr_eq addr
    rw [h]
  | io =>
    change (if _ then _ else _ : WithEEprom δ).ee = _
    split <;> rfl
  | _ => rfl

theorem memResetFrom_ee
    (c : AvrCore (WithEEprom δ)) (i n : Nat) :
  (c.memResetFrom i n).dev.ee = c.dev.ee
  := by
  induction n generalizing c i with
  | zero => rfl
  | succ n ih =>
    rw [AvrCore.memResetFrom]
    split
    · apply ih
    · apply Eq.trans (ih _ _)
      apply vdevReset_ee

/-- A reset of the core leaves the EEPROM. -/
theorem reset_ee
    (c : AvrCore (WithEEprom δ)) :
  c.reset.dev.ee = c.dev.ee
  := by
  obtain ⟨display, h⟩ := c.reset_eq
  rw [h]
  apply memResetFrom_ee

/-- A register that is read leaves the EEPROM. -/
theorem ioRead_ee
    {addr : Int} {val : Byte} {c d : AvrCore (WithEEprom δ)}
    (h : (ioRead addr).run c = .ok (val, d)) :
  d.dev.ee = c.dev.ee
  := by
  rw [ioRead, run_bind_of_ok (run_gets _ _)] at h
  obtain ⟨⟨val', dev⟩, c', hdev, h⟩ := run_bind_eq_ok.mp h
  cases h
  change (liftDev (if _ then _ else _)).run c = _ at hdev
  split at hdev
  · cases hread : c.dev.ee.read addr with
    | error e =>
      rw [hread] at hdev
      contradiction
    | ok val =>
      rw [hread] at hdev
      cases hdev
      rfl
  · cases hread : IoDevices.read addr c.dev.io with
    | error e =>
      rw [hread] at hdev
      contradiction
    | ok r =>
      rw [hread] at hdev
      cases hdev
      rfl

/-- A register that is written -/
theorem ioWrite_effect
    {addr : Int} {val : Byte} {c d : AvrCore (WithEEprom δ)}
    (h : (ioWrite addr val).run c = .ok ((), d)) :
  Effect (.write addr val) c.dev.ee d.dev.ee
  := by
  rw [ioWrite, run_bind_of_ok (run_gets _ _)] at h
  obtain ⟨dev, c', hdev, h⟩ := run_bind_eq_ok.mp h
  cases h
  change (liftDev (if _ then _ else _)).run c = _ at hdev
  split at hdev
  · cases hwrite : c.dev.ee.write addr val with
    | error e =>
      rw [hwrite] at hdev
      contradiction
    | ok ee =>
      rw [hwrite] at hdev
      cases hdev
      exact .write hwrite
  · next hee =>
    cases hwrite : IoDevices.write addr val c.dev.io with
    | error e =>
      rw [hwrite] at hdev
      contradiction
    | ok io =>
      rw [hwrite] at hdev
      cases hdev
      exact .write_other hee

theorem gdbEeWrite_ee
    {adr : Int} {data : Byte} {c d : AvrCore (WithEEprom δ)}
    (h : (update fun c => { c with dev := IoDevices.gdbEeWrite adr data c.dev }).run c = .ok ((), d)) :
  d.dev.ee = c.dev.ee.gdbWrite adr data
  := by
  cases h
  rfl

/-- A cell that the debugger writes -/
theorem Effect.gdbWrite
    (adr : Fin 4096) (data : Byte) (ee : EEprom) :
  Effect (.gdbWrite adr data) ee (ee.gdbWrite adr data)
  := by
  have hadr : (adr : Int) < 4096 := by
    omega
  rw [EEprom.gdbWrite, if_pos hadr]
  constructor
  · rfl
  · intro a
    change Function.update ee.mem adr data a = (if adr = a then some data else none).getD (ee.mem a)
    by_cases ha : adr = a
    · rw [if_pos ha, ha, Function.update_self]
      rfl
    · have hne : (a : Int) ≠ adr := by
        intro heq
        apply ha
        omega
      rw [if_neg ha, Function.update_of_ne hne]
      rfl
  · rfl
  · rfl
  · rfl

/-- A call does to the EEPROM what it stores, writes and loads. -/
theorem Step.effect
    {e : EepromCall} {c d : AvrCore (WithEEprom δ)} (h : e.Step c d) :
  Effect e c.dev.ee d.dev.ee
  := by
  obtain ⟨out, h⟩ := h
  cases e with
  | read addr =>
    obtain ⟨val, c', hread, h⟩ := run_bind_eq_ok.mp h
    cases h
    rw [ioRead_ee hread]
    exact .refl (fun _ => rfl) (fun _ _ _ => rfl) rfl
  | write addr val =>
    obtain ⟨⟨⟩, c', hwrite, h⟩ := run_bind_eq_ok.mp h
    cases h
    exact ioWrite_effect hwrite
  | gdbRead adr =>
    cases h
    exact .refl (fun _ => rfl) (fun _ _ _ => rfl) rfl
  | gdbWrite adr data =>
    obtain ⟨⟨⟩, c', hwrite, h⟩ := run_bind_eq_ok.mp h
    cases h
    rw [gdbEeWrite_ee hwrite]
    exact .gdbWrite adr data c.dev.ee
  | reset =>
    cases h
    rw [reset_ee]
    exact .refl (fun _ => rfl) (fun _ _ _ => rfl) rfl

/-- A read strobe -/
theorem exec_readStrobe
    (c : AvrCore (WithEEprom δ)) :
  ∃ d, (exec (.write c.dev.ee.addr 1)).run c = .ok (none, d)
    ∧ d.dev.ee.eedr = c.dev.ee.mem c.dev.ee.cell
  := by
  have hin : c.dev.IsEEprom c.dev.ee.addr := ⟨Int.le_refl _, Int.le_add_of_nonneg_right (by decide)⟩
  have hstrobe : c.dev.ee.write c.dev.ee.addr 1
      = .ok { c.dev.ee with eedr := c.dev.ee.mem c.dev.ee.cell } := by
    rw [EEprom.write, if_neg (by omega), if_neg (by omega), if_neg (by omega), if_pos rfl, if_pos rfl,
      EEprom.memAddr_eq]
  have hwrite : IoDevices.write c.dev.ee.addr 1 c.dev
      = .ok { c.dev with ee := { c.dev.ee with eedr := c.dev.ee.mem c.dev.ee.cell } } := by
    change (if _ then _ else _) = _
    rw [if_pos hin, hstrobe]
    rfl
  use { c with
    dev := { c.dev with ee := { c.dev.ee with eedr := c.dev.ee.mem c.dev.ee.cell } } }
  constructor
  · rw [exec, ioWrite, StateT.run_bind, run_bind_of_ok (run_gets _ _), hwrite]
    rfl
  · rfl

/-- The debugger reads a cell. -/
theorem exec_gdbRead
    (adr : Fin 4096) (c : AvrCore (WithEEprom δ)) :
  (exec (.gdbRead adr)).run c = .ok (some (c.dev.ee.mem adr), c)
  := by
  have hadr : (adr : Int) < 4096 := by
    omega
  have hread : c.dev.ee.gdbRead adr = c.dev.ee.mem adr := if_pos hadr
  rw [← hread]
  rfl

/-- In every run, a cell holds what has been stored to it last: a read strobe loads it and the
debugger reads it, a call changes no cell that it does not store to, and a reset changes none. -/
theorem oseid_eeprom_cells
    {c d : AvrCore (WithEEprom δ)} {taken : List (AvrCore (WithEEprom δ) × EepromCall)}
    (hpath : Path EepromCall.Step c taken d) :
  let last (a : Fin 4096) : Byte :=
    Path.lastGiven (fun s e => e.stores a s.dev.ee) taken (c.dev.ee.mem a)
  (∃ r, (exec (.write d.dev.ee.addr 1)).run d = .ok (none, r) ∧ r.dev.ee.eedr = last d.dev.ee.cell)
    ∧ (∀ a, (exec (.gdbRead a)).run d = .ok (some (last a), d))
    ∧ (∀ (e : EepromCall) r, e.Step d r → ∀ a : Fin 4096, e.stores a d.dev.ee = none →
        r.dev.ee.mem a = d.dev.ee.mem a)
    ∧ d.reset.dev.ee.mem = d.dev.ee.mem
    ∧ d.dev.ee.eearl = Path.lastGiven (fun s e => e.writes 2 s.dev.ee) taken c.dev.ee.eearl
    ∧ d.dev.ee.eearh = Path.lastGiven (fun s e => e.writes 3 s.dev.ee) taken c.dev.ee.eearh
    ∧ d.dev.ee.eedr = Path.lastGiven (fun s e => e.loads s.dev.ee) taken c.dev.ee.eedr
  := by
  intro last
  have hlast (a : Fin 4096) : d.dev.ee.mem a = last a :=
    Path.eq_lastGiven (fun _ _ _ hstep => hstep.effect.mem a) hpath
  split_ands
  · obtain ⟨r, hrun, hr⟩ := exec_readStrobe d
    use r, hrun
    rw [hr, hlast]
  · intro a
    rw [exec_gdbRead, hlast]
  · intro e r hstep a hnone
    rw [hstep.effect.mem a, hnone]
    rfl
  · rw [reset_ee]
  · exact Path.eq_lastGiven (fun _ _ _ hstep => hstep.effect.eearl) hpath
  · exact Path.eq_lastGiven (fun _ _ _ hstep => hstep.effect.eearh) hpath
  · exact Path.eq_lastGiven (fun _ _ _ hstep => hstep.effect.eedr) hpath

end

/-- The OsEID128 with an erased EEPROM -/
def oseid128 : AvrCore (WithEEprom Unit) :=
  AvrCore.construct defnOsEID128
    { ee := { addr := 0x3c, eedr := 0, eearl := 0, eearh := 0, mem := fun _ => 0xff }, io := () }

/-- A byte is written by a strobe, at an address whose upper bits are ignored, and read back. -/
theorem oseid_eeprom_cells_strobe :
  ∃ taken d, Path EepromCall.Step oseid128 taken d
    ∧ taken.map Prod.snd = [.write 0x3e 0x10, .write 0x3f 0xf0, .write 0x3d 0xab, .write 0x3c 2]
    ∧ (exec (.gdbRead 0x10)).run d = .ok (some 0xab, d)
  := by
  have hpath : Path EepromCall.Step oseid128 _ _ :=
    .cons (e := .write 0x3e 0x10) ⟨none, rfl⟩ (.cons (e := .write 0x3f 0xf0) ⟨none, rfl⟩
      (.cons (e := .write 0x3d 0xab) ⟨none, rfl⟩ (.cons (e := .write 0x3c 2) ⟨none, rfl⟩ (.nil _))))
  refine ⟨_, _, hpath, rfl, ?_⟩
  rw [(oseid_eeprom_cells hpath).2.1 0x10]
  congr 3

end EepromCall

end SimulAvr
