import SimulAvr.Memory

/-!
# The EEPROM

The EEPROM as a device of the data space, and as the debugger reaches it, attached to a core
with other peripherals.
-/

namespace SimulAvr

/-- `EEprom` -/
structure EEprom where
  /-- The address of EECR, before those of EEDR, EEARL and EEARH. -/
  addr : Int
  eedr : Byte
  eearl : Byte
  eearh : Byte
  /-- 4096 bytes -/
  mem : Int → Byte

namespace EEprom

/-- `(ee->EEARH << 8 | ee->EEARL) & 0xfff` -/
def memAddr (ee : EEprom) : Int :=
  let adr : Word := ee.eearh ++ ee.eearl
  (adr &&& 0xfff).toNat

/-- `ee_read` -/
def read (addr : Int) (ee : EEprom) : Except DevError Byte :=
  if addr = ee.addr + 1 then
    .ok ee.eedr
  else if addr = ee.addr + 2 then
    .ok ee.eearl
  else if addr = ee.addr + 3 then
    .ok (ee.eearh &&& 15)
  else if addr = ee.addr then
    .ok 0
  else
    .error { fmt := "Bad address: 0x%04x", args := [addr] }

/-- `ee_write` -/
def write (addr : Int) (val : Byte) (ee : EEprom) : Except DevError EEprom :=
  if addr = ee.addr + 2 then
    .ok { ee with eearl := val }
  else if addr = ee.addr + 3 then
    .ok { ee with eearh := val }
  else if addr = ee.addr + 1 then
    .ok { ee with eedr := val }
  else if addr = ee.addr then
    if val = 1 then
      .ok { ee with eedr := ee.mem ee.memAddr }
    else if val &&& 2 ≠ 0 then
      .ok { ee with mem := Function.update ee.mem ee.memAddr ee.eedr }
    else
      .ok ee
  else
    .error { fmt := "Bad address: 0x%04x", args := [addr] }

/-- `gdb_ee_read` -/
def gdbRead (adr : Int) (ee : EEprom) : Byte :=
  if adr < 4096 then ee.mem adr else 0

/-- `gdb_ee_write` -/
def gdbWrite (adr : Int) (data : Byte) (ee : EEprom) : EEprom :=
  if adr < 4096 then { ee with mem := Function.update ee.mem adr data } else ee

end EEprom

/-- Peripherals with an EEPROM. -/
structure WithEEprom (δ : Type) where
  ee : EEprom
  io : δ

namespace WithEEprom

variable {δ : Type}

/-- The address is one of the registers of the EEPROM. -/
def IsEEprom (dev : WithEEprom δ) (addr : Int) : Prop :=
  dev.ee.addr ≤ addr ∧ addr ≤ dev.ee.addr + 3

instance (dev : WithEEprom δ) (addr : Int) : Decidable (dev.IsEEprom addr) :=
  inferInstanceAs (Decidable (_ ∧ _))

/-- The peripherals after a method of those other than the EEPROM. -/
def setIo (dev : WithEEprom δ) (io : δ) : WithEEprom δ :=
  { dev with io := io }

end WithEEprom

/-- `ee_reset` erases nothing. -/
instance {δ : Type} [IoDevices δ] : IoDevices (WithEEprom δ) where
  read addr dev :=
    if dev.IsEEprom addr then
      (dev.ee.read addr).map fun val => (val, dev)
    else
      (IoDevices.read addr dev.io).map fun r => (r.1, dev.setIo r.2)
  write addr val dev :=
    if dev.IsEEprom addr then
      (dev.ee.write addr val).map fun ee => { dev with ee := ee }
    else
      (IoDevices.write addr val dev.io).map dev.setIo
  reset addr dev :=
    if dev.IsEEprom addr then dev else dev.setIo (IoDevices.reset addr dev.io)
  gdbEeRead adr dev := dev.ee.gdbRead adr
  gdbEeWrite adr data dev := { dev with ee := dev.ee.gdbWrite adr data }
  clkCbExec ck dev :=
    (IoDevices.clkCbExec ck dev.io).map fun r => (dev.setIo r.1, r.2)
  asyncCbExec dev :=
    (IoDevices.asyncCbExec dev.io).map fun r => (dev.setIo r.1, r.2)

end SimulAvr
