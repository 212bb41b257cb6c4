import SimulAvr.Peripherals.Touches

/-!
# Ports, USB and the FIFO of the OsEID

The methods of the devices without callbacks: the ports, the registers of the USB and the FIFO
between the OsEID and the terminal.
-/

namespace SimulAvr

/-! ### Ports -/

/-- A change of a port. -/
def setPort (n : Nat) (f : Port → Port) : DevM Unit :=
  setDev fun p => { p with port := Function.update p.port n (f (p.port n)) }

/-- `port_reg_read`, where the pins read 0 -/
def portRegRead (n : Nat) (addr : Int) : DevM Byte := do
  let ports ← getDev Peripherals.port
  if addr = (ports n).ddrAddr then
    return (ports n).ddr
  else if addr = (ports n).pinAddr then
    return 0 &&& ~~~(ports n).ddr
  else if addr = (ports n).portAddr then
    return (ports n).port
  else
    devError "Invalid Port Address: 0x%02x" [addr]

/-- `port_reg_write` -/
def portRegWrite (n : Nat) (addr : Int) (val : Byte) : DevM Unit := do
  let ports ← getDev Peripherals.port
  if addr = (ports n).pinAddr then
    -- PINx is readonly
    return ()
  else if addr = (ports n).ddrAddr then
    setPort n fun port => { port with ddr := val }
  else if addr = (ports n).portAddr then
    setPort n fun port => { port with port := val }
  else
    devError "Invalid Port Address: 0x%02x" [addr]

/-- `port_reset` -/
def portReset (n : Nat) (p : Peripherals) : Peripherals :=
  { p with port := Function.update p.port n { p.port n with port := 0, ddr := 0 } }

/-! ### USB interrupts -/

/-- A register of the USB interrupts gets a value. -/
def setUSBIntrReg (r : USBIntrReg) (val : Byte) : DevM Unit :=
  setDev fun p =>
    { p with usbIntr := { p.usbIntr with reg := Function.update p.usbIntr.reg r val } }

/-- `usb_intr_read` -/
def usbIntrRead (addr : Int) : DevM Byte := do
  let usb ← getDev Peripherals.usbIntr
  match usb.regAt addr with
  | none | some .uiar => devError "Bad address: 0x%04x" [addr]
  | some .uisr => do
    let val ← usbPortRd
    setUSBIntrReg .uisr val
    return val
  | some .sprsr => do
    let val ← usbPortRd
    setUSBIntrReg .sprsr val
    return val
  | some r => return usb.reg r

/-- `usb_intr_write` -/
def usbIntrWrite (addr : Int) (val : Byte) : DevM Unit := do
  let usb ← getDev Peripherals.usbIntr
  match usb.regAt addr with
  | none | some .uisr | some .sprsr => devError "Bad address: 0x%04x" [addr]
  | some r => setUSBIntrReg r val

/-- `usb_intr_reset` -/
def usbIntrReset (p : Peripherals) : Peripherals :=
  let reg := Function.update p.usbIntr.reg .sprsr 0
  { p with usbIntr := { p.usbIntr with reg := Function.update reg .uisr 0 } }

/-! ### USB -/

/-- `RX_SETUP` -/
abbrev rxSetup : Byte := 0x04

/-- A register of the USB gets a value. -/
def setUSBReg (r : USBReg) (val : Byte) : DevM Unit :=
  setDev fun p => { p with usb := { p.usb with reg := Function.update p.usb.reg r val } }

/-- A read of a register that has the outside world behind it. -/
def usbReadPort (r : USBReg) : DevM Byte := do
  let val ← usbPortRd
  setUSBReg r val
  return val

/-- A read of the control and status register `r` of endpoint 0, whose count of bytes a setup
packet changes. -/
def usbReadEndpoint0 (r count : USBReg) : DevM Byte := do
  let val ← usbReadPort r
  devIf (val &&& rxSetup ≠ 0) (setUSBReg count 10)
  return val

/-- `usb_read` -/
def usbRead (addr : Int) : DevM Byte := do
  let usb ← getDev Peripherals.usb
  match usb.regAt addr with
  | none => devError "Bad address: 0x%04x" [addr]
  | some (.fcsr n) =>
    if n = 0 then usbReadEndpoint0 (.fcsr 0) (.fbyteCnt 0) else usbReadPort (.fcsr n)
  | some .hcsr0 => usbReadEndpoint0 .hcsr0 .hbyteCnt0
  | some (.fdr n) => usbReadPort (.fdr n)
  | some .hdr0 => usbReadPort .hdr0
  | some r => return usb.reg r

/-- A write to the control register `r` of an endpoint, with its status register and its count
of bytes. -/
def usbWriteControl (r status count : USBReg) (val : Byte) : DevM Unit := do
  let usb ← getDev Peripherals.usb
  setUSBReg r val
  setUSBReg status (usb.reg status &&& ~~~val)
  setUSBReg count 0

/-- A write to the data register `r` of an endpoint, with its count of bytes. -/
def usbWriteData (r count : USBReg) (val : Byte) : DevM Unit := do
  let usb ← getDev Peripherals.usb
  setUSBReg r val
  setUSBReg count (usb.reg count + 1)

/-- `usb_write` -/
def usbWrite (addr : Int) (val : Byte) : DevM Unit := do
  let usb ← getDev Peripherals.usb
  match usb.regAt addr with
  | some .uovcer => setUSBReg .uovcer val
  | some .haddr => setUSBReg .haddr val
  | some .faddr => setUSBReg .faddr val
  | some .hstr => setUSBReg .hstr val
  | some .hpcon => setUSBReg .hpcon val
  | some (.fendpCntr n) => setUSBReg (.fendpCntr n) val
  | some (.hendpCntr n) => setUSBReg (.hendpCntr n) val
  | some (.fcar n) => usbWriteControl (.fcar n) (.fcsr n) (.fbyteCnt n) val
  | some .hcar0 => usbWriteControl .hcar0 .hcsr0 .hbyteCnt0 val
  | some (.fdr n) => usbWriteData (.fdr n) (.fbyteCnt n) val
  | some .hdr0 => usbWriteData .hdr0 .hbyteCnt0 val
  | _ => devError "Bad address: 0x%04x" [addr]

/-- The registers that `usb_reset` clears. -/
def usbResetRegs : List USBReg :=
  [.haddr, .faddr, .hstr, .hpcon, .uovcer]

/-- `usb_reset` -/
def usbReset (p : Peripherals) : Peripherals :=
  { p with
    usb := { p.usb with reg := fun r => if r ∈ usbResetRegs then 0 else p.usb.reg r } }

/-! ### The FIFO of the OsEID -/

namespace Oseid

/-- A byte goes to the place `flen` of the FIFO. -/
def put (o : Oseid) (val : Byte) : Oseid :=
  { o with fifo := Function.update o.fifo o.flen.toNat val, flen := o.flen + 1 }

/-- A byte is pushed, if the FIFO is not longer than its array.  After `FIFO_LEN` bytes the store is
beyond the array, where `flen` lies; of the store and the increment, the increment is the last. -/
def push (o : Oseid) (val : Byte) : Oseid :=
  if o.flen.toNat ≤ fifoLen then o.put val else o

/-- The first byte is taken from the FIFO, and the others move down. -/
def pop (o : Oseid) : Oseid :=
  { o with
    fifo := fun i => if i < fifoLen - 1 then o.fifo (i + 1) else o.fifo i
    flen := o.flen - 1 }

/-- The loop that loads the bytes of a line, until the FIFO is full -/
def loadBytes (o : Oseid) : List Byte → Oseid
  | [] => o
  | val :: vals => if fifoLen ≤ o.flen.toNat then o else (o.put val).loadBytes vals

/-- A line of the terminal is loaded into the empty FIFO. -/
def loadLine (o : Oseid) (line : OseidLine) : Oseid :=
  ({ o with flen := 0, protocol := line.protocol.getD o.protocol } : Oseid).loadBytes line.bytes

/-- A random byte is put into the FIFO, which is left empty. -/
def loadRandom (o : Oseid) (val : Byte) : Oseid :=
  { o with fifo := Function.update o.fifo 0 val, flen := 0 }

/-- What the register FIFOCTRL reads: the protocol, where a byte is available -/
def status (o : Oseid) : Byte :=
  if o.flen ≠ 0 then o.protocol else 0

end Oseid

/-- A change of the FIFO of the OsEID. -/
def setOseid (f : Oseid → Oseid) : DevM Unit :=
  setDev fun p => { p with oseid := f p.oseid }

/-- `oseid_read` -/
def oseidRead (addr : Int) : DevM Byte := do
  let o ← getDev Peripherals.oseid
  if addr = o.addr + 1 then
    return o.status
  else if addr = o.addr then
    setOseid Oseid.pop
    return o.fifo 0
  else
    devError "Bad address: 0x%04x" [addr]

/-- The commands that `oseid_write` gets in FIFOCTRL -/
def oseidCommand (val : Byte) : DevM Unit := do
  if val = 0 ∨ val = 1 then
    setOseid fun o => { o with flen := 0 }
  else if val = 2 then
    let line ← worldRead World.oseidLine fun w s => { w with oseidLine := s }
    setOseid fun o => o.loadLine line
  else if val = 3 then
    let rnd ← worldRead World.urandom fun w s => { w with urandom := s }
    setOseid fun o => o.loadRandom rnd
  else
    return ()

/-- `oseid_write` -/
def oseidWrite (addr : Int) (val : Byte) : DevM Unit := do
  let o ← getDev Peripherals.oseid
  if addr = o.addr + 1 then
    oseidCommand val
  else if addr = o.addr then
    setOseid fun o => o.push val
  else
    devError "Bad address: 0x%04x (want %x)" [addr, o.addr]

/-- `oseid_reset`, which clears the first 256 bytes of the array only -/
def oseidReset (p : Peripherals) : Peripherals :=
  { p with oseid := { p.oseid with fifo := fun i => if i < 256 then 0 else p.oseid.fifo i } }

/-! ### What the methods change -/

section

variable (addr : Int) (val : Byte) (n : Nat)

theorem setUSBIntrReg_touches
    (r : USBIntrReg) :
  Touches [.usbIntr] (setUSBIntrReg r val)
  := .set (.usbIntr (.head _) fun usb => { usb with reg := Function.update usb.reg r val })

theorem setUSBReg_touches
    (r : USBReg) :
  Touches [.usb] (setUSBReg r val)
  := .set (.usb (.head _) fun usb => { usb with reg := Function.update usb.reg r val })

theorem setOseid_touches
    (f : Oseid → Oseid) :
  Touches [.oseid] (setOseid f)
  := .set (.oseid (.head _) f)

theorem setPort_touches
    (f : Port → Port) :
  Touches [.port n] (setPort n f)
  := .set (.port (.head _) f)

theorem portRegRead_touches :
  Touches [] (portRegRead n addr)
  := .get fun _ => .ite (.pure _) (.ite (.pure _) (.ite (.pure _) (.error _ _)))

theorem portRegWrite_touches :
  Touches [.port n] (portRegWrite n addr val)
  := .get fun _ => .ite (.pure _) (.ite (setPort_touches n _)
    (.ite (setPort_touches n _) (.error _ _)))

theorem usbIntrRead_touches :
  Touches [.usbIntr] (usbIntrRead addr)
  := by
  apply Touches.get
  intro usb
  split
  · apply Touches.error
  · apply Touches.error
  · exact .bind (.world _ _) fun _ => .bind (setUSBIntrReg_touches _ _) fun _ => .pure _
  · exact .bind (.world _ _) fun _ => .bind (setUSBIntrReg_touches _ _) fun _ => .pure _
  · apply Touches.pure

theorem usbIntrWrite_touches :
  Touches [.usbIntr] (usbIntrWrite addr val)
  := by
  apply Touches.get
  intro usb
  split
  · apply Touches.error
  · apply Touches.error
  · apply Touches.error
  · apply setUSBIntrReg_touches

theorem usbReadPort_touches
    (r : USBReg) :
  Touches [.usb] (usbReadPort r)
  := .bind (.world _ _) fun _ => .bind (setUSBReg_touches _ _) fun _ => .pure _

theorem usbReadEndpoint0_touches
    (r count : USBReg) :
  Touches [.usb] (usbReadEndpoint0 r count)
  := .bind (usbReadPort_touches r) fun _ =>
    .bind (.devIf (setUSBReg_touches _ _)) fun _ => .pure _

theorem usbRead_touches :
  Touches [.usb] (usbRead addr)
  := by
  apply Touches.get
  intro usb
  split
  · apply Touches.error
  · exact .ite (usbReadEndpoint0_touches _ _) (usbReadPort_touches _)
  · apply usbReadEndpoint0_touches
  · apply usbReadPort_touches
  · apply usbReadPort_touches
  · apply Touches.pure

theorem usbWriteControl_touches
    (r status count : USBReg) :
  Touches [.usb] (usbWriteControl r status count val)
  := .get fun _ => .bind (setUSBReg_touches _ _) fun _ => .bind (setUSBReg_touches _ _) fun _ =>
    setUSBReg_touches _ _

theorem usbWriteData_touches
    (r count : USBReg) :
  Touches [.usb] (usbWriteData r count val)
  := .get fun _ => .bind (setUSBReg_touches _ _) fun _ => setUSBReg_touches _ _

theorem usbWrite_touches :
  Touches [.usb] (usbWrite addr val)
  := by
  apply Touches.get
  intro usb
  split
  all_goals first
    | apply setUSBReg_touches
    | apply usbWriteControl_touches
    | apply usbWriteData_touches
    | apply Touches.error

theorem oseidRead_touches :
  Touches [.oseid] (oseidRead addr)
  := .get fun _ => .ite (.pure _) (.ite (.bind (setOseid_touches _) fun _ => .pure _) (.error _ _))

theorem oseidCommand_touches :
  Touches [.oseid] (oseidCommand val)
  := .ite (setOseid_touches _) (.ite (.bind (.world _ _) fun _ => setOseid_touches _)
    (.ite (.bind (.world _ _) fun _ => setOseid_touches _) (.pure _)))

theorem oseidWrite_touches :
  Touches [.oseid] (oseidWrite addr val)
  := .get fun _ => .ite (oseidCommand_touches val) (.ite (setOseid_touches _) (.error _ _))

end

/-! ### What the resets change -/

theorem portReset_change
    (n : Nat) :
  Change [.port n] (portReset n)
  := .port (.head _) fun port => { port with port := 0, ddr := 0 }

theorem usbIntrReset_change :
  Change [.usbIntr] usbIntrReset
  := .usbIntr (.head _) fun usb =>
    { usb with reg := Function.update (Function.update usb.reg .sprsr 0) .uisr 0 }

theorem usbReset_change :
  Change [.usb] usbReset
  := .usb (.head _) fun usb =>
    { usb with reg := fun r => if r ∈ usbResetRegs then 0 else usb.reg r }

theorem oseidReset_change :
  Change [.oseid] oseidReset
  := .oseid (.head _) fun o => { o with fifo := fun i => if i < 256 then 0 else o.fifo i }

end SimulAvr
