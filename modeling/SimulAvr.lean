import SimulAvr.MultiPrecision
import SimulAvr.Alu.Refinement
import SimulAvr.PcRange
import SimulAvr.Priority
import SimulAvr.InterruptReturn
import SimulAvr.Calls
import SimulAvr.GdbServer
import SimulAvr.BreakKept
import SimulAvr.BreakPersist
import SimulAvr.BreakStop
import SimulAvr.DataBounds
import SimulAvr.Decoder.Encoding
import SimulAvr.Decoder.Programs
import SimulAvr.HwStack
import SimulAvr.Transparent
import SimulAvr.CoreFootprint
import SimulAvr.Display
import SimulAvr.DisplayMirror
import SimulAvr.DisplayPipe
import SimulAvr.FlashProgramming
import SimulAvr.GdbBlocking
import SimulAvr.GdbKill
import SimulAvr.Sleep
import SimulAvr.InstructionAborts
import SimulAvr.GdbRobust
import SimulAvr.CoreDump
import SimulAvr.DList
import SimulAvr.FlashLoad
import SimulAvr.Lib.ArrayQueue
import SimulAvr.Lib.BitMask
import SimulAvr.Lib.CallbackList
import SimulAvr.PacketLengths
import SimulAvr.PageBuffer
import SimulAvr.Peripherals.Control
import SimulAvr.Peripherals.Dispatch
import SimulAvr.Peripherals.EepromWrites
import SimulAvr.Peripherals.OseidFifo
import SimulAvr.Peripherals.WatchdogLock
import SimulAvr.PointerWalks
import SimulAvr.RegisterIndices
import SimulAvr.Skips
import SimulAvr.Vcd
import SimulAvr.CorePeripherals
import SimulAvr.DListIterator
import SimulAvr.EepromCells
import SimulAvr.Peripherals.AdcInterrupt
import SimulAvr.Peripherals.LiveCallbacks
import SimulAvr.Peripherals.SpiTransfers
import SimulAvr.Peripherals.TimerCompare
import SimulAvr.Peripherals.UartRegisters
import SimulAvr.Peripherals.UartTransmit
import SimulAvr.TimerClock
import SimulAvr.InterruptService
import SimulAvr.Regress.Session
import SimulAvr.TestAsm
import SimulAvr.Regress.Suite
