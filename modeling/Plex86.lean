import Plex86.Logic.Outcome
import Plex86.Logic.Run
import Plex86.Logic.BoundedQueue
import Plex86.Logic.Bytes
import Plex86.Logic.Numerals
import Plex86.Machine.PageEntry
import Plex86.Machine.Cpu
import Plex86.Machine.Vm
import Plex86.Host.PinQueue
import Plex86.Host.PinHistory
import Plex86.Paging.Window
import Plex86.Paging.WindowSpec
import Plex86.Paging.PageTables
import Plex86.Paging.GuestTables
import Plex86.Paging.Settled
import Plex86.Paging.WalkSpec
import Plex86.Paging.Heap
import Plex86.Host.Startup
import Plex86.Host.RegisterCheck
import Plex86.Host.Register
import Plex86.Host.RegisterSpec
import Plex86.Paging.MapSpec
import Plex86.Paging.HeapRun
import Plex86.Paging.Entries
import Plex86.Paging.MapLinSpec
import Plex86.Paging.FaultMapping
import Plex86.Paging.PageWalk
import Plex86.Emulate.Memory
import Plex86.Emulate.MemorySpec
import Plex86.Emulate.Control
import Plex86.Emulate.Io
import Plex86.Emulate.PicRun
import Plex86.Emulate.PicInit
import Plex86.Emulate.PitRun
import Plex86.Emulate.Ticks
import Plex86.Emulate.Return
import Plex86.Emulate.ControlSpec
import Plex86.Logic.Behaviour
import Plex86.Emulate.Guest
import Plex86.Emulate.StackFrame
import Plex86.Emulate.InterruptFrame
import Plex86.Emulate.GuestSpec
import Plex86.Emulate.GuestBytes
import Plex86.Emulate.Accessors
import Plex86.Emulate.Walkers
import Plex86.Emulate.InterruptSpec
import Plex86.Emulate.ReturnSpec
import Plex86.Host.Execute
import Plex86.Logic.Allotment
import Plex86.Host.Layout
import Plex86.Host.Lifecycle
import Plex86.Host.LifecycleRun
import Plex86.Host.Holdings
import Plex86.Host.GiveBack
import Plex86.Host.Balance
import Plex86.Monitor.Fault
import Plex86.Monitor.FaultSpec
import Plex86.Monitor.System
import Plex86.Monitor.SystemSpec
import Plex86.Monitor.TrapSpec
import Plex86.Monitor.Origin
import Plex86.Monitor.Replay
import Plex86.Monitor.Confinement
import Plex86.Monitor.DeviceFrame
import Plex86.Monitor.Moves
import Plex86.Monitor.FlagsRun
import Plex86.Monitor.InterruptReturn
import Plex86.Monitor.Acceptance
import Plex86.Monitor.Segments
import Plex86.Monitor.SegmentsRun
import Plex86.Monitor.Reflection
import Plex86.Monitor.GuestRights
import Plex86.Monitor.Windows
import Plex86.Monitor.Progress
import Plex86.Boot.Bootloader
import Plex86.Boot.HandOver
import Plex86.Boot.LoadImage
import Plex86.Hal.ConsoleStream
import Plex86.Hal.DiskBounds
import Plex86.Hal.Channels
import Plex86.Hal.DiskSectors
import Plex86.Hal.DiskFiles
import Plex86.Hal.WakeUp
import Plex86.Hal.TearDown
import Plex86.Guest.DiskDriver
import Plex86.Guest.NetDriver
import Plex86.Guest.PacketDelivery
import Plex86.Nexus.Format
import Plex86.Nexus.FormatSpec
import Plex86.Nexus.FormatRun
import Plex86.Nexus.FormatExact
import Plex86.Monitor.Print
import Plex86.Emulate.Devices
import Plex86.Monitor.Instruction
import Plex86.Monitor.InstructionSpec
import Plex86.Monitor.InstructionLength
import Plex86.Monitor.WordOut
import Plex86.Paging.Spared
import Plex86.Monitor.RomWrites
import Plex86.Monitor.RomRun
import Plex86.Monitor.GuestFault
import Plex86.Monitor.HandlerSteps
import Plex86.Monitor.MachineRun
import Plex86.Monitor.UserFault
