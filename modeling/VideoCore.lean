import VideoCore.Board
import VideoCore.Bus
import VideoCore.Config
import VideoCore.Config.Environment
import VideoCore.Diagnostic
import VideoCore.Dialog
import VideoCore.Directory
import VideoCore.Dispatch
import VideoCore.Emulator
import VideoCore.Emulator.Emulation
import VideoCore.Emulator.Layout
import VideoCore.Emulator.RegionAccess
import VideoCore.Emulator.SlotTable
import VideoCore.Fault
import VideoCore.Fault.Errno
import VideoCore.Firmware.MemoryFlags
import VideoCore.Firmware.Message
import VideoCore.Firmware.Tag
import VideoCore.GpuService
import VideoCore.GpuService.CommandReply
import VideoCore.GpuService.Job
import VideoCore.GpuService.Tracker
import VideoCore.Handle
import VideoCore.Hardware
import VideoCore.Info
import VideoCore.Info.Collect
import VideoCore.Info.Options
import VideoCore.Info.Report
import VideoCore.Linux
import VideoCore.Linux.Library
import VideoCore.Linux.Links
import VideoCore.Linux.Opening
import VideoCore.Linux.Records
import VideoCore.Mailbox
import VideoCore.Main
import VideoCore.Memory.Allocation
import VideoCore.Memory.Block
import VideoCore.Memory.Buffer
import VideoCore.Memory.Word
import VideoCore.Proofs.Attempt
import VideoCore.Proofs.Config.Environment
import VideoCore.Proofs.Dialog
import VideoCore.Proofs.Emulator.Access
import VideoCore.Proofs.Emulator.Buffers
import VideoCore.Proofs.Emulator.Farewell
import VideoCore.Proofs.Emulator.Kernels
import VideoCore.Proofs.Emulator.Ledger
import VideoCore.Proofs.Emulator.Margins
import VideoCore.Proofs.Emulator.Refinement
import VideoCore.Proofs.Emulator.Regions
import VideoCore.Proofs.Emulator.SlotMap
import VideoCore.Proofs.Emulator.Views
import VideoCore.Proofs.Emulator.Windows
import VideoCore.Proofs.GpuService.Answers
import VideoCore.Proofs.GpuService.Calls
import VideoCore.Proofs.GpuService.Completion
import VideoCore.Proofs.GpuService.Interleaving
import VideoCore.Proofs.GpuService.Numbers
import VideoCore.Proofs.GpuService.Rejection
import VideoCore.Proofs.GpuService.Tracking
import VideoCore.Proofs.Handle
import VideoCore.Proofs.Info.Activation
import VideoCore.Proofs.Info.Collecting
import VideoCore.Proofs.Info.EmulatedRuns
import VideoCore.Proofs.Linux.Activation
import VideoCore.Proofs.Linux.CacheRequests
import VideoCore.Proofs.Linux.Emulation
import VideoCore.Proofs.Linux.Facilities
import VideoCore.Proofs.Linux.Openers
import VideoCore.Proofs.Linux.Opening
import VideoCore.Proofs.Linux.Teardown
import VideoCore.Proofs.Mailbox.Allocation
import VideoCore.Proofs.Mailbox.Buffers
import VideoCore.Proofs.Mailbox.Calls
import VideoCore.Proofs.Mailbox.Echo
import VideoCore.Proofs.Mailbox.FailedCalls
import VideoCore.Proofs.Mailbox.MemoryProtocol
import VideoCore.Proofs.Mailbox.Messages
import VideoCore.Proofs.Mailbox.Power
import VideoCore.Proofs.Mailbox.Tenure
import VideoCore.Proofs.Session.Custody
import VideoCore.Proofs.Session.Emulation
import VideoCore.Proofs.Session.Holding
import VideoCore.Proofs.Session.Operations
import VideoCore.Proofs.Session.Phases
import VideoCore.Proofs.Session.Reach
import VideoCore.Proofs.Session.Run
import VideoCore.Proofs.Session.Teardown
import VideoCore.Proofs.SharedMemory.Allocation
import VideoCore.Proofs.SharedMemory.Balance
import VideoCore.Proofs.SharedMemory.PoolSize
import VideoCore.Proofs.System.Absence
import VideoCore.Proofs.System.Alignment
import VideoCore.Proofs.System.Breakdown
import VideoCore.Proofs.System.Encodings
import VideoCore.Proofs.System.Endings
import VideoCore.Proofs.System.Faults
import VideoCore.Proofs.System.Figures
import VideoCore.Proofs.System.Grants
import VideoCore.Proofs.System.HostCells
import VideoCore.Proofs.System.HostMemory
import VideoCore.Proofs.System.Misuse
import VideoCore.Proofs.System.Queries
import VideoCore.Proofs.System.Readings
import VideoCore.Proofs.System.Refusals
import VideoCore.Proofs.Trial
import VideoCore.Proofs.V3d.Accesses
import VideoCore.Proofs.V3d.Counters
import VideoCore.Proofs.V3d.Deadlines
import VideoCore.Proofs.V3d.Dispatch
import VideoCore.Proofs.V3d.ErrorFlags
import VideoCore.Proofs.V3d.LongLists
import VideoCore.Proofs.V3d.PowerGating
import VideoCore.Proofs.V3d.QueueStatus
import VideoCore.Proofs.V3d.Reservations
import VideoCore.Query
import VideoCore.Session
import VideoCore.SharedMemory
import VideoCore.SharedMemory.Cache
import VideoCore.SharedMemory.CmaPool
import VideoCore.System
import VideoCore.Text.Blank
import VideoCore.Text.Decimal
import VideoCore.Text.Json
import VideoCore.Text.Numeral
import VideoCore.Text.Utf8
import VideoCore.Time
import VideoCore.V3d
import VideoCore.V3d.Layout
import VideoCore.V3d.RegisterFile
import VideoCore.Proofs.SharedMemory.PoolSize
import VideoCore.Proofs.Emulator.RegionAccesses
import VideoCore.Proofs.V3d.QueueHistory
import VideoCore.Proofs.Emulator.Budget
