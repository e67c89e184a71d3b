import BestKernel.Library.Runs
import BestKernel.Library.SlotQueue
import BestKernel.Library.Ledger
import BestKernel.Library.Loops
import BestKernel.Library.Words
import BestKernel.Library.Counting
import BestKernel.Library.Roster
import BestKernel.Library.Locks
import BestKernel.Mem.PageTree
import BestKernel.Mem.Walk
import BestKernel.Mem.Layout
import BestKernel.Mem.Translation
import BestKernel.Mem.Regions
import BestKernel.Mem.Bitmap
import BestKernel.Mem.FrameRuns
import BestKernel.Mem.Swap
import BestKernel.Mem.Segments
import BestKernel.Mem.SegmentDecoding
import BestKernel.Mem.ConcurrentMalloc
import BestKernel.Mem.EntryMode
import BestKernel.Mem.FrameSearch
import BestKernel.Mem.FrameSearchExact
import BestKernel.Mem.TreeLevels
import BestKernel.Mem.Signatures
import BestKernel.Mem.Lookup
import BestKernel.Mem.Release
import BestKernel.Mem.Reallocation
import BestKernel.Mem.IdentityMap
import BestKernel.Mem.SwapSelection
import BestKernel.Kontrol.Hash
import BestKernel.Kontrol.Pools
import BestKernel.Kontrol.Calendar
import BestKernel.Kontrol.LockDiscipline
import BestKernel.Sched.Selection
import BestKernel.Sched.NextThread
import BestKernel.Sched.Exclusion
import BestKernel.Sched.ContextSwitch
import BestKernel.Sched.Signals
import BestKernel.Sched.SignalMasks
import BestKernel.Sched.Overrides
import BestKernel.Vfs.FileMapping
import BestKernel.Vfs.Calls
import BestKernel.Vfs.Listeners
import BestKernel.Vfs.Writeback
import BestKernel.Vfs.TreeTeardown
import BestKernel.Vfs.MapUnmap
import BestKernel.Syscalls.Descriptors
import BestKernel.Syscalls.Files
import BestKernel.Syscalls.UserBuffers
import BestKernel.Syscalls.MemoryAccounting
import BestKernel.Syscalls.FileBounds
import BestKernel.Syscalls.Streams
import BestKernel.Filesystem.Tree
import BestKernel.Filesystem.Paths
import BestKernel.Filesystem.Open
import BestKernel.Filesystem.Removal
import BestKernel.Filesystem.References
import BestKernel.Filesystem.OpenCounts
import BestKernel.Filesystem.Permissions
import BestKernel.Filesystem.Chroot
import BestKernel.Filesystem.Mount
import BestKernel.Processes.Exec
import BestKernel.Processes.Teardown
import BestKernel.Processes.Workers
import BestKernel.Processes.SystemCalls
import BestKernel.Processes.Ownership
import BestKernel.Processes.Exhaustion
import BestKernel.Processors.BringUp
import BestKernel.Processors.InterruptTable
import BestKernel.Devices.Vectors
import BestKernel.Devices.Enumeration
import BestKernel.Kontrol.Sections
import BestKernel.Kontrol.Resizing
import BestKernel.Processes.BloodLibel
import BestKernel.Sched.Polling
import BestKernel.Vfs.FmapBounds
import BestKernel.Syscalls.DiskPackets
import BestKernel.Vfs.PageCache
import BestKernel.Filesystem.Names
import BestKernel.Filesystem.WholeMounts
import BestKernel.Library.Promotion
import BestKernel.Syscalls.Clock
import BestKernel.Sched.Sleep
import BestKernel.Processes.Checksum
import BestKernel.Processes.Stacks
import BestKernel.Processes.ProgramMapping
import BestKernel.Library.Indexed
import BestKernel.Devices.Redirection
import BestKernel.Devices.LineRouting
import BestKernel.Devices.ConfigPorts
import BestKernel.Devices.AcpiTables
import BestKernel.Devices.Madt
import BestKernel.Processes.Signalling
import BestKernel.Processes.ModuleCalls
import BestKernel.Boot.FirmwareCall
import BestKernel.Boot.MemoryMap
import BestKernel.Boot.DriverList
import BestKernel.Drivers.ModuleRemoval
import BestKernel.Drivers.TypePaths
import BestKernel.Drivers.ModuleInsertion
import BestKernel.Devices.BaseRegisters
import BestKernel.Devices.RangeDecoding
import BestKernel.Library.Rounding
import BestKernel.Mem.FrameMarking
import BestKernel.Mem.LayoutOffsets
import BestKernel.Mem.Rounding
import BestKernel.Kontrol.PointerSections
import BestKernel.Library.Paging
import BestKernel.Mem.Rewriting
import BestKernel.Processes.AddressSpace
import BestKernel.Processes.UserAccess
import BestKernel.Library.Overlay
import BestKernel.Processors.ApicTimer
import BestKernel.Boot.DriverStart
import BestKernel.Processes.Identity
import BestKernel.Processes.SlotReuse
import BestKernel.Processors.BringUpSilence
import BestKernel.Sched.Waiting
import BestKernel.Filesystem.PartitionTables
import BestKernel.Filesystem.ReachedFiles
import BestKernel.Processes.Lasting
import BestKernel.Library.LittleEndian
import BestKernel.Sched.Stopping
import BestKernel.Syscalls.Metadata
import BestKernel.Kontrol.LockOrder
import BestKernel.Devices.PortSharing
import BestKernel.Syscalls.Returning
