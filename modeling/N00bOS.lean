import N00bOS.FlatMemory
import N00bOS.Extents
import N00bOS.Config
import N00bOS.Heap
import N00bOS.HeapSpec
import N00bOS.HeapRuns
import N00bOS.Temporaries
import N00bOS.Paging
import N00bOS.PagingWalk
import N00bOS.LinkedList
import N00bOS.AddressSpaces
import N00bOS.AddressSpaceRuns
import N00bOS.TaskList
import N00bOS.Machine
import N00bOS.Kernel
import N00bOS.DiskStreamer
import N00bOS.Libc
import N00bOS.PathParser
import N00bOS.System
import N00bOS.Tasks
import N00bOS.Fat16
import N00bOS.File
import N00bOS.Processes
import N00bOS.KernelSpec
import N00bOS.StreamerSpec
import N00bOS.ClusterSpec
import N00bOS.OpenFiles
import N00bOS.FileReads
import N00bOS.DiskSlices
import N00bOS.FileConfinement
import N00bOS.GuardedWalk
import N00bOS.ClusterWalk
import N00bOS.ReadLengths
import N00bOS.Frames
import N00bOS.FileTable
import N00bOS.UseAfterClose
import N00bOS.Clients
import N00bOS.Interleaving
import N00bOS.Items
import N00bOS.PathWalk
import N00bOS.OpenClose
import N00bOS.Separated
import N00bOS.PathSyntax
import N00bOS.Blocks
import N00bOS.TaskRuns
import N00bOS.ProgramMapping
import N00bOS.LoadBinary
import N00bOS.LoadProcess
import N00bOS.Listing
import N00bOS.DirectoryScan
import N00bOS.LowItems
import N00bOS.DirectoryLoaders
import N00bOS.NameLookup
import N00bOS.SequentialReads
import N00bOS.DivisionSafety
import N00bOS.Resolve
import N00bOS.VolumeLayout
import N00bOS.RootScan
import N00bOS.ResolveStorage
import N00bOS.HeapEncoding
import N00bOS.DirectoryFree
import N00bOS.Copies
import N00bOS.Reflections
import N00bOS.Itoa
import N00bOS.Gdt
import N00bOS.Descriptors
import N00bOS.Comparisons
import N00bOS.StringOrders
import N00bOS.PathFree
import N00bOS.RejectedDisk
import N00bOS.Lines
import N00bOS.Terminal
import N00bOS.TerminalScreen
import N00bOS.TerminalColours
import N00bOS.Atoi
import N00bOS.Filenames
import N00bOS.AtaChannel
import N00bOS.Ata
import N00bOS.AtaSpec
import N00bOS.BootLoader
import N00bOS.Objects
import N00bOS.HeapObjects
import N00bOS.DescriptorRuns
import N00bOS.VolumeFrames
import N00bOS.PathMeaning
import N00bOS.OpenFile
import N00bOS.Mounting
import N00bOS.ReadBack
import N00bOS.Sessions
import N00bOS.SessionRuns
import N00bOS.Filesystems
import N00bOS.Startup
import N00bOS.Interrupts
