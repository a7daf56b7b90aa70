import SaturnOS.Machinery.A64
import SaturnOS.Machinery.Bitmaps
import SaturnOS.Machinery.Bits
import SaturnOS.Machinery.Bytes
import SaturnOS.Machinery.Chains
import SaturnOS.Machinery.Cuts
import SaturnOS.Machinery.Drafts
import SaturnOS.Machinery.Loops
import SaturnOS.Machinery.Mixing
import SaturnOS.Machinery.Names
import SaturnOS.Machinery.Numerals
import SaturnOS.Machinery.Recents
import SaturnOS.Machinery.Rings
import SaturnOS.Machinery.Runs
import SaturnOS.Machinery.Scans
import SaturnOS.Machinery.Stretches
import SaturnOS.Machinery.Terminals
import SaturnOS.Machinery.Tilings
import SaturnOS.Machinery.Turns
import SaturnOS.Machinery.Words
import SaturnOS.Arch.Cpu
import SaturnOS.Arch.Mmu
import SaturnOS.Arch.Walk
import SaturnOS.Memory.AddressSpace
import SaturnOS.Memory.Audit
import SaturnOS.Memory.Execution
import SaturnOS.Memory.Heap
import SaturnOS.Memory.HeapAccounts
import SaturnOS.Memory.HeapAlign
import SaturnOS.Memory.HeapContents
import SaturnOS.Memory.HeapList
import SaturnOS.Memory.HeapMerged
import SaturnOS.Memory.HeapPages
import SaturnOS.Memory.HeapRoom
import SaturnOS.Memory.HeapRuns
import SaturnOS.Memory.HeapSizes
import SaturnOS.Memory.Identity
import SaturnOS.Memory.Isolation
import SaturnOS.Memory.Lookup
import SaturnOS.Memory.Pmm
import SaturnOS.Memory.Protection
import SaturnOS.Memory.UserRange
import SaturnOS.Memory.UserTables
import SaturnOS.Memory.Validation
import SaturnOS.Memory.Vm
import SaturnOS.Sched.Admission
import SaturnOS.Sched.Arguments
import SaturnOS.Sched.Choices
import SaturnOS.Sched.Creation
import SaturnOS.Sched.Deadlines
import SaturnOS.Sched.Effects
import SaturnOS.Sched.Endings
import SaturnOS.Sched.Files
import SaturnOS.Sched.Lives
import SaturnOS.Sched.Ownership
import SaturnOS.Sched.Preemption
import SaturnOS.Sched.Privacy
import SaturnOS.Sched.Records
import SaturnOS.Sched.RoundRobin
import SaturnOS.Sched.Scheduler
import SaturnOS.Sched.Sessions
import SaturnOS.Sched.Sleep
import SaturnOS.Sched.SleepTime
import SaturnOS.Sched.Slots
import SaturnOS.Sched.Stacks
import SaturnOS.Sched.System
import SaturnOS.Sched.Table
import SaturnOS.Sched.Task
import SaturnOS.Sched.Windows
import SaturnOS.User.Access
import SaturnOS.User.Buffers
import SaturnOS.User.Builtins
import SaturnOS.User.Descriptors
import SaturnOS.User.El0
import SaturnOS.User.Entry
import SaturnOS.User.Exceptions
import SaturnOS.User.Executable
import SaturnOS.User.FilePrograms
import SaturnOS.User.Format
import SaturnOS.User.Launch
import SaturnOS.User.Masks
import SaturnOS.User.Mode
import SaturnOS.User.Os
import SaturnOS.User.Outcomes
import SaturnOS.User.Programs
import SaturnOS.User.Return
import SaturnOS.User.Roots
import SaturnOS.User.Selectors
import SaturnOS.User.Sites
import SaturnOS.User.Staging
import SaturnOS.User.Streams
import SaturnOS.User.Suspension
import SaturnOS.User.Syscalls
import SaturnOS.Fs.Backends
import SaturnOS.Fs.Contents
import SaturnOS.Fs.Corruption
import SaturnOS.Fs.Durable
import SaturnOS.Fs.Exact
import SaturnOS.Fs.Failing
import SaturnOS.Fs.FileMap
import SaturnOS.Fs.Files
import SaturnOS.Fs.Listing
import SaturnOS.Fs.Mount
import SaturnOS.Fs.Namespace
import SaturnOS.Fs.Path
import SaturnOS.Fs.PowerLoss
import SaturnOS.Fs.Residue
import SaturnOS.Fs.Sfs
import SaturnOS.Fs.Vfs
import SaturnOS.Drivers.Completion
import SaturnOS.Drivers.Console
import SaturnOS.Drivers.Framebuffer
import SaturnOS.Drivers.KeyEvents
import SaturnOS.Drivers.Keyboard
import SaturnOS.Drivers.Rendering
import SaturnOS.Drivers.VirtioBlk
import SaturnOS.Shell.Commands
import SaturnOS.Shell.Editing
import SaturnOS.Shell.Editor
import SaturnOS.Shell.History
import SaturnOS.Shell.Kprintf
import SaturnOS.Shell.Numbers
import SaturnOS.Shell.Session
import SaturnOS.Shell.Writes
import SaturnOS.Drivers.BringUp
