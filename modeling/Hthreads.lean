import Hthreads.Library.BinaryPolynomials
import Hthreads.Library.BitFields
import Hthreads.Library.Bram
import Hthreads.Library.ByteOrder
import Hthreads.Library.Cycles
import Hthreads.Library.Fifo
import Hthreads.Library.Ahead
import Hthreads.Library.FirstSet
import Hthreads.Library.Loops
import Hthreads.Library.Merging
import Hthreads.Library.Outcomes
import Hthreads.Library.Path
import Hthreads.Library.Program
import Hthreads.Library.Ranges
import Hthreads.Library.Rings
import Hthreads.Library.Recency
import Hthreads.Library.Rearrangements
import Hthreads.Library.Store
import Hthreads.Library.Patterns
import Hthreads.Library.Anchors
import Hthreads.Library.KeyedRounds
import Hthreads.Library.FermatWords
import Hthreads.Scheduler.Entries
import Hthreads.Scheduler.Encoder
import Hthreads.Scheduler.EncoderTiming
import Hthreads.Scheduler.Registers
import Hthreads.Scheduler.BusLogic
import Hthreads.Scheduler.QueueLogic
import Hthreads.Scheduler.Core
import Hthreads.Scheduler.Tables
import Hthreads.Scheduler.ReadyLists
import Hthreads.Scheduler.Removal
import Hthreads.Scheduler.Operations
import Hthreads.Scheduler.Transactions
import Hthreads.Scheduler.BusTransactions
import Hthreads.Scheduler.Commands
import Hthreads.Scheduler.Reset
import Hthreads.Scheduler.Runs
import Hthreads.Scheduler.Refinement
import Hthreads.Scheduler.Waiting
import Hthreads.Scheduler.Announcement
import Hthreads.Scheduler.Arbitration
import Hthreads.Scheduler.CleanMoves
import Hthreads.Scheduler.Front
import Hthreads.Scheduler.Preemption
import Hthreads.Scheduler.MallocLock
import Hthreads.Scheduler.MallocRuns
import Hthreads.Scheduler.SamePriority
import Hthreads.Scheduler.Serving
import Hthreads.ThreadManager.Registers
import Hthreads.ThreadManager.ThreadLogic
import Hthreads.ThreadManager.Core
import Hthreads.ThreadManager.Asking
import Hthreads.ThreadManager.Installing
import Hthreads.Cores.Composition
import Hthreads.Cores.Wires
import Hthreads.Cores.Books
import Hthreads.Cores.Transactions
import Hthreads.Cores.Runs
import Hthreads.Cores.Effects
import Hthreads.Cores.Allocator
import Hthreads.Cores.Allocation
import Hthreads.Cores.Lifetimes
import Hthreads.Cores.ChildRuns
import Hthreads.Cores.Dispatch
import Hthreads.Cores.DispatchResults
import Hthreads.Cores.ExitChecks
import Hthreads.Cores.Handshake
import Hthreads.Cores.Simulation
import Hthreads.Cores.Uniqueness
import Hthreads.Cores.WakeProtocol
import Hthreads.SyncManager.Entries
import Hthreads.SyncManager.Slave
import Hthreads.SyncManager.Commands
import Hthreads.SyncManager.Master
import Hthreads.SyncManager.WakeQueue
import Hthreads.SyncManager.Progress
import Hthreads.SyncManager.Delivery
import Hthreads.SyncManager.FifoMutexes
import Hthreads.SyncManager.Refinement
import Hthreads.SyncManager.Runs
import Hthreads.SyncManager.Ledger
import Hthreads.SyncManager.Histories
import Hthreads.SyncManager.Nesting
import Hthreads.CondVars.Core
import Hthreads.CondVars.UserLogic
import Hthreads.CondVars.Commands
import Hthreads.CondVars.Refinement
import Hthreads.CondVars.Transactions
import Hthreads.CondVars.Reset
import Hthreads.CondVars.Runs
import Hthreads.CondVars.Messenger
import Hthreads.CondVars.Delivery
import Hthreads.CondVars.SyncFifo
import Hthreads.CondVars.System
import Hthreads.Software.SchedParam
import Hthreads.Software.Attributes
import Hthreads.Software.Bus
import Hthreads.Software.Setup
import Hthreads.Software.Create
import Hthreads.Software.Mutex
import Hthreads.Software.Encodings
import Hthreads.Software.Exclusion
import Hthreads.Software.Stacks
import Hthreads.Software.FailedCreate
import Hthreads.Software.Priorities
import Hthreads.Software.Switching
import Hthreads.Software.SwitchSafety
import Hthreads.Software.Reclaiming
import Hthreads.Software.ReclaimRuns
import Hthreads.Software.BlockDevices
import Hthreads.Software.Sbrk
import Hthreads.Software.Timer
import Hthreads.Slaves.Matching
import Hthreads.Slaves.Search
import Hthreads.Slaves.Preference
import Hthreads.Slaves.ThreadCreate
import Hthreads.Slaves.OneThread
import Hthreads.Slaves.Backlog
import Hthreads.Slaves.BootLoop
import Hthreads.Slaves.Returning
import Hthreads.Slaves.Accelerators
import Hthreads.Slaves.Loaded
import Hthreads.Slaves.LoadRuns
import Hthreads.Slaves.Bookkeeping
import Hthreads.Slaves.Results
import Hthreads.Slaves.Truthful
import Hthreads.Slaves.ResultSteps
import Hthreads.Slaves.ResultRuns
import Hthreads.Accelerators.Crc
import Hthreads.Accelerators.BubbleSort
import Hthreads.Accelerators.QuickSort
import Hthreads.Accelerators.QuickSortRuns
import Hthreads.Accelerators.MergeSort
import Hthreads.Accelerators.HostCalls
import Hthreads.Fat16.Mount
import Hthreads.Fat16.Directory
import Hthreads.Fat16.Layout
import Hthreads.Fat16.Mounted
import Hthreads.Fat16.TableEntries
import Hthreads.Fat16.Listing
import Hthreads.Fat16.Scanning
import Hthreads.Fat16.Enumeration
import Hthreads.Fat16.LongNames
import Hthreads.Fat16.ShortNames
import Hthreads.Compiler.Dependencies
import Hthreads.Compiler.Slices
import Hthreads.Compiler.Comments
import Hthreads.Compiler.Settings
import Hthreads.Compiler.CommentMarks
import Hthreads.Sysace.BlockCache
import Hthreads.Sysace.Memory
import Hthreads.Sysace.Representation
import Hthreads.Sysace.Lines
import Hthreads.Sysace.Loading
import Hthreads.Sysace.Transfers
import Hthreads.Sysace.Transparency
import Hthreads.Sysace.LeastRecent
import Hthreads.Sysace.Faults
import Hthreads.Sysace.Survival
import Hthreads.Kernel.Node
import Hthreads.Kernel.Places
import Hthreads.Kernel.Movements
import Hthreads.Kernel.Lifetimes
import Hthreads.Kernel.Soundness
import Hthreads.Kernel.SystemCalls
import Hthreads.Kernel.Handing
import Hthreads.Kernel.Runs
import Hthreads.Accelerators.CoreLoops
import Hthreads.Accelerators.SlaveCalls
import Hthreads.Accelerators.Requests
import Hthreads.Accelerators.Matrix
import Hthreads.Accelerators.MatrixCore
import Hthreads.Accelerators.TuningTable
import Hthreads.HwAcc.Channel
import Hthreads.HwAcc.BubbleSort
import Hthreads.HwAcc.BubblePasses
import Hthreads.HwAcc.MergeSort
import Hthreads.HwAcc.MergeResults
import Hthreads.HwAcc.Crc
import Hthreads.HwAcc.Vector
import Hthreads.Hwti.Command
import Hthreads.Hwti.Requests
import Hthreads.Hwti.Channels
import Hthreads.Hwti.Answers
import Hthreads.HwAcc.QuickSort
import Hthreads.HwAcc.QuickParting
import Hthreads.HwAcc.QuickCalls
import Hthreads.HwAcc.Idea
import Hthreads.HwAcc.IdeaCipher
import Hthreads.HwAcc.IdeaRounds
import Hthreads.HwAcc.IdeaBlocks
import Hthreads.Ethlite.Driver
import Hthreads.Ethlite.Transmit
import Hthreads.Ethlite.Receive
import Hthreads.Ethlite.Netif
import Hthreads.Hterm.Registry
import Hthreads.Hterm.Rounds
