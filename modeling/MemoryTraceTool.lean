import MemoryTraceTool.Accounting
import MemoryTraceTool.AddrValidate
import MemoryTraceTool.Basic
import MemoryTraceTool.BlacklistRanges
import MemoryTraceTool.Bootstrap
import MemoryTraceTool.BootstrapBytes
import MemoryTraceTool.CallsAlone
import MemoryTraceTool.CaptureStack
import MemoryTraceTool.ChildReport
import MemoryTraceTool.CountSampling
import MemoryTraceTool.Counters
import MemoryTraceTool.Dispositions
import MemoryTraceTool.EntryCapacity
import MemoryTraceTool.EntryTable
import MemoryTraceTool.Environment
import MemoryTraceTool.Fork
import MemoryTraceTool.ForkChild
import MemoryTraceTool.ForkLookup
import MemoryTraceTool.FrameCommand
import MemoryTraceTool.FrameFilters
import MemoryTraceTool.Handover
import MemoryTraceTool.HandoverTimes
import MemoryTraceTool.HomeStripes
import MemoryTraceTool.HookExits
import MemoryTraceTool.HookInterleaving
import MemoryTraceTool.HookRestores
import MemoryTraceTool.HttpJson
import MemoryTraceTool.HttpRequests
import MemoryTraceTool.HttpStart
import MemoryTraceTool.HttpWrites
import MemoryTraceTool.InitOnce
import MemoryTraceTool.InitRelock
import MemoryTraceTool.InitStores
import MemoryTraceTool.LargeBlocks
import MemoryTraceTool.LeakGrowth
import MemoryTraceTool.LeakSites
import MemoryTraceTool.LeakTimes
import MemoryTraceTool.LeftoverFields
import MemoryTraceTool.Lib.Accounts
import MemoryTraceTool.Lib.Chain
import MemoryTraceTool.Lib.ChainedTable
import MemoryTraceTool.Lib.Custody
import MemoryTraceTool.Lib.Grouping
import MemoryTraceTool.Lib.GroupShortage
import MemoryTraceTool.Lib.Heap
import MemoryTraceTool.Lib.Intervals
import MemoryTraceTool.Lib.Json
import MemoryTraceTool.Lib.LazyMutex
import MemoryTraceTool.Lib.LockRank
import MemoryTraceTool.Lib.LockedListSafety
import MemoryTraceTool.Lib.LockedListSteps
import MemoryTraceTool.Lib.LockedLists
import MemoryTraceTool.Lib.Locking
import MemoryTraceTool.Lib.Once
import MemoryTraceTool.Lib.OnceUnlocked
import MemoryTraceTool.Lib.Publish
import MemoryTraceTool.Lib.Ring
import MemoryTraceTool.Lib.Scanf
import MemoryTraceTool.Lib.StateProgram
import MemoryTraceTool.Lib.Transition
import MemoryTraceTool.Lib.Utf8
import MemoryTraceTool.LibBlacklist
import MemoryTraceTool.LockOrder
import MemoryTraceTool.NestedAccounts
import MemoryTraceTool.NestedRequests
import MemoryTraceTool.Nesting
import MemoryTraceTool.OutputFiles
import MemoryTraceTool.PeakBytes
import MemoryTraceTool.PoolMemory
import MemoryTraceTool.PoolTrylock
import MemoryTraceTool.RangeReaders
import MemoryTraceTool.RawAllocators
import MemoryTraceTool.ReportFiles
import MemoryTraceTool.ReportLifetime
import MemoryTraceTool.ReportScan
import MemoryTraceTool.ReportTotals
import MemoryTraceTool.ReporterLoop
import MemoryTraceTool.SamplePacing
import MemoryTraceTool.Sampling
import MemoryTraceTool.ScanFailures
import MemoryTraceTool.SectionsAlone
import MemoryTraceTool.SequentialHooks
import MemoryTraceTool.ServedSites
import MemoryTraceTool.StackCache
import MemoryTraceTool.StackHash
import MemoryTraceTool.StripeSnapshot
import MemoryTraceTool.SymbolCache
import MemoryTraceTool.SymbolText
import MemoryTraceTool.TableLists
import MemoryTraceTool.TableSections
import MemoryTraceTool.ThreadSlots
import MemoryTraceTool.TimeSeries
import MemoryTraceTool.ToolPrograms
import MemoryTraceTool.TwinApis
import MemoryTraceTool.Unwind
