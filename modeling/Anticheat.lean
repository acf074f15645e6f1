import Anticheat.Foundation.BoundedRing
import Anticheat.Foundation.Bytes
import Anticheat.Foundation.CText
import Anticheat.Foundation.CScan
import Anticheat.Foundation.FixedWindow
import Anticheat.Foundation.History
import Anticheat.Foundation.PassTable
import Anticheat.Foundation.PyText
import Anticheat.Foundation.PyJson
import Anticheat.Foundation.Sha256
import Anticheat.Foundation.Sha256Eval
import Anticheat.Foundation.SlotTable
import Anticheat.Foundation.StepRun
import Anticheat.Foundation.Utf8
import Anticheat.Kernel.Abi
import Anticheat.Kernel.EventRing
import Anticheat.Kernel.EventIoctl
import Anticheat.Kernel.Registry
import Anticheat.Kernel.TaskProbes
import Anticheat.Kernel.Ptrace
import Anticheat.Kernel.TaskLife
import Anticheat.Kernel.Snapshot
import Anticheat.Kernel.SnapshotIoctl
import Anticheat.Daemon.RenderHooks
import Anticheat.Daemon.ElfSymbol
import Anticheat.Daemon.RenderCompare
import Anticheat.Daemon.AnonBaseline
import Anticheat.Daemon.GrowthTables
import Anticheat.Daemon.Environ
import Anticheat.Daemon.EnvWarnings
import Anticheat.Daemon.Sha256
import Anticheat.Daemon.ProcMem
import Anticheat.Daemon.Baseline
import Anticheat.Daemon.BaselineRoundTrip
import Anticheat.Daemon.Monitor
import Anticheat.Server.RateLimiter
import Anticheat.Server.Store
import Anticheat.Server.Handler
import Anticheat.Server.Service
import Anticheat.Server.Throttling
import Anticheat.Server.BanPipeline
import Anticheat.Server.ClientId
import Anticheat.Daemon.Report
import Anticheat.Server.ReportWire
import Anticheat.Kernel.ModulePin
import Anticheat.Foundation.HiddenInput
import Anticheat.Foundation.RawMemory
import Anticheat.Kernel.RawDevice
import Anticheat.Kernel.Disclosure
import Anticheat.Kernel.ForkEvents
import Anticheat.Kernel.ScanContent
import Anticheat.Daemon.BaselineVerdicts
import Anticheat.Daemon.ElfTrace
import Anticheat.Daemon.ElfExact
import Anticheat.Foundation.QuotedText
import Anticheat.Daemon.Manifest
import Anticheat.Foundation.CappedList
import Anticheat.Daemon.ImplicitLayers
import Anticheat.Server.ForwardedFor
import Anticheat.Server.Pruning
import Anticheat.Server.Outcome
import Anticheat.Server.Authentication
import Anticheat.Server.ReportStorage
import Anticheat.Foundation.GuardedScan
import Anticheat.Kernel.SyscallTable
import Anticheat.Kernel.TextBounds
import Anticheat.Daemon.HiddenModules
import Anticheat.Foundation.JsonSearch
import Anticheat.Daemon.ManifestJson
import Anticheat.Foundation.JsonBare
import Anticheat.Foundation.PyJsonCodes
import Anticheat.Foundation.PyJsonDumps
import Anticheat.Server.ReportListing
import Anticheat.Kernel.FirstUse
import Anticheat.Foundation.TracedLoop
import Anticheat.Daemon.ManifestScan
import Anticheat.Foundation.RecordStream
import Anticheat.Daemon.Resolve
import Anticheat.Foundation.LockedObjects
import Anticheat.Kernel.SnapshotLock
import Anticheat.Kernel.SnapshotCalls
import Anticheat.Kernel.SnapshotInvariant
import Anticheat.Kernel.SnapshotProgress
import Anticheat.Foundation.Holders
import Anticheat.Kernel.ModuleCalls
import Anticheat.Kernel.Lifecycle
import Anticheat.Kernel.References
import Anticheat.Kernel.LifecycleCounts
import Anticheat.Kernel.LifecycleStages
import Anticheat.Kernel.LifecycleKills
import Anticheat.Kernel.LifecycleInvariant
import Anticheat.Daemon.Syscalls
import Anticheat.Daemon.Transport
import Anticheat.Daemon.ResolveRuns
import Anticheat.Daemon.TransportRuns
