import LinuxMonitor.Monitor.DiskMonitor
import LinuxMonitor.Rpc.Fleet
import LinuxMonitor.Library.Baseline
import LinuxMonitor.Library.Counter
import LinuxMonitor.Bpf.NetMonitor
import LinuxMonitor.Monitor.NetStats
import LinuxMonitor.Monitor.NetMonitor
import LinuxMonitor.Monitor.NetBaseline
import LinuxMonitor.PerformanceServer.Metrics
import LinuxMonitor.Monitor.CpuStatMonitor
import LinuxMonitor.Library.Calendar
import LinuxMonitor.Library.QuotedLiteral
import LinuxMonitor.PerformanceServer.Statement
import LinuxMonitor.PerformanceServer.Quoting
import LinuxMonitor.PerformanceServer.HostId
import LinuxMonitor.PerformanceServer.Store
import LinuxMonitor.PerformanceServer.Collation
import LinuxMonitor.PerformanceServer.Tables
import LinuxMonitor.PerformanceServer.Monitoring
import LinuxMonitor.PerformanceServer.Schedule
import LinuxMonitor.Kmod.Mmap
import LinuxMonitor.Monitor.NetHooks
import LinuxMonitor.Monitor.NetLifetime
import LinuxMonitor.Kmod.Lifecycle
import LinuxMonitor.Library.FloatRounding
import LinuxMonitor.PerformanceServer.Columns
import LinuxMonitor.PerformanceServer.Throughput
import LinuxMonitor.PerformanceServer.Fetch
import LinuxMonitor.PerformanceServer.Polling
import LinuxMonitor.PerformanceServer.Summary
import LinuxMonitor.Kmod.Statistics
import LinuxMonitor.Monitor.MappedRecords
import LinuxMonitor.Monitor.OnlineCpus
import LinuxMonitor.Monitor.DiskConservation
import LinuxMonitor.Monitor.CpuSnapshot
import LinuxMonitor.PerformanceServer.Scores
import LinuxMonitor.Kmod.Contents
import LinuxMonitor.Library.Loop
import LinuxMonitor.Monitor.ReadFile
import LinuxMonitor.Monitor.MemMonitor
import LinuxMonitor.Monitor.NetDev
import LinuxMonitor.Monitor.NetWalk
import LinuxMonitor.Monitor.ArrayBounds
import LinuxMonitor.Client.Passwd
import LinuxMonitor.Library.Netlink
import LinuxMonitor.Monitor.NetLinks
import LinuxMonitor.Monitor.NetDump
import LinuxMonitor.Library.KeyWalk
import LinuxMonitor.Bpf.MapRead
import LinuxMonitor.Monitor.NetTraffic
import LinuxMonitor.Library.CriticalSection
import LinuxMonitor.Rpc.Handlers
import LinuxMonitor.PerformanceServer.Lifecycle
import LinuxMonitor.PerformanceServer.Retention
import LinuxMonitor.Library.Passes
import LinuxMonitor.Monitor.CpuLoadMonitor
import LinuxMonitor.Monitor.SoftIrqSnapshot
import LinuxMonitor.PerformanceServer.Provenance
import LinuxMonitor.PerformanceServer.Schema
import LinuxMonitor.PerformanceServer.CurrentStatus
import LinuxMonitor.Library.Rounds
import LinuxMonitor.Client.Collector
import LinuxMonitor.PerformanceServer.Measured
import LinuxMonitor.Library.Number
import LinuxMonitor.Library.Insert
import LinuxMonitor.Library.Close
import LinuxMonitor.PerformanceServer.Reading
import LinuxMonitor.PerformanceServer.ReadTables
