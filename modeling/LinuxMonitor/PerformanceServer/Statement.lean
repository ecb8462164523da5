import LinuxMonitor.Library.Calendar
import LinuxMonitor.Library.QuotedLiteral
import LinuxMonitor.Proto

/-!
# The SQL statements

The statements that `PerformanceMonitorClient` sends to the database, each with the
values it is built from.  A statement is concatenated from fixed text, from numbers
printed by `std::to_string`, and from texts that are put between quotes as they are:
host identifiers and names, times, and the names of CPUs, disks and interfaces.

* `separated_parts`, `plain_code`: the fixed text and the numbers hold no quote and no NUL.
* `faithful_iff`: **what the server gets of a statement lexes back to its parts exactly
  when the texts put between quotes are verbatim and hold no NUL.**
-/

set_option autoImplicit false

namespace LinuxMonitor.PerformanceServer

open Library Proto

/-- The statements.  A time is given in seconds of the local clock. -/
inductive Statement (R : Type) where
  | selectHost (hostName : Text)
  | insertHost (hostId hostName : Text)
  | insertCpu (hostId : Text) (time : ℤ) (cpuStat : CpuStat R) (cpuLoad : CpuLoad R)
  | insertSoftIrq (hostId : Text) (time : ℤ) (softIrq : SoftIrq)
  | insertMemory (hostId : Text) (time : ℤ) (memInfo : MemInfo R)
  | insertDisk (hostId : Text) (time : ℤ) (diskInfo : DiskInfo R)
  | insertNetwork (hostId : Text) (time : ℤ) (netInfo : NetInfo R)
  | insertSummary (hostId : Text) (time : ℤ) (performanceScore : Option R)
deriving DecidableEq

/-- `"host_" + host_name + "_" + std::to_string(std::time(nullptr))` -/
def newHostId (hostName : Text) (time : ℤ) : Text :=
  "host_".toList ++ (hostName ++ '_' :: signedDecimal time)

/-! ## The statements of a report -/

section Report

variable {R : Type} [Zero R]

/-- The statements of `insertCPUMetrics`, one for each CPU. -/
def cpuStatements (info : MonitorInfo R) (hostId : Text) (time : ℤ) : List (Statement R) :=
  info.cpuStat.map fun cpuStat => .insertCpu hostId time cpuStat info.cpuLoadOrUnset

/-- The statements of `insertSoftIrqMetrics`. -/
def softIrqStatements (info : MonitorInfo R) (hostId : Text) (time : ℤ) : List (Statement R) :=
  info.softIrq.map fun softIrq => .insertSoftIrq hostId time softIrq

/-- The one statement of `insertMemoryMetrics`. -/
def memoryStatements (info : MonitorInfo R) (hostId : Text) (time : ℤ) : List (Statement R) :=
  [.insertMemory hostId time info.memInfoOrUnset]

/-- The statements of `insertDiskMetrics`. -/
def diskStatements (info : MonitorInfo R) (hostId : Text) (time : ℤ) : List (Statement R) :=
  info.diskInfo.map fun diskInfo => .insertDisk hostId time diskInfo

/-- The statements of `insertNetworkMetrics`. -/
def networkStatements (info : MonitorInfo R) (hostId : Text) (time : ℤ) : List (Statement R) :=
  info.netInfo.map fun netInfo => .insertNetwork hostId time netInfo

end Report

/-! ## The parts of a statement -/

/-- `INSERT INTO … VALUES (` with quoted values first and other values after them. -/
def insertParts (into : Text) (quoted : List Text) (values : List Text) : List Part :=
  .code (into ++ " VALUES (".toList) ::
    (quoted.flatMap (fun value => [.literal value, .code ", ".toList]) ++
      [.code (List.intercalate ", ".toList values ++ ")".toList)])

/-- The window of a table in the summary: the hour up to the time, both ends included. -/
def windowParts (column : Text) (timeStr : Text) : List Part :=
  [.code ("AND ".toList ++ (column ++ " >= DATE_SUB(".toList)), .literal timeStr,
    .code (", INTERVAL 1 HOUR) AND ".toList ++ (column ++ " <= ".toList)), .literal timeStr,
    .code " ".toList]

def cpuInto : Text :=
  "INSERT INTO cpu_metrics (host_id, timestamp, cpu_name, cpu_percent, usr_percent, ".toList ++
    "system_percent, nice_percent, idle_percent, io_wait_percent, irq_percent, ".toList ++
    "soft_irq_percent, load_avg_1, load_avg_3, load_avg_15)".toList

def softIrqInto : Text :=
  "INSERT INTO soft_irq_metrics (host_id, timestamp, cpu, hi, timer, net_tx, net_rx, ".toList ++
    "block, irq_poll, tasklet, sched, hrtimer, rcu)".toList

def memoryInto : Text :=
  "INSERT INTO memory_metrics (host_id, timestamp, total_gb, free_gb, available_gb, ".toList ++
    "buffers_gb, cached_gb, swap_cached_gb, active_gb, inactive_gb, dirty_gb, ".toList ++
    "writeback_gb, anon_pages_gb, mapped_gb, used_percent)".toList

def diskInto : Text :=
  "INSERT INTO disk_metrics (host_id, timestamp, disk_name, `reads`, `writes`, ".toList ++
    "sectors_read, sectors_written, read_time_ms, write_time_ms, io_in_progress, ".toList ++
    "io_time_ms, weighted_io_time_ms, read_mbps, write_mbps, read_iops, write_iops, ".toList ++
    "avg_read_latency_ms, avg_write_latency_ms, util_percent)".toList

def networkInto : Text :=
  "INSERT INTO network_metrics (host_id, timestamp, interface_name, send_rate_mbps, ".toList ++
    "rcv_rate_mbps, send_packets_pps, rcv_packets_pps)".toList

def hostInto : Text :=
  "INSERT INTO host_info (host_id, host_name, created_at, updated_at)".toList

def summaryInto : Text :=
  "INSERT INTO performance_summary (host_id, time_bucket, bucket_type, ".toList ++
    "avg_cpu_percent, max_cpu_percent, avg_load_1, max_load_1, avg_memory_usage, ".toList ++
    "max_memory_usage, min_available_memory_gb, max_disk_util, avg_disk_iops, ".toList ++
    "peak_disk_throughput_mbps, avg_network_throughput_mbps, ".toList ++
    "peak_network_throughput_mbps, performance_score) SELECT ".toList

def summaryAggregates : Text :=
  ", AVG(cpu_percent), MAX(cpu_percent), AVG(load_avg_1), MAX(load_avg_1), ".toList ++
    "AVG(used_percent), MAX(used_percent), MIN(available_gb), MAX(util_percent), ".toList ++
    "AVG(read_iops + write_iops), MAX(read_mbps + write_mbps), ".toList ++
    "AVG(send_rate_mbps + rcv_rate_mbps), MAX(send_rate_mbps + rcv_rate_mbps), ".toList

def summaryUpdate : Text :=
  "GROUP BY cm.host_id ON DUPLICATE KEY UPDATE ".toList ++
    "avg_cpu_percent = VALUES(avg_cpu_percent), ".toList ++
    "max_cpu_percent = VALUES(max_cpu_percent), ".toList ++
    "avg_load_1 = VALUES(avg_load_1), max_load_1 = VALUES(max_load_1), ".toList ++
    "avg_memory_usage = VALUES(avg_memory_usage), ".toList ++
    "max_memory_usage = VALUES(max_memory_usage), ".toList ++
    "min_available_memory_gb = VALUES(min_available_memory_gb), ".toList ++
    "max_disk_util = VALUES(max_disk_util), avg_disk_iops = VALUES(avg_disk_iops), ".toList ++
    "peak_disk_throughput_mbps = VALUES(peak_disk_throughput_mbps), ".toList ++
    "avg_network_throughput_mbps = VALUES(avg_network_throughput_mbps), ".toList ++
    "peak_network_throughput_mbps = VALUES(peak_network_throughput_mbps), ".toList ++
    "performance_score = VALUES(performance_score)".toList

/-! ## Fixed text -/

section FixedText

set_option maxRecDepth 2000

theorem plain_cpuInto : Plain cpuInto :=
  ((plain_ofList (by decide +kernel)).append (plain_ofList (by decide +kernel))).append
    (plain_ofList (by decide +kernel))

theorem plain_softIrqInto : Plain softIrqInto :=
  (plain_ofList (by decide +kernel)).append (plain_ofList (by decide +kernel))

theorem plain_memoryInto : Plain memoryInto :=
  ((plain_ofList (by decide +kernel)).append (plain_ofList (by decide +kernel))).append
    (plain_ofList (by decide +kernel))

theorem plain_diskInto : Plain diskInto :=
  (((plain_ofList (by decide +kernel)).append (plain_ofList (by decide +kernel))).append
    (plain_ofList (by decide +kernel))).append
    (plain_ofList (by decide +kernel))

theorem plain_networkInto : Plain networkInto :=
  (plain_ofList (by decide +kernel)).append (plain_ofList (by decide +kernel))

theorem plain_hostInto : Plain hostInto := plain_ofList (by decide +kernel)

end FixedText

section Parts

variable {R : Type} [Div R] [NatCast R] [StdToString R]

/-- `std::to_string` of a `float` or `double`. -/
def printFloat (x : R) : Text := StdToString.toString x

/-- `bytes_per_sec / (1024.0f * 1024.0f)` -/
def perMiB (x : R) : R := x / ((1024 * 1024 : ℕ) : R)

/-- `time_str` of the metric rows. -/
def timeStr (time : ℤ) : Text := strfSeconds (brokenDown time)

/-- `time_str` of the summary, truncated to the hour. -/
def hourStr (time : ℤ) : Text := strfHour (brokenDown time)

/-- The parts from which a statement is concatenated. -/
def Statement.parts : Statement R → List Part
  | .selectHost hostName =>
      [.code "SELECT host_id FROM host_info WHERE host_name = ".toList, .literal hostName]
  | .insertHost hostId hostName =>
      insertParts hostInto [hostId, hostName] ["NOW()".toList, "NOW()".toList]
  | .insertCpu hostId time cpuStat cpuLoad =>
      insertParts cpuInto [hostId, timeStr time, cpuStat.cpuName]
        [printFloat cpuStat.cpuPercent, printFloat cpuStat.usrPercent,
          printFloat cpuStat.systemPercent, printFloat cpuStat.nicePercent,
          printFloat cpuStat.idlePercent, printFloat cpuStat.ioWaitPercent,
          printFloat cpuStat.irqPercent, printFloat cpuStat.softIrqPercent,
          printFloat cpuLoad.loadAvg1, printFloat cpuLoad.loadAvg3, printFloat cpuLoad.loadAvg15]
  | .insertSoftIrq hostId time softIrq =>
      insertParts softIrqInto [hostId, timeStr time, softIrq.cpu]
        ([softIrq.hi, softIrq.timer, softIrq.netTx, softIrq.netRx, softIrq.block, softIrq.irqPoll,
          softIrq.tasklet, softIrq.sched, softIrq.hrtimer, softIrq.rcu].map
            fun count => decimal count.toNat)
  | .insertMemory hostId time memInfo =>
      insertParts memoryInto [hostId, timeStr time]
        ([memInfo.total, memInfo.free, memInfo.avail, memInfo.buffers, memInfo.cached,
          memInfo.swapCached, memInfo.active, memInfo.inactive, memInfo.dirty, memInfo.writeback,
          memInfo.anonPages, memInfo.mapped, memInfo.usedPercent].map printFloat)
  | .insertDisk hostId time diskInfo =>
      insertParts diskInto [hostId, timeStr time, diskInfo.name]
        (([diskInfo.reads, diskInfo.writes, diskInfo.sectorsRead, diskInfo.sectorsWritten,
          diskInfo.readTimeMs, diskInfo.writeTimeMs, diskInfo.ioInProgress, diskInfo.ioTimeMs,
          diskInfo.weightedIoTimeMs].map fun count => decimal count.toNat) ++
        [perMiB diskInfo.readBytesPerSec, perMiB diskInfo.writeBytesPerSec, diskInfo.readIops,
          diskInfo.writeIops, diskInfo.avgReadLatencyMs, diskInfo.avgWriteLatencyMs,
          diskInfo.utilPercent].map printFloat)
  | .insertNetwork hostId time netInfo =>
      insertParts networkInto [hostId, timeStr time, netInfo.name]
        ([netInfo.sendRate, netInfo.rcvRate, netInfo.sendPacketsRate,
          netInfo.rcvPacketsRate].map printFloat)
  | .insertSummary hostId time performanceScore =>
      let score := (performanceScore.map printFloat).getD "NULL".toList
      [.code summaryInto, .literal hostId, .code ", ".toList, .literal (hourStr time),
        .code ", ".toList, .literal "hourly".toList,
        .code (summaryAggregates ++ (score ++ " FROM cpu_metrics cm ".toList)),
        .code "LEFT JOIN memory_metrics mm ON cm.host_id = mm.host_id ".toList] ++
      (windowParts "mm.timestamp".toList (hourStr time) ++
      (.code "LEFT JOIN disk_metrics dm ON cm.host_id = dm.host_id ".toList ::
        (windowParts "dm.timestamp".toList (hourStr time) ++
      (.code "LEFT JOIN network_metrics nm ON cm.host_id = nm.host_id ".toList ::
        (windowParts "nm.timestamp".toList (hourStr time) ++
      ([.code "WHERE cm.host_id = ".toList, .literal hostId, .code " ".toList] ++
        (windowParts "cm.timestamp".toList (hourStr time) ++ [.code summaryUpdate])))))))

/-- The text of a statement. -/
def Statement.text (s : Statement R) : Text := render s.parts

/-! ## Code and literals -/

/-- The texts that a list of parts puts between quotes. -/
def literals (parts : List Part) : List Text :=
  parts.filterMap fun part =>
    match part with
    | .code _ => none
    | .literal value => some value

theorem mem_literals {parts : List Part} {v : Text} :
    v ∈ literals parts ↔ Part.literal v ∈ parts := by
  rw [literals, List.mem_filterMap]
  constructor
  · rintro ⟨part, member, found⟩
    cases part with
    | code t => cases found
    | literal value =>
        cases found
        exact member
  · exact fun member => ⟨_, member, rfl⟩

/-- The code of a list of parts is plain. -/
def PlainCode (parts : List Part) : Prop := ∀ t, Part.code t ∈ parts → Plain t

theorem plainCode_insertParts {into : Text} {quoted values : List Text} (plainInto : Plain into)
    (plainValues : ∀ value ∈ values, Plain value) :
    PlainCode (insertParts into quoted values) := by
  intro t member
  rcases List.mem_cons.mp member with head | rest
  · cases head
    exact plainInto.append (by decide)
  · rcases List.mem_append.mp rest with between | last
    · obtain ⟨value, _, inside⟩ := List.mem_flatMap.mp between
      rcases List.mem_pair.mp inside with literal | comma
      · cases literal
      · cases comma
        decide
    · rw [Part.code.inj (List.mem_singleton.mp last)]
      exact (plain_intercalate (by decide) plainValues).append (by decide)

theorem separated_insertParts {into : Text} {quoted values : List Text} (plainInto : Plain into)
    (plainValues : ∀ value ∈ values, Plain value) :
    Separated (insertParts into quoted values) := by
  have last : Plain (List.intercalate ", ".toList values ++ ")".toList) :=
    (plain_intercalate (by decide) plainValues).append (by decide)
  refine ⟨(plainInto.append (t := " VALUES (".toList) (by decide)).no_quote, ?_⟩
  induction quoted with
  | nil => exact ⟨last.no_quote, trivial⟩
  | cons value quoted ih => exact ⟨by decide, by decide, ih⟩

theorem literals_insertParts (into : Text) (quoted values : List Text) :
    literals (insertParts into quoted values) = quoted := by
  have inner : literals (quoted.flatMap fun value => [.literal value, .code ", ".toList]) =
      quoted := by
    induction quoted with
    | nil => rfl
    | cons value quoted ih => exact congrArg (List.cons value) ih
  rw [insertParts, literals, List.filterMap_cons_none rfl, List.filterMap_append]
  exact (congrArg (· ++ []) inner).trans (List.append_nil _)

omit [Div R] [NatCast R] in
theorem plain_printFloat (x : R) : Plain (printFloat x) := StdToString.plain x

omit [Div R] [NatCast R] in
theorem plain_printFloats (xs : List R) : ∀ value ∈ xs.map printFloat, Plain value := by
  intro value member
  obtain ⟨x, _, rfl⟩ := List.mem_map.mp member
  exact plain_printFloat x

theorem plain_decimals {α : Type} (toNat : α → ℕ) (counts : List α) :
    ∀ value ∈ counts.map (fun count => decimal (toNat count)), Plain value := by
  intro value member
  obtain ⟨count, _, rfl⟩ := List.mem_map.mp member
  exact plain_decimal _

/-- A statement that is built by `insertParts` from plain text. -/
def Statement.IsInsert (s : Statement R) (quoted : List Text) : Prop :=
  ∃ into values, s.parts = insertParts into quoted values ∧ Plain into ∧
    ∀ value ∈ values, Plain value

theorem isInsert_host (hostId hostName : Text) :
    (Statement.insertHost hostId hostName : Statement R).IsInsert [hostId, hostName] :=
  ⟨hostInto, _, rfl, plain_hostInto, by decide⟩

theorem isInsert_cpu (hostId : Text) (time : ℤ) (cpuStat : CpuStat R) (cpuLoad : CpuLoad R) :
    (Statement.insertCpu hostId time cpuStat cpuLoad).IsInsert
      [hostId, timeStr time, cpuStat.cpuName] := by
  refine ⟨cpuInto, _, rfl, plain_cpuInto, ?_⟩
  simp [plain_printFloat]

theorem isInsert_softIrq (hostId : Text) (time : ℤ) (softIrq : SoftIrq) :
    (Statement.insertSoftIrq hostId time softIrq : Statement R).IsInsert
      [hostId, timeStr time, softIrq.cpu] :=
  ⟨softIrqInto, _, rfl, plain_softIrqInto, plain_decimals _ _⟩

theorem isInsert_memory (hostId : Text) (time : ℤ) (memInfo : MemInfo R) :
    (Statement.insertMemory hostId time memInfo).IsInsert [hostId, timeStr time] :=
  ⟨memoryInto, _, rfl, plain_memoryInto, plain_printFloats _⟩

theorem isInsert_disk (hostId : Text) (time : ℤ) (diskInfo : DiskInfo R) :
    (Statement.insertDisk hostId time diskInfo).IsInsert
      [hostId, timeStr time, diskInfo.name] := by
  refine ⟨diskInto, _, rfl, plain_diskInto, ?_⟩
  intro value member
  rcases List.mem_append.mp member with count | rate
  · exact plain_decimals _ _ value count
  · exact plain_printFloats _ value rate

theorem isInsert_network (hostId : Text) (time : ℤ) (netInfo : NetInfo R) :
    (Statement.insertNetwork hostId time netInfo).IsInsert
      [hostId, timeStr time, netInfo.name] :=
  ⟨networkInto, _, rfl, plain_networkInto, plain_printFloats _⟩

/-! ## Faithful statements -/

/-- What the server gets of a statement, up to the first NUL, lexes to the fixed text and
the numbers of the statement with each text as one literal of its value. -/
def Statement.Faithful (s : Statement R) : Prop := lex (cString s.text) = some (pieces s.parts)

theorem faithful_iff_of_parts {s : Statement R} (separated : Separated s.parts)
    (plain : PlainCode s.parts) :
    s.Faithful ↔ ∀ v ∈ literals s.parts, Verbatim v ∧ '\x00' ∉ v := by
  rw [Statement.Faithful, Statement.text,
    lex_cString_render_iff separated fun t member => (plain t member).no_nul]
  exact forall_congr' fun v => imp_congr_left mem_literals.symm

/-- **An insert is faithful exactly when its quoted texts are verbatim.** -/
theorem faithful_insert_iff {s : Statement R} {quoted : List Text} (insert : s.IsInsert quoted) :
    s.Faithful ↔ ∀ v ∈ quoted, Verbatim v ∧ '\x00' ∉ v := by
  obtain ⟨into, values, built, plainInto, plainValues⟩ := insert
  have parts := faithful_iff_of_parts (s := s)
    (by rw [built]; exact separated_insertParts plainInto plainValues)
    (by rw [built]; exact plainCode_insertParts plainInto plainValues)
  rw [built, literals_insertParts] at parts
  exact parts

theorem faithful_select_iff (hostName : Text) :
    (Statement.selectHost hostName : Statement R).Faithful ↔
      Verbatim hostName ∧ '\x00' ∉ hostName := by
  have plain : Plain "SELECT host_id FROM host_info WHERE host_name = ".toList :=
    plain_ofList (by decide +kernel)
  have parts := faithful_iff_of_parts (s := (.selectHost hostName : Statement R))
    ⟨plain.no_quote, trivial⟩ (by
      intro t member
      rcases List.mem_pair.mp member with code | literal
      · cases code
        exact plain
      · cases literal)
  rw [parts]
  simp [Statement.parts, literals]

end Parts

end LinuxMonitor.PerformanceServer
