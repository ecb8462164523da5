import LinuxMonitor.Library.Join
import LinuxMonitor.PerformanceServer.MetricRows

/-!
# The query of the summary

`updatePerformanceSummary` joins the four metric tables on the host, the first with the
window in the WHERE clause and the others with it in the ON clauses, groups the joined rows
by host and aggregates twelve expressions over them.  The arithmetic of the database is that
of a field.  The database compares texts by their weights, which a collation gives.

The tables are joined on the host alone, so every combination of rows of the host in the
window is a joined row.

* `filter_joinedRows`: the WHERE clause may be checked before the joins.
* `cpuColumn`, `memoryColumn`, `diskColumn`, `networkColumn`: a column of the join has the
  values of its own table, each equally often.
* `summaryRows_eq`: **the query gives one row with the aggregates of each table over its own
  rows of the host in the window, provided one of these is in `cpu_metrics`.**
* `summaryRows_eq_nil`: without such a row the query gives none.
* `summaryRows_metricTables`: the query computes the row from what the bucket holds.
-/

set_option autoImplicit false

namespace LinuxMonitor.PerformanceServer

open Library Proto

/-! ## The query -/

section Query

variable {R : Type} {κ : Type} [DecidableEq κ] (weight : Text → κ)

/-- The rows of the four tables. -/
structure MetricTables (R : Type) where
  cpuMetrics : List (CpuRow R)
  memoryMetrics : List (MemoryRow R)
  diskMetrics : List (DiskRow R)
  networkMetrics : List (NetworkRow R)

/-- `host_id = … AND timestamp >= DATE_SUB(hour, INTERVAL 1 HOUR) AND timestamp <= hour` -/
def inHour (hour : ℤ) (host hostId : Text) (timestamp : ℤ) : Bool :=
  weight host = weight hostId && hour - 3600 ≤ timestamp && timestamp ≤ hour

/-- `FROM cpu_metrics cm LEFT JOIN memory_metrics mm ON …` -/
def joinMemory (hour : ℤ) (t : MetricTables R) : List (CpuRow R × Option (MemoryRow R)) :=
  leftJoin (fun cm mm => inHour weight hour cm.hostId mm.hostId mm.timestamp)
    t.cpuMetrics t.memoryMetrics

/-- `… LEFT JOIN disk_metrics dm ON …` -/
def joinDisk (hour : ℤ) (t : MetricTables R) :
    List ((CpuRow R × Option (MemoryRow R)) × Option (DiskRow R)) :=
  leftJoin (fun row dm => inHour weight hour row.1.hostId dm.hostId dm.timestamp)
    (joinMemory weight hour t) t.diskMetrics

/-- A row of the join: `cm`, `mm`, `dm` and `nm`. -/
abbrev JoinedRow (R : Type) : Type :=
  ((CpuRow R × Option (MemoryRow R)) × Option (DiskRow R)) × Option (NetworkRow R)

/-- `… LEFT JOIN network_metrics nm ON …` -/
def joinedRows (hour : ℤ) (t : MetricTables R) : List (JoinedRow R) :=
  leftJoin (fun row nm => inHour weight hour row.1.1.hostId nm.hostId nm.timestamp)
    (joinDisk weight hour t) t.networkMetrics

/-- A row that the query adds to `performance_summary`, apart from its key. -/
structure SummaryRow (R : Type) where
  avgCpuPercent : Option R
  maxCpuPercent : Option R
  avgLoad1 : Option R
  maxLoad1 : Option R
  avgMemoryUsage : Option R
  maxMemoryUsage : Option R
  minAvailableMemoryGb : Option R
  maxDiskUtil : Option R
  avgDiskIops : Option R
  peakDiskThroughputMbps : Option R
  avgNetworkThroughputMbps : Option R
  peakNetworkThroughputMbps : Option R
  performanceScore : Option R
deriving DecidableEq, Repr

/-- The aggregates over one group. -/
def selectSummary [Field R] [LinearOrder R] (score : Option R) (group : List (JoinedRow R)) :
    SummaryRow R where
  avgCpuPercent := sqlAvg (group.map fun row => row.1.1.1.cpuPercent)
  maxCpuPercent := sqlMax (group.map fun row => row.1.1.1.cpuPercent)
  avgLoad1 := sqlAvg (group.map fun row => row.1.1.1.loadAvg1)
  maxLoad1 := sqlMax (group.map fun row => row.1.1.1.loadAvg1)
  avgMemoryUsage := sqlAvg (group.map fun row => row.1.1.2.bind MemoryRow.usedPercent)
  maxMemoryUsage := sqlMax (group.map fun row => row.1.1.2.bind MemoryRow.usedPercent)
  minAvailableMemoryGb := sqlMin (group.map fun row => row.1.1.2.bind MemoryRow.availableGb)
  maxDiskUtil := sqlMax (group.map fun row => row.1.2.bind DiskRow.utilPercent)
  avgDiskIops := sqlAvg (group.map fun row => row.1.2.bind DiskRow.iops)
  peakDiskThroughputMbps := sqlMax (group.map fun row => row.1.2.bind DiskRow.throughput)
  avgNetworkThroughputMbps := sqlAvg (group.map fun row => row.2.bind NetworkRow.throughput)
  peakNetworkThroughputMbps := sqlMax (group.map fun row => row.2.bind NetworkRow.throughput)
  performanceScore := score

/-- The rows that the SELECT of the summary gives. -/
def summaryRows [Field R] [LinearOrder R] (hostId : Text) (hour : ℤ) (score : Option R)
    (t : MetricTables R) : List (SummaryRow R) :=
  let selected := (joinedRows weight hour t).filter fun row =>
    inHour weight hour hostId row.1.1.1.hostId row.1.1.1.timestamp
  (groupBy (fun row => weight row.1.1.1.hostId) selected).map (selectSummary score)

/-- `INSERT INTO performance_summary … ON DUPLICATE KEY UPDATE`, where the key is the host and
the hour, the type being `hourly` always, and every other column is updated. -/
def insertSummary [Field R] [LinearOrder R] (hostId : Text) (hour : ℤ) (score : Option R)
    (t : MetricTables R) (summaries : AList (fun _ : κ × ℤ => SummaryRow R)) :
    AList (fun _ : κ × ℤ => SummaryRow R) :=
  (summaryRows weight hostId hour score t).foldl
    (fun s row => s.insert (weight hostId, hour) row) summaries

/-! ## Separate aggregations -/

/-- The rows of one table that are the host's and lie in the window. -/
def ownRows {ρ : Type} (hostId : Text) (hour : ℤ) (host : ρ → Text) (timestamp : ρ → ℤ)
    (rows : List ρ) : List ρ :=
  rows.filter fun row => inHour weight hour hostId (host row) (timestamp row)

/-- The rows of each table that are the host's and lie in the window. -/
def MetricTables.own (hostId : Text) (hour : ℤ) (t : MetricTables R) : MetricTables R where
  cpuMetrics := ownRows weight hostId hour CpuRow.hostId CpuRow.timestamp t.cpuMetrics
  memoryMetrics := ownRows weight hostId hour MemoryRow.hostId MemoryRow.timestamp t.memoryMetrics
  diskMetrics := ownRows weight hostId hour DiskRow.hostId DiskRow.timestamp t.diskMetrics
  networkMetrics :=
    ownRows weight hostId hour NetworkRow.hostId NetworkRow.timestamp t.networkMetrics

/-- The aggregates over rows of the four tables, each table by itself. -/
def separateSummary [Field R] [LinearOrder R] (score : Option R) (t : MetricTables R) :
    SummaryRow R where
  avgCpuPercent := sqlAvg (t.cpuMetrics.map CpuRow.cpuPercent)
  maxCpuPercent := sqlMax (t.cpuMetrics.map CpuRow.cpuPercent)
  avgLoad1 := sqlAvg (t.cpuMetrics.map CpuRow.loadAvg1)
  maxLoad1 := sqlMax (t.cpuMetrics.map CpuRow.loadAvg1)
  avgMemoryUsage := sqlAvg (t.memoryMetrics.map MemoryRow.usedPercent)
  maxMemoryUsage := sqlMax (t.memoryMetrics.map MemoryRow.usedPercent)
  minAvailableMemoryGb := sqlMin (t.memoryMetrics.map MemoryRow.availableGb)
  maxDiskUtil := sqlMax (t.diskMetrics.map DiskRow.utilPercent)
  avgDiskIops := sqlAvg (t.diskMetrics.map DiskRow.iops)
  peakDiskThroughputMbps := sqlMax (t.diskMetrics.map DiskRow.throughput)
  avgNetworkThroughputMbps := sqlAvg (t.networkMetrics.map NetworkRow.throughput)
  peakNetworkThroughputMbps := sqlMax (t.networkMetrics.map NetworkRow.throughput)
  performanceScore := score

end Query

/-! ## The columns of the join -/

section Columns

variable {R κ : Type} [DecidableEq κ] {weight : Text → κ} {hostId : Text} {hour : ℤ}

/-- A row of the host matches the host's rows of another table. -/
theorem filter_inHour {ρ : Type} {other : Text} (host : ρ → Text) (timestamp : ρ → ℤ)
    (rows : List ρ) (same : weight other = weight hostId) :
    (rows.filter fun row => inHour weight hour other (host row) (timestamp row)) =
      ownRows weight hostId hour host timestamp rows := by
  simp only [ownRows, inHour, same]

/-- The tables with other rows in `cpu_metrics`. -/
def MetricTables.withCpu (t : MetricTables R) (rows : List (CpuRow R)) : MetricTables R :=
  { t with cpuMetrics := rows }

/-- **The WHERE clause may be checked before the joins.** -/
theorem filter_joinedRows (p : CpuRow R → Bool) (t : MetricTables R) :
    (joinedRows weight hour t).filter (fun row => p row.1.1.1) =
      joinedRows weight hour (t.withCpu (t.cpuMetrics.filter p)) := by
  have memory := filter_leftJoin (fun cm mm => inHour weight hour cm.hostId mm.hostId mm.timestamp)
    p t.cpuMetrics t.memoryMetrics
  have disk := filter_leftJoin
    (fun row dm => inHour weight hour row.1.hostId dm.hostId dm.timestamp)
    (fun row => p row.1) (joinMemory weight hour t) t.diskMetrics
  have network := filter_leftJoin
    (fun row nm => inHour weight hour row.1.1.hostId nm.hostId nm.timestamp)
    (fun row => p row.1.1) (joinDisk weight hour t) t.networkMetrics
  rw [joinMemory, memory] at disk
  rw [joinDisk, joinMemory, disk] at network
  exact network

theorem cpu_of_mem_joinDisk {t : MetricTables R}
    {row : (CpuRow R × Option (MemoryRow R)) × Option (DiskRow R)}
    (member : row ∈ joinDisk weight hour t) : row.1.1 ∈ t.cpuMetrics :=
  mem_of_mem_leftJoin (mem_of_mem_leftJoin member)

theorem cpu_of_mem_joinedRows {t : MetricTables R} {row : JoinedRow R}
    (member : row ∈ joinedRows weight hour t) : row.1.1.1 ∈ t.cpuMetrics :=
  cpu_of_mem_joinDisk (mem_of_mem_leftJoin member)

theorem joinDisk_ne_nil {t : MetricTables R} (nonempty : t.cpuMetrics ≠ []) :
    joinDisk weight hour t ≠ [] :=
  leftJoin_ne_nil _ _ (leftJoin_ne_nil _ _ nonempty)

theorem joinedRows_ne_nil {t : MetricTables R} (nonempty : t.cpuMetrics ≠ []) :
    joinedRows weight hour t ≠ [] :=
  leftJoin_ne_nil _ _ (joinDisk_ne_nil nonempty)

variable (hour) {t : MetricTables R} (hosts : ∀ cm ∈ t.cpuMetrics, weight cm.hostId = weight hostId)
include hosts

theorem memory_matches (cm : CpuRow R) (member : cm ∈ t.cpuMetrics) :
    (t.memoryMetrics.filter fun mm => inHour weight hour cm.hostId mm.hostId mm.timestamp) =
      (t.own weight hostId hour).memoryMetrics :=
  filter_inHour MemoryRow.hostId MemoryRow.timestamp _ (hosts cm member)

theorem disk_matches (row : CpuRow R × Option (MemoryRow R))
    (member : row ∈ joinMemory weight hour t) :
    (t.diskMetrics.filter fun dm => inHour weight hour row.1.hostId dm.hostId dm.timestamp) =
      (t.own weight hostId hour).diskMetrics :=
  filter_inHour DiskRow.hostId DiskRow.timestamp _ (hosts row.1 (mem_of_mem_leftJoin member))

theorem network_matches (row : (CpuRow R × Option (MemoryRow R)) × Option (DiskRow R))
    (member : row ∈ joinDisk weight hour t) :
    (t.networkMetrics.filter fun nm => inHour weight hour row.1.1.hostId nm.hostId nm.timestamp) =
      (t.own weight hostId hour).networkMetrics :=
  filter_inHour NetworkRow.hostId NetworkRow.timestamp _
    (hosts row.1.1 (cpu_of_mem_joinDisk member))

/-- A column of `cpu_metrics`. -/
theorem cpuColumn (f : CpuRow R → Option R) :
    SameValues ((joinedRows weight hour t).map fun row => f row.1.1.1) (t.cpuMetrics.map f) := by
  have network := proportional_left_column (network_matches hour hosts) fun row => f row.1.1
  have disk := proportional_left_column (disk_matches hour hosts) fun row => f row.1
  have memory := proportional_left_column (memory_matches hour hosts) f
  exact ((network.trans disk).trans memory).reduceOption

variable (nonempty : t.cpuMetrics ≠ [])
include nonempty

/-- A column of `memory_metrics`. -/
theorem memoryColumn (f : MemoryRow R → Option R) :
    SameValues ((joinedRows weight hour t).map fun row => row.1.1.2.bind f)
      ((t.own weight hostId hour).memoryMetrics.map f) := by
  have network := proportional_left_column (network_matches hour hosts) fun row => row.1.2.bind f
  have disk := proportional_left_column (disk_matches hour hosts) fun row => row.2.bind f
  have memory := proportional_right_column (memory_matches hour hosts) nonempty fun mm => mm.bind f
  exact sameValues_orNull ((network.trans disk).trans memory)

/-- A column of `disk_metrics`. -/
theorem diskColumn (f : DiskRow R → Option R) :
    SameValues ((joinedRows weight hour t).map fun row => row.1.2.bind f)
      ((t.own weight hostId hour).diskMetrics.map f) := by
  have network := proportional_left_column (network_matches hour hosts) fun row => row.2.bind f
  have disk := proportional_right_column (disk_matches hour hosts)
    (leftJoin_ne_nil _ _ nonempty) fun dm => dm.bind f
  exact sameValues_orNull (network.trans disk)

/-- A column of `network_metrics`. -/
theorem networkColumn (f : NetworkRow R → Option R) :
    SameValues ((joinedRows weight hour t).map fun row => row.2.bind f)
      ((t.own weight hostId hour).networkMetrics.map f) := by
  have network := proportional_right_column (network_matches hour hosts)
    (joinDisk_ne_nil nonempty) fun nm => nm.bind f
  exact sameValues_orNull network

/-- The joined rows of one host are one group. -/
theorem groupBy_joinedRows :
    groupBy (fun row => weight row.1.1.1.hostId) (joinedRows weight hour t) =
      [joinedRows weight hour t] :=
  groupBy_of_forall (joinedRows_ne_nil nonempty)
    fun row member => hosts row.1.1.1 (cpu_of_mem_joinedRows member)

end Columns

/-! ## The row of the summary -/

section Row

variable {R κ : Type} [DecidableEq κ] [Field R] [LinearOrder R] (weight : Text → κ)
  (hostId : Text) (hour : ℤ) (score : Option R) (t : MetricTables R)

theorem mem_ownRows {ρ : Type} {weight : Text → κ} {hostId : Text} {hour : ℤ} {host : ρ → Text}
    {timestamp : ρ → ℤ} {rows : List ρ} {row : ρ} :
    row ∈ ownRows weight hostId hour host timestamp rows ↔
      row ∈ rows ∧ weight (host row) = weight hostId ∧ hour - 3600 ≤ timestamp row ∧
        timestamp row ≤ hour := by
  rw [ownRows, List.mem_filter, inHour, Bool.and_eq_true, Bool.and_eq_true, decide_eq_true_eq,
    decide_eq_true_eq, decide_eq_true_eq, and_assoc, eq_comm]

/-- The rows that are grouped: those of the join of the host's rows of `cpu_metrics`. -/
theorem summaryRows_eq_groupBy :
    summaryRows weight hostId hour score t =
      (groupBy (fun row => weight row.1.1.1.hostId) (joinedRows weight hour
        (t.withCpu (t.own weight hostId hour).cpuMetrics))).map (selectSummary score) := by
  rw [summaryRows, filter_joinedRows fun cm => inHour weight hour hostId cm.hostId cm.timestamp]
  rfl

/-- The aggregates over the joined rows of the host are those of its rows. -/
theorem selectSummary_joinedRows [IsStrictOrderedRing R]
    (hosts : ∀ cm ∈ t.cpuMetrics, weight cm.hostId = weight hostId)
    (nonempty : t.cpuMetrics ≠ []) :
    selectSummary score (joinedRows weight hour t) =
      separateSummary score { t.own weight hostId hour with cpuMetrics := t.cpuMetrics } := by
  have cpu := cpuColumn hour hosts
  have memory := memoryColumn hour hosts nonempty
  have disk := diskColumn hour hosts nonempty
  have network := networkColumn hour hosts nonempty
  rw [SummaryRow.mk.injEq]
  exact ⟨(cpu _).sqlAvg, (cpu _).sqlMax, (cpu _).sqlAvg, (cpu _).sqlMax, (memory _).sqlAvg,
    (memory _).sqlMax, (memory _).sqlMin, (disk _).sqlMax, (disk _).sqlAvg, (disk _).sqlMax,
    (network _).sqlAvg, (network _).sqlMax, rfl⟩

/-- **The query gives one row with the aggregates of each table** over its own rows of the
host in the window. -/
theorem summaryRows_eq [IsStrictOrderedRing R]
    (led : (t.own weight hostId hour).cpuMetrics ≠ []) :
    summaryRows weight hostId hour score t =
      [separateSummary score (t.own weight hostId hour)] := by
  have hosts : ∀ cm ∈ (t.withCpu (t.own weight hostId hour).cpuMetrics).cpuMetrics,
      weight cm.hostId = weight hostId := fun cm member => (mem_ownRows.mp member).2.1
  rw [summaryRows_eq_groupBy, groupBy_joinedRows hour hosts led, List.map_singleton,
    selectSummary_joinedRows weight hostId hour score _ hosts led]
  rfl

/-- Without a row of `cpu_metrics` the query gives none. -/
theorem summaryRows_eq_nil (unled : (t.own weight hostId hour).cpuMetrics = []) :
    summaryRows weight hostId hour score t = [] := by
  rw [summaryRows_eq_groupBy, unled]
  rfl

/-- **The summary is the aggregates of each table over its own rows of the host in the
window**, NULL where there are none, provided `cpu_metrics` has such a row. -/
theorem insertSummary_eq [IsStrictOrderedRing R]
    (led : ∃ cm ∈ t.cpuMetrics,
      weight cm.hostId = weight hostId ∧ hour - 3600 ≤ cm.timestamp ∧ cm.timestamp ≤ hour)
    (summaries : AList (fun _ : κ × ℤ => SummaryRow R)) :
    insertSummary weight hostId hour score t summaries =
      summaries.insert (weight hostId, hour)
        (separateSummary score (t.own weight hostId hour)) := by
  obtain ⟨cm, member, window⟩ := led
  have leads : cm ∈ (t.own weight hostId hour).cpuMetrics := mem_ownRows.mpr ⟨member, window⟩
  rw [insertSummary, summaryRows_eq weight hostId hour score t (List.ne_nil_of_mem leads)]
  rfl

end Row

/-- Two rows of `cpu_metrics`, none of `memory_metrics`, two of `disk_metrics` and one with
a NULL of `network_metrics` in the window, and a row of each of the first two outside. -/
def twoDisks : MetricTables ℚ where
  cpuMetrics := [⟨"h".toList, 3600, some 10, some 1⟩, ⟨"h".toList, 7200, some 20, some 3⟩,
    ⟨"g".toList, 7200, some 90, some 9⟩]
  memoryMetrics := [⟨"h".toList, 3599, some 4, some 50⟩]
  diskMetrics := [⟨"h".toList, 5000, some 1, some 2, some 30, some 10, some 5⟩,
    ⟨"h".toList, 5000, some 4, some 4, some 10, some 10, some 7⟩]
  networkMetrics := [⟨"h".toList, 6000, some 1, none⟩]

/-- The summary of these rows. -/
theorem insertSummary_twoDisks :
    (insertSummary id "h".toList 7200 (some 80) twoDisks ∅).lookup ("h".toList, 7200) =
      some ⟨some 15, some 20, some 2, some 3, none, none, none, some 7, some 30, some 8,
        none, none, some 80⟩ := by
  rw [insertSummary_eq id "h".toList 7200 (some 80) twoDisks
    ⟨⟨"h".toList, 3600, some 10, some 1⟩, by decide +kernel⟩ ∅]
  refine (AList.lookup_insert _).trans (congrArg some ?_)
  decide +kernel

/-! ## The rows behind a bucket -/

section Buckets

variable {R : Type} {κ : Type} [DecidableEq κ] (weight : Text → κ) (hostId : Text) (hour : ℤ)

/-- A row keeps the stamp of its statement, so that the window may be checked before. -/
theorem ownRows_filterMap {ρ : Type} (host : ρ → Text) (timestamp : ρ → ℤ)
    (added : Statement R → Option ρ)
    (stamped : ∀ s row, added s = some row → s.stamp = some (host row, timestamp row))
    (rows : List (Statement R)) :
    ownRows weight hostId hour host timestamp (rows.filterMap added) =
      (rows.filter fun row => InWindow weight hostId hour row).filterMap added := by
  rw [ownRows, List.filter_filterMap, List.filterMap_filter]
  apply List.filterMap_congr
  intro s _
  cases same : added s with
  | none => simp
  | some row =>
      have window : InWindow weight hostId hour s ↔
          inHour weight hour hostId (host row) (timestamp row) = true := by
        simp only [InWindow, stamped s row same, inHour, Bool.and_eq_true, decide_eq_true_eq,
          Option.some.injEq, Prod.mk.injEq]
        constructor
        · rintro ⟨_, _, ⟨rfl, rfl⟩, own, after, before⟩
          exact ⟨⟨own.symm, after⟩, before⟩
        · rintro ⟨⟨own, after⟩, before⟩
          exact ⟨host row, timestamp row, ⟨rfl, rfl⟩, own.symm, after, before⟩
      simp [window, Option.filter]

variable [Field R]

/-- The rows that statements add to the four tables. -/
def metricTables (rows : List (Statement R)) : MetricTables R where
  cpuMetrics := rows.filterMap Statement.asCpuRow
  memoryMetrics := rows.filterMap Statement.asMemoryRow
  diskMetrics := rows.filterMap Statement.asDiskRow
  networkMetrics := rows.filterMap Statement.asNetworkRow

/-- **The rows that the query aggregates are those that the bucket holds.** -/
theorem own_metricTables (t : Tables κ R) :
    (metricTables t.metrics).own weight hostId hour =
      metricTables (t.joined weight hostId hour) := by
  rw [MetricTables.mk.injEq]
  refine ⟨ownRows_filterMap _ _ _ _ _ _ ?_ _, ownRows_filterMap _ _ _ _ _ _ ?_ _,
    ownRows_filterMap _ _ _ _ _ _ ?_ _, ownRows_filterMap _ _ _ _ _ _ ?_ _⟩ <;>
  · intro s row added
    cases s <;> cases added
    rfl

theorem cpuMetrics_metricTables_eq_nil (rows : List (Statement R)) :
    (metricTables rows).cpuMetrics = [] ↔ rows.any Statement.isCpu = false := by
  rw [metricTables, List.filterMap_eq_nil_iff, List.any_eq_false]
  apply forall₂_congr
  intro s _
  cases s <;> simp [Statement.asCpuRow, Statement.isCpu]

/-- **The query gives a row when the bucket is written**, and computes it from the rows that
the bucket holds. -/
theorem summaryRows_metricTables [LinearOrder R] [IsStrictOrderedRing R] (score : Option R)
    (t : Tables κ R) :
    summaryRows weight hostId hour score (metricTables t.metrics) =
      if (t.joined weight hostId hour).any Statement.isCpu then
        [separateSummary score (metricTables (t.joined weight hostId hour))]
      else [] := by
  split
  · rename_i led
    rw [summaryRows_eq, own_metricTables]
    rw [own_metricTables, ne_eq, cpuMetrics_metricTables_eq_nil, led]
    exact Bool.noConfusion
  · rename_i unled
    apply summaryRows_eq_nil _ _ _ _ _
    rw [own_metricTables, cpuMetrics_metricTables_eq_nil]
    exact Bool.eq_false_iff.mpr unled

end Buckets

end LinuxMonitor.PerformanceServer
