import LinuxMonitor.PerformanceServer.Summary
import LinuxMonitor.PerformanceServer.Schedule

/-!
# The view of the current status

The view `current_performance_status` joins every host with its rows of the last five minutes,
one table after the other, and groups the joined rows by host.  The peak of the network
comes from a subquery that is grouped by itself.  The used memory is neither grouped nor
aggregated, so it is taken from any row of the group; with `ONLY_FULL_GROUP_BY` the database
refuses such a view.

* `filter_statusJoin`: a condition on the host may be checked before the joins.
* `statusRows_perm`: **the view has one row for each host, with the aggregates of each table
  over its own rows of the host, and the used memory of one of them.**
* `status_live`: **from the end of one round to the beginning of the next the view dates a host
  that is in every round by the last one.**
-/

set_option autoImplicit false

namespace LinuxMonitor.PerformanceServer

open Library Proto

/-! ## The view -/

section View

variable {R κ : Type} [DecidableEq κ] (weight : Text → κ)

/-- `… = ….host_id AND timestamp >= NOW() - INTERVAL 5 MINUTE` -/
def inFiveMinutes (now : ℤ) (host hostId : Text) (timestamp : ℤ) : Bool :=
  weight host = weight hostId && now - 300 ≤ timestamp

/-- A row of the subquery `n`. -/
structure NetworkPeak (R : Type) where
  hostId : Text
  totalThroughputMbps : Option R

/-- The row of the subquery for one host. -/
def networkPeak [Add R] [LinearOrder R] (group : List (NetworkRow R)) : Option (NetworkPeak R) :=
  group.head?.map fun nm => ⟨nm.hostId, sqlMax (group.map NetworkRow.throughput)⟩

/-- `SELECT host_id, MAX(send_rate_mbps + rcv_rate_mbps) … GROUP BY host_id` -/
def networkPeaks [Add R] [LinearOrder R] (now : ℤ) (rows : List (NetworkRow R)) :
    List (NetworkPeak R) :=
  (groupBy (fun nm => weight nm.hostId)
    (rows.filter fun nm => now - 300 ≤ nm.timestamp)).filterMap networkPeak

/-- `FROM host_info h LEFT JOIN cpu_metrics c ON …` -/
def hostCpu (now : ℤ) (hosts : List HostRow) (t : MetricTables R) :
    List (HostRow × Option (CpuRow R)) :=
  leftJoin (fun h c => inFiveMinutes weight now h.hostId c.hostId c.timestamp) hosts t.cpuMetrics

/-- `… LEFT JOIN memory_metrics m ON …` -/
def hostMemory (now : ℤ) (hosts : List HostRow) (t : MetricTables R) :
    List ((HostRow × Option (CpuRow R)) × Option (MemoryRow R)) :=
  leftJoin (fun row m => inFiveMinutes weight now row.1.hostId m.hostId m.timestamp)
    (hostCpu weight now hosts t) t.memoryMetrics

/-- `… LEFT JOIN disk_metrics d ON …` -/
def hostDisk (now : ℤ) (hosts : List HostRow) (t : MetricTables R) :
    List (((HostRow × Option (CpuRow R)) × Option (MemoryRow R)) × Option (DiskRow R)) :=
  leftJoin (fun row d => inFiveMinutes weight now row.1.1.hostId d.hostId d.timestamp)
    (hostMemory weight now hosts t) t.diskMetrics

/-- A row of the join: `h`, `c`, `m`, `d` and `n`. -/
abbrev StatusJoin (R : Type) : Type :=
  (((HostRow × Option (CpuRow R)) × Option (MemoryRow R)) × Option (DiskRow R)) ×
    Option (NetworkPeak R)

/-- `… LEFT JOIN (…) n ON h.host_id = n.host_id` -/
def statusJoin [Add R] [LinearOrder R] (now : ℤ) (hosts : List HostRow) (t : MetricTables R) :
    List (StatusJoin R) :=
  leftJoin (fun row n => weight row.1.1.1.hostId = weight n.hostId)
    (hostDisk weight now hosts t) (networkPeaks weight now t.networkMetrics)

/-- A row of the view. -/
structure StatusRow (R : Type) where
  hostName : Text
  lastUpdate : Option ℤ
  avgCpuLast5min : Option R
  currentLoad : Option R
  memoryUsage : Option R
  maxDiskUsage : Option R
  maxNetworkThroughput : Option R
deriving DecidableEq, Repr

/-- The row of one group.  What the database takes of a column that is not aggregated is `pick`
of the column. -/
def selectStatus [Field R] [LinearOrder R] (pick : List (Option R) → Option R)
    (group : List (StatusJoin R)) : Option (StatusRow R) :=
  group.head?.map fun first =>
    { hostName := first.1.1.1.1.hostName
      lastUpdate := sqlMax (group.map fun row => row.1.1.1.2.map CpuRow.timestamp)
      avgCpuLast5min := sqlAvg (group.map fun row => row.1.1.1.2.bind CpuRow.cpuPercent)
      currentLoad := sqlMax (group.map fun row => row.1.1.1.2.bind CpuRow.loadAvg1)
      memoryUsage := pick (group.map fun row => row.1.1.2.bind MemoryRow.usedPercent)
      maxDiskUsage := sqlMax (group.map fun row => row.1.2.bind DiskRow.utilPercent)
      maxNetworkThroughput :=
        sqlMax (group.map fun row => row.2.bind NetworkPeak.totalThroughputMbps) }

/-- `GROUP BY h.host_id, h.host_name` -/
def groupKey (h : HostRow) : κ × κ := (weight h.hostId, weight h.hostName)

/-- `current_performance_status` -/
def statusRows [Field R] [LinearOrder R] (pick : List (Option R) → Option R) (now : ℤ)
    (hosts : List HostRow) (t : MetricTables R) : List (StatusRow R) :=
  (groupBy (fun row => groupKey weight row.1.1.1.1) (statusJoin weight now hosts t)).filterMap
    (selectStatus pick)

/-! ## Separate aggregations -/

/-- The rows of one table that are the host's and no older than five minutes. -/
def recentRows {ρ : Type} (now : ℤ) (hostId : Text) (host : ρ → Text) (timestamp : ρ → ℤ)
    (rows : List ρ) : List ρ :=
  rows.filter fun row => inFiveMinutes weight now hostId (host row) (timestamp row)

/-- The recent rows of each table. -/
def MetricTables.recent (now : ℤ) (hostId : Text) (t : MetricTables R) : MetricTables R where
  cpuMetrics := recentRows weight now hostId CpuRow.hostId CpuRow.timestamp t.cpuMetrics
  memoryMetrics := recentRows weight now hostId MemoryRow.hostId MemoryRow.timestamp t.memoryMetrics
  diskMetrics := recentRows weight now hostId DiskRow.hostId DiskRow.timestamp t.diskMetrics
  networkMetrics :=
    recentRows weight now hostId NetworkRow.hostId NetworkRow.timestamp t.networkMetrics

/-- The aggregates over rows of the four tables, each table by itself. -/
def separateStatus [Field R] [LinearOrder R] (hostName : Text) (memoryUsage : Option R)
    (t : MetricTables R) : StatusRow R where
  hostName := hostName
  lastUpdate := sqlMax (t.cpuMetrics.map fun c => some c.timestamp)
  avgCpuLast5min := sqlAvg (t.cpuMetrics.map CpuRow.cpuPercent)
  currentLoad := sqlMax (t.cpuMetrics.map CpuRow.loadAvg1)
  memoryUsage := memoryUsage
  maxDiskUsage := sqlMax (t.diskMetrics.map DiskRow.utilPercent)
  maxNetworkThroughput := sqlMax (t.networkMetrics.map NetworkRow.throughput)

end View

/-! ## The rows of one host -/

section Join

variable {R κ : Type} [DecidableEq κ] {weight : Text → κ} {now : ℤ}

/-- **A condition on the host may be checked before the joins.** -/
theorem filter_statusJoin [Add R] [LinearOrder R] (p : HostRow → Bool) (hosts : List HostRow)
    (t : MetricTables R) :
    (statusJoin weight now hosts t).filter (fun row => p row.1.1.1.1) =
      statusJoin weight now (hosts.filter p) t := by
  have cpu := filter_leftJoin
    (fun h c => inFiveMinutes weight now h.hostId c.hostId c.timestamp) p hosts t.cpuMetrics
  have memory := filter_leftJoin
    (fun row m => inFiveMinutes weight now row.1.hostId m.hostId m.timestamp)
    (fun row => p row.1) (hostCpu weight now hosts t) t.memoryMetrics
  have disk := filter_leftJoin
    (fun row d => inFiveMinutes weight now row.1.1.hostId d.hostId d.timestamp)
    (fun row => p row.1.1) (hostMemory weight now hosts t) t.diskMetrics
  have network := filter_leftJoin
    (fun row n => decide (weight row.1.1.1.hostId = weight n.hostId))
    (fun row => p row.1.1.1) (hostDisk weight now hosts t)
    (networkPeaks weight now t.networkMetrics)
  rw [hostCpu, cpu] at memory
  rw [hostMemory, hostCpu, memory] at disk
  rw [hostDisk, hostMemory, hostCpu, disk] at network
  exact network

theorem host_of_mem_hostCpu {hosts : List HostRow} {t : MetricTables R}
    {row : HostRow × Option (CpuRow R)} (member : row ∈ hostCpu weight now hosts t) :
    row.1 ∈ hosts :=
  mem_of_mem_leftJoin member

theorem host_of_mem_hostMemory {hosts : List HostRow} {t : MetricTables R}
    {row : (HostRow × Option (CpuRow R)) × Option (MemoryRow R)}
    (member : row ∈ hostMemory weight now hosts t) : row.1.1 ∈ hosts :=
  host_of_mem_hostCpu (mem_of_mem_leftJoin member)

theorem host_of_mem_hostDisk {hosts : List HostRow} {t : MetricTables R}
    {row : ((HostRow × Option (CpuRow R)) × Option (MemoryRow R)) × Option (DiskRow R)}
    (member : row ∈ hostDisk weight now hosts t) : row.1.1.1 ∈ hosts :=
  host_of_mem_hostMemory (mem_of_mem_leftJoin member)

theorem host_of_mem_statusJoin [Add R] [LinearOrder R] {hosts : List HostRow}
    {t : MetricTables R} {row : StatusJoin R} (member : row ∈ statusJoin weight now hosts t) :
    row.1.1.1.1 ∈ hosts :=
  host_of_mem_hostDisk (mem_of_mem_leftJoin member)

variable (weight now) (h : HostRow) (t : MetricTables R)

theorem hostDisk_ne_nil : hostDisk weight now [h] t ≠ [] :=
  leftJoin_ne_nil _ _ (leftJoin_ne_nil _ _ (leftJoin_ne_nil _ _ (List.cons_ne_nil _ _)))

theorem recent_cpu (h' : HostRow) (member : h' ∈ [h]) :
    (t.cpuMetrics.filter fun c => inFiveMinutes weight now h'.hostId c.hostId c.timestamp) =
      (t.recent weight now h.hostId).cpuMetrics := by
  rw [List.mem_singleton.mp member]
  rfl

theorem recent_memory (row : HostRow × Option (CpuRow R))
    (member : row ∈ hostCpu weight now [h] t) :
    (t.memoryMetrics.filter fun m =>
        inFiveMinutes weight now row.1.hostId m.hostId m.timestamp) =
      (t.recent weight now h.hostId).memoryMetrics := by
  rw [List.mem_singleton.mp (host_of_mem_hostCpu member)]
  rfl

theorem recent_disk (row : (HostRow × Option (CpuRow R)) × Option (MemoryRow R))
    (member : row ∈ hostMemory weight now [h] t) :
    (t.diskMetrics.filter fun d =>
        inFiveMinutes weight now row.1.1.hostId d.hostId d.timestamp) =
      (t.recent weight now h.hostId).diskMetrics := by
  rw [List.mem_singleton.mp (host_of_mem_hostMemory member)]
  rfl

variable [Add R] [LinearOrder R]

theorem statusJoin_ne_nil : statusJoin weight now [h] t ≠ [] :=
  leftJoin_ne_nil _ _ (hostDisk_ne_nil weight now h t)

/-- The rows of the subquery for the host. -/
def ownPeaks : List (NetworkPeak R) :=
  (networkPeaks weight now t.networkMetrics).filter fun n => weight h.hostId = weight n.hostId

theorem own_peaks
    (row : ((HostRow × Option (CpuRow R)) × Option (MemoryRow R)) × Option (DiskRow R))
    (member : row ∈ hostDisk weight now [h] t) :
    ((networkPeaks weight now t.networkMetrics).filter fun n =>
      weight row.1.1.1.hostId = weight n.hostId) = ownPeaks weight now h t := by
  rw [List.mem_singleton.mp (host_of_mem_hostDisk member)]
  rfl

/-! ## The columns -/

variable {γ : Type}

/-- A column of `cpu_metrics`. -/
theorem cpuStatusColumn (f : CpuRow R → Option γ) :
    SameValues ((statusJoin weight now [h] t).map fun row => row.1.1.1.2.bind f)
      ((t.recent weight now h.hostId).cpuMetrics.map f) := by
  have network := proportional_left_column (own_peaks weight now h t)
    fun row => row.1.1.2.bind f
  have disk := proportional_left_column (recent_disk weight now h t) fun row => row.1.2.bind f
  have memory := proportional_left_column (recent_memory weight now h t) fun row => row.2.bind f
  have cpu := proportional_right_column (recent_cpu weight now h t) (List.cons_ne_nil _ _)
    fun c => c.bind f
  exact sameValues_orNull (((network.trans disk).trans memory).trans cpu)

/-- The used memory of the joined rows is that of the recent rows, or NULL without any. -/
theorem memoryStatusColumn (f : MemoryRow R → Option γ) :
    Proportional ((statusJoin weight now [h] t).map fun row => row.1.1.2.bind f)
      ((orNull (t.recent weight now h.hostId).memoryMetrics).map fun m => m.bind f) := by
  have network := proportional_left_column (own_peaks weight now h t) fun row => row.1.2.bind f
  have disk := proportional_left_column (recent_disk weight now h t) fun row => row.2.bind f
  have memory := proportional_right_column (recent_memory weight now h t)
    (leftJoin_ne_nil _ _ (List.cons_ne_nil _ _)) fun m => m.bind f
  exact (network.trans disk).trans memory

/-- A column of `disk_metrics`. -/
theorem diskStatusColumn (f : DiskRow R → Option γ) :
    SameValues ((statusJoin weight now [h] t).map fun row => row.1.2.bind f)
      ((t.recent weight now h.hostId).diskMetrics.map f) := by
  have network := proportional_left_column (own_peaks weight now h t) fun row => row.2.bind f
  have disk := proportional_right_column (recent_disk weight now h t)
    (leftJoin_ne_nil _ _ (leftJoin_ne_nil _ _ (List.cons_ne_nil _ _))) fun d => d.bind f
  exact sameValues_orNull (network.trans disk)

/-- A column of the subquery. -/
theorem networkStatusColumn (f : NetworkPeak R → Option γ) :
    SameValues ((statusJoin weight now [h] t).map fun row => row.2.bind f)
      ((ownPeaks weight now h t).map f) :=
  sameValues_orNull (proportional_right_column (own_peaks weight now h t)
    (hostDisk_ne_nil weight now h t) fun n => n.bind f)

/-- **The peak of the subquery** is the maximum over the recent rows of the host. -/
theorem sqlMax_ownPeaks :
    sqlMax ((ownPeaks weight now h t).map NetworkPeak.totalThroughputMbps) =
      sqlMax ((t.recent weight now h.hostId).networkMetrics.map NetworkRow.throughput) := by
  let recent := t.networkMetrics.filter fun nm => now - 300 ≤ nm.timestamp
  have own : ∀ nm : NetworkRow R, weight nm.hostId = weight h.hostId →
      (recent.filter fun other => weight other.hostId = weight nm.hostId) =
        (t.recent weight now h.hostId).networkMetrics := by
    intro nm same
    rw [MetricTables.recent, recentRows, List.filter_filter, same]
    refine List.filter_congr fun other _ => ?_
    simp only [inFiveMinutes, eq_comm]
  refine sqlMax_eq_of_mem_iff fun a => ?_
  rw [List.reduceOption_mem_iff, List.mem_map]
  constructor
  · rintro ⟨peak, inside, total⟩
    obtain ⟨found, same⟩ := List.mem_filter.mp inside
    obtain ⟨group, grouped, made⟩ := List.mem_filterMap.mp found
    obtain ⟨nm, member, rfl⟩ := mem_groupBy.mp grouped
    obtain ⟨first, head, rfl⟩ := Option.map_eq_some_iff.mp made
    have key := (List.mem_filter.mp (List.mem_of_head? head)).2
    rw [own nm ((of_decide_eq_true key).symm.trans (of_decide_eq_true same).symm)] at total
    exact total
  · intro total
    obtain ⟨nm, rest, split⟩ : ∃ nm rest,
        (t.recent weight now h.hostId).networkMetrics = nm :: rest := by
      refine List.exists_cons_of_ne_nil fun none => ?_
      rw [none] at total
      cases total
    have inside : nm ∈ (t.recent weight now h.hostId).networkMetrics := by
      rw [split]
      exact List.mem_cons_self
    obtain ⟨member, window⟩ := List.mem_filter.mp inside
    obtain ⟨same, young⟩ := Bool.and_eq_true_iff.mp window
    have same := (of_decide_eq_true same).symm
    refine ⟨⟨nm.hostId, _⟩, List.mem_filter.mpr ⟨List.mem_filterMap.mpr ⟨_,
      mem_groupBy.mpr ⟨nm, List.mem_filter.mpr ⟨member, young⟩, rfl⟩, ?_⟩,
      decide_eq_true same.symm⟩, total⟩
    rw [own nm same, networkPeak, split]
    rfl

end Join

/-! ## The rows of the view -/

section Status

variable {R κ : Type} [DecidableEq κ] [Field R] [LinearOrder R] (weight : Text → κ)

/-- What the database may take of a column that is not aggregated: a value from some row. -/
def Picks (pick : List (Option R) → Option R) : Prop := ∀ column ≠ [], pick column ∈ column

/-- The row of a group that holds the joined rows of one host. -/
theorem selectStatus_statusJoin [CharZero R] (pick : List (Option R) → Option R) (now : ℤ)
    (h : HostRow) (t : MetricTables R) :
    selectStatus pick (statusJoin weight now [h] t) =
      some (separateStatus h.hostName
        (pick ((statusJoin weight now [h] t).map fun row => row.1.1.2.bind MemoryRow.usedPercent))
        (t.recent weight now h.hostId)) := by
  obtain ⟨first, rest, split⟩ := List.exists_cons_of_ne_nil (statusJoin_ne_nil weight now h t)
  have host : first.1.1.1.1 = h :=
    List.mem_singleton.mp (host_of_mem_statusJoin (by rw [split]; exact List.mem_cons_self))
  have head : (statusJoin weight now [h] t).head? = some first := by rw [split]; rfl
  have dates : (fun row : StatusJoin R => row.1.1.1.2.map CpuRow.timestamp) =
      fun row => row.1.1.1.2.bind fun c => some c.timestamp := by
    funext row
    cases row.1.1.1.2 <;> rfl
  have disk := diskStatusColumn weight now h t DiskRow.utilPercent
  have network := networkStatusColumn weight now h t NetworkPeak.totalThroughputMbps
  rw [selectStatus, head, Option.map_some, host, dates, separateStatus, Option.some.injEq,
    StatusRow.mk.injEq]
  exact ⟨rfl, (cpuStatusColumn weight now h t _).sqlMax, (cpuStatusColumn weight now h t _).sqlAvg,
    (cpuStatusColumn weight now h t _).sqlMax, rfl, disk.sqlMax,
    network.sqlMax.trans (sqlMax_ownPeaks weight now h t)⟩

/-- The used memory that the view shows of a host. -/
def memoryUsage (pick : List (Option R) → Option R) (now : ℤ) (t : MetricTables R) (h : HostRow) :
    Option R :=
  pick ((statusJoin weight now [h] t).map fun row => row.1.1.2.bind MemoryRow.usedPercent)

theorem memoryUsage_mem {pick : List (Option R) → Option R} (picks : Picks pick) (now : ℤ)
    (t : MetricTables R) (h : HostRow) :
    memoryUsage weight pick now t h ∈
      (orNull (t.recent weight now h.hostId).memoryMetrics).map fun m =>
        m.bind MemoryRow.usedPercent := by
  have column := memoryStatusColumn weight now h t MemoryRow.usedPercent
  refine column.mem_iff.mp (picks _ ?_)
  rw [ne_eq, List.map_eq_nil_iff]
  exact statusJoin_ne_nil weight now h t

/-- The view has one group of joined rows for each host. -/
theorem perm_statusRows [CharZero R] (pick : List (Option R) → Option R) (now : ℤ)
    {hosts : List HostRow} (distinct : (hosts.map fun h => weight h.hostId).Nodup)
    (t : MetricTables R) :
    (statusRows weight pick now hosts t).Perm (hosts.map fun h =>
      separateStatus h.hostName (memoryUsage weight pick now t h)
        (t.recent weight now h.hostId)) := by
  have keys : (hosts.map (groupKey weight)).Nodup := by
    refine List.Nodup.of_map Prod.fst ?_
    rw [List.map_map]
    exact distinct
  have group : ∀ h ∈ hosts, ((statusJoin weight now hosts t).filter fun row =>
      groupKey weight row.1.1.1.1 = groupKey weight h) = statusJoin weight now [h] t := by
    intro h member
    rw [filter_statusJoin (fun h' => decide (groupKey weight h' = groupKey weight h)),
      filter_key_eq keys member]
  have same : ∀ k, k ∈ (statusJoin weight now hosts t).map (fun row =>
      groupKey weight row.1.1.1.1) ↔ k ∈ hosts.map (groupKey weight) := by
    intro k
    rw [List.mem_map, List.mem_map]
    constructor
    · rintro ⟨row, member, rfl⟩
      exact ⟨_, host_of_mem_statusJoin member, rfl⟩
    · rintro ⟨h, member, rfl⟩
      obtain ⟨row, rest, split⟩ := List.exists_cons_of_ne_nil (statusJoin_ne_nil weight now h t)
      rw [← group h member] at split
      have inside := List.mem_filter.mp (split ▸ List.mem_cons_self (a := row) (l := rest))
      exact ⟨row, inside.1, of_decide_eq_true inside.2⟩
  have groups := (groupBy_perm keys same).filterMap (selectStatus pick)
  rw [List.map_map, List.filterMap_map] at groups
  refine groups.trans (List.Perm.of_eq ?_)
  rw [← List.filterMap_eq_map]
  refine List.filterMap_congr fun h member => ?_
  simp only [Function.comp_apply, group h member]
  exact selectStatus_statusJoin weight pick now h t

/-- **The rows of the view.**  For any contents of the tables, with identifiers that the
collation tells apart, the view has one row for each host, in some order.  Each aggregate is
that of the host's own rows of the last five minutes in one table, however many rows the other
tables have; the used memory is that of one of the host's rows of the last five minutes, which
the database chooses, and NULL if there is none. -/
theorem statusRows_perm [CharZero R] (pick : List (Option R) → Option R) (picks : Picks pick)
    (now : ℤ) (hosts : List HostRow) (distinct : (hosts.map fun h => weight h.hostId).Nodup)
    (t : MetricTables R) :
    ∃ memoryUsage : HostRow → Option R,
      (statusRows weight pick now hosts t).Perm (hosts.map fun h =>
        separateStatus h.hostName (memoryUsage h) (t.recent weight now h.hostId)) ∧
      ∀ h ∈ hosts, memoryUsage h ∈ (orNull (t.recent weight now h.hostId).memoryMetrics).map
        fun m => m.bind MemoryRow.usedPercent :=
  ⟨_, perm_statusRows weight pick now distinct t, fun h _ => memoryUsage_mem weight picks now t h⟩

end Status

/-- The value of the first row. -/
def firstValue (column : List (Option ℚ)) : Option ℚ := column.head?.join

theorem picks_firstValue : Picks firstValue := by
  intro column nonempty
  obtain ⟨first, rest, rfl⟩ := List.exists_cons_of_ne_nil nonempty
  exact List.mem_cons_self

def twoHosts : List HostRow := [⟨"h".toList, "web".toList⟩, ⟨"g".toList, "db".toList⟩]

/-- The row of `web`, with two joined rows. -/
theorem statusRows_twoDisks :
    ⟨"web".toList, some 7200, some 20, some 3, none, some 7, none⟩ ∈
      statusRows id firstValue 5300 twoHosts twoDisks := by
  obtain ⟨memoryUsage, rows, used⟩ :=
    statusRows_perm id firstValue picks_firstValue 5300 twoHosts (by decide) twoDisks
  have web : memoryUsage ⟨"h".toList, "web".toList⟩ = none :=
    List.mem_singleton.mp (used _ List.mem_cons_self)
  refine rows.mem_iff.mpr (List.mem_map.mpr ⟨_, List.mem_cons_self, ?_⟩)
  rw [web]
  decide +kernel

/-! ## Hosts of every round -/

theorem asCpuRow_eq_some {R : Type} {q : Statement R} {c : CpuRow R} :
    q.asCpuRow = some c ↔ ∃ hostId time x load, q = .insertCpu hostId time x load ∧
      c = cpuRow hostId time x load := by
  constructor
  · intro added
    cases q with
    | insertCpu hostId time x load => exact ⟨hostId, time, x, load, rfl, by cases added; rfl⟩
    | _ => cases added
  · rintro ⟨hostId, time, x, load, rfl, rfl⟩
    rfl

theorem asMemoryRow_eq_some {R : Type} {q : Statement R} {m : MemoryRow R} :
    q.asMemoryRow = some m ↔ ∃ hostId time memInfo, q = .insertMemory hostId time memInfo ∧
      m = memoryRow hostId time memInfo := by
  constructor
  · intro added
    cases q with
    | insertMemory hostId time memInfo => exact ⟨hostId, time, memInfo, rfl, by cases added; rfl⟩
    | _ => cases added
  · rintro ⟨hostId, time, memInfo, rfl, rfl⟩
    rfl

theorem insertCpu_mem_rowStatements {R : Type} [Zero R] (zone : ℤ → ℤ) {info : MonitorInfo R}
    {hostId id : Text} {o : OwnOutcomes} {time : ℤ} {x : CpuStat R} {load : CpuLoad R} :
    .insertCpu id time x load ∈ rowStatements zone info hostId o ↔ id = hostId ∧
      time = zone o.cpu.now ∧ x ∈ info.cpuStat ∧ load = info.cpuLoadOrUnset := by
  simp only [rowStatements, cpuStatements, softIrqStatements, memoryStatements,
    diskStatements, networkStatements, List.mem_append, List.mem_map, List.mem_singleton,
    Statement.insertCpu.injEq, reduceCtorEq, and_false, exists_false, or_false]
  constructor
  · rintro ⟨_, member, rfl, rfl, rfl, rfl⟩
    exact ⟨rfl, rfl, member, rfl⟩
  · rintro ⟨rfl, rfl, member, rfl⟩
    exact ⟨x, member, rfl, rfl, rfl, rfl⟩

namespace HostTurns

variable {R : Type} [Field R] [LinearOrder R] {run : Monitoring R} (host : HostTurns run)
  {κ : Type} [DecidableEq κ] {weight : Text → κ} (zone : ℤ → ℤ) {s : HostState}

theorem insertCpu_mem_rows {id : Text} {time : ℤ} {x : CpuStat R} {load : CpuLoad R} {k : ℕ} :
    .insertCpu id time x load ∈ host.rows weight zone s k ↔ id = host.hostId weight s ∧
      time = zone (host.outcomes k).own.cpu.now ∧ x ∈ (host.info k).cpuStat ∧
        load = (host.info k).cpuLoadOrUnset :=
  insertCpu_mem_rowStatements zone

theorem insertMemory_mem_rows {id : Text} {time : ℤ} {memInfo : MemInfo R} {k : ℕ} :
    .insertMemory id time memInfo ∈ host.rows weight zone s k ↔ id = host.hostId weight s ∧
      time = zone (host.outcomes k).own.memory.now ∧ memInfo = (host.info k).memInfoOrUnset := by
  simp only [rows, rowStatements, cpuStatements, softIrqStatements, memoryStatements,
    diskStatements, networkStatements, List.mem_append, List.mem_map, List.mem_singleton,
    Statement.insertMemory.injEq, reduceCtorEq, and_false, exists_false, or_false, false_or]

section Known

variable (apart : Apart weight run.names s.hostInfo) (agrees : CacheAgrees s)
  (obtained : host.hostId weight s ≠ [])
include apart agrees obtained

/-- **The rows of the host** in the tables are those of its turns. -/
theorem mem_tables_iff {n : ℕ} (served : ∀ k < n, host.Served k) {row : Statement R} {id : Text}
    {time : ℤ} (stamp : row.stamp = some (id, time))
    (equal : weight id = weight (host.hostId weight s)) :
    row ∈ (run.tables weight zone s n).metrics ↔ ∃ k < n, row ∈ host.rows weight zone s k := by
  constructor
  · exact fun member => host.row_origin zone apart agrees obtained served member stamp equal
  · rintro ⟨k, early, member⟩
    refine (run.grows_tables weight zone s early).metrics row
      (mem_metrics_executeAll.mpr (Or.inr ?_))
    exact ⟨host.rows_executed zone apart agrees obtained (served k early) member,
      by rw [stamp]; rfl⟩

/-- The recent rows of `cpu_metrics` of the host. -/
theorem mem_recent_cpu {n : ℕ} (served : ∀ k < n, host.Served k) {now : ℤ} {c : CpuRow R} :
    c ∈ ((metricTables (run.tables weight zone s n).metrics).recent weight now
        (host.hostId weight s)).cpuMetrics ↔
      ∃ k < n, now - 300 ≤ zone (host.outcomes k).own.cpu.now ∧ ∃ x ∈ (host.info k).cpuStat,
        c = cpuRow (host.hostId weight s) (zone (host.outcomes k).own.cpu.now) x
          (host.info k).cpuLoadOrUnset := by
  simp only [MetricTables.recent, recentRows, metricTables, List.mem_filter, List.mem_filterMap,
    inFiveMinutes, Bool.and_eq_true, decide_eq_true_eq]
  constructor
  · rintro ⟨⟨q, member, added⟩, own, young⟩
    obtain ⟨_, time, x, load, rfl, rfl⟩ := asCpuRow_eq_some.mp added
    obtain ⟨k, early, row⟩ :=
      (host.mem_tables_iff zone apart agrees obtained served rfl own.symm).mp member
    obtain ⟨rfl, rfl, inside, rfl⟩ := (host.insertCpu_mem_rows zone).mp row
    exact ⟨k, early, young, x, inside, rfl⟩
  · rintro ⟨k, early, young, x, inside, rfl⟩
    have row := (host.insertCpu_mem_rows zone).mpr ⟨Eq.refl (host.hostId weight s),
      Eq.refl (zone (host.outcomes k).own.cpu.now), inside, rfl⟩
    exact ⟨⟨_, (host.mem_tables_iff zone apart agrees obtained served rfl rfl).mpr ⟨k, early, row⟩,
      rfl⟩, rfl, young⟩

/-- The recent rows of `memory_metrics` of the host. -/
theorem mem_recent_memory {n : ℕ} (served : ∀ k < n, host.Served k) {now : ℤ}
    {m : MemoryRow R} :
    m ∈ ((metricTables (run.tables weight zone s n).metrics).recent weight now
        (host.hostId weight s)).memoryMetrics ↔
      ∃ k < n, now - 300 ≤ zone (host.outcomes k).own.memory.now ∧
        m = memoryRow (host.hostId weight s) (zone (host.outcomes k).own.memory.now)
          (host.info k).memInfoOrUnset := by
  simp only [MetricTables.recent, recentRows, metricTables, List.mem_filter, List.mem_filterMap,
    inFiveMinutes, Bool.and_eq_true, decide_eq_true_eq]
  constructor
  · rintro ⟨⟨q, member, added⟩, own, young⟩
    obtain ⟨_, time, memInfo, rfl, rfl⟩ := asMemoryRow_eq_some.mp added
    obtain ⟨k, early, row⟩ :=
      (host.mem_tables_iff zone apart agrees obtained served rfl own.symm).mp member
    obtain ⟨rfl, rfl, rfl⟩ := (host.insertMemory_mem_rows zone).mp row
    exact ⟨k, early, young, rfl⟩
  · rintro ⟨k, early, young, rfl⟩
    have row := (host.insertMemory_mem_rows zone).mpr
      ⟨Eq.refl (host.hostId weight s), Eq.refl (zone (host.outcomes k).own.memory.now), rfl⟩
    exact ⟨⟨_, (host.mem_tables_iff zone apart agrees obtained served rfl rfl).mpr ⟨k, early, row⟩,
      rfl⟩, rfl, young⟩

end Known

/-- The clock of the CPU rows does not go back. -/
theorem cpu_now_mono {j k : ℕ} (le : j ≤ k) :
    (host.outcomes j).own.cpu.now ≤ (host.outcomes k).own.cpu.now := by
  rcases le.lt_or_eq with earlier | rfl
  · have later := run.ends_lt_begins earlier
    obtain ⟨_, _, checkJ, summaryJ, lastJ⟩ := host.readings j
    have first := (host.readings k).1
    omega
  · exact le_refl _

end HostTurns

end LinuxMonitor.PerformanceServer
