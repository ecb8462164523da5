import LinuxMonitor.PerformanceServer.Collation
import LinuxMonitor.PerformanceServer.Tables

/-!
# The monitoring loop

`startMonitoring` fetches and stores in rounds, with sixty sleeps of one second after each.
The clock counts nanoseconds since the epoch; the program reads it in whole seconds.

The module follows one host that is in every round, with the identifier that it gets in the
first round.  The database compares texts by their weights, and tells the names of the run and
their identifiers apart.

* `HostTurns.hostId_turn`: the host keeps its identifier.
* `HostTurns.executed_of_owner`: what is executed under the identifier is executed in the
  host's own turn.
* `HostTurns.row_origin`, `HostTurns.bucket_origin`: rows and buckets of the host come from
  its turns.
* `HostTurns.bucket_holds`: **a summary in round `m` has all rows of the rounds up to `m`
  that lie in its window, provided a row of `cpu_metrics` is among them.**
-/

set_option autoImplicit false

namespace LinuxMonitor.PerformanceServer

open Library Proto

/-! ## Executed statements -/

section Executed

variable {R : Type}

/-- The statements of a turn that succeeded. -/
def HostLog.executed (log : HostLog R) : List (Statement R) :=
  ((log.rows ++ log.summary.toList).filter Attempt.ok).map Attempt.query

def Stored.executed (stored : Stored R) : List (Statement R) :=
  stored.logs.flatMap HostLog.executed

/-- The `host_id` that a statement stores something under. -/
def Statement.owner : Statement R → Option Text
  | .insertCpu hostId _ _ _ => some hostId
  | .insertSoftIrq hostId _ _ => some hostId
  | .insertMemory hostId _ _ => some hostId
  | .insertDisk hostId _ _ => some hostId
  | .insertNetwork hostId _ _ => some hostId
  | .insertSummary hostId _ _ => some hostId
  | _ => none

theorem owner_of_stamp {s : Statement R} {hostId : Text} {time : ℤ}
    (stamp : s.stamp = some (hostId, time)) : s.owner = some hostId := by
  cases s <;> cases stamp <;> rfl

/-- All queries of a turn succeed. -/
structure HostOutcomes.AllOk (o : HostOutcomes) : Prop where
  cpu : ∀ i, o.own.cpu.ok i = true
  softIrq : ∀ i, o.own.softIrq.ok i = true
  memory : ∀ i, o.own.memory.ok i = true
  disk : ∀ i, o.own.disk.ok i = true
  network : ∀ i, o.own.network.ok i = true
  summary : o.summary.ok = true

theorem executeQueries_allOk {ok : ℕ → Bool} (allOk : ∀ i, ok i = true)
    (queries : List (Statement R)) :
    (executeQueries ok queries).1 = queries.map fun query => ⟨query, true⟩ := by
  induction queries generalizing ok with
  | nil => rfl
  | cons query queries ih =>
      rw [executeQueries, if_pos (allOk 0)]
      exact congrArg (List.cons _) (ih fun i => allOk (i + 1))

section Rows

variable [Zero R] (zone : ℤ → ℤ) (info : MonitorInfo R) (hostId : Text) (o : OwnOutcomes)

/-- The statements of the five insert functions. -/
def rowStatements : List (Statement R) :=
  cpuStatements info hostId (zone o.cpu.now) ++
    (softIrqStatements info hostId (zone o.softIrq.now) ++
      (memoryStatements info hostId (zone o.memory.now) ++
        (diskStatements info hostId (zone o.disk.now) ++
          networkStatements info hostId (zone o.network.now))))

/-- The clock readings that stamp the rows of the four tables of the summary. -/
def stamps : List ℤ :=
  info.cpuStat.map (fun _ => o.cpu.now) ++ (o.memory.now ::
    (info.diskInfo.map (fun _ => o.disk.now) ++ info.netInfo.map (fun _ => o.network.now)))

theorem exists_cpuStatement {info : MonitorInfo R} (cpus : info.cpuStat ≠ []) :
    ∃ q ∈ rowStatements zone info hostId o, q.isCpu = true ∧
      q.stamp = some (hostId, zone o.cpu.now) := by
  obtain ⟨cpuStat, member⟩ := List.exists_mem_of_ne_nil _ cpus
  exact ⟨_, List.mem_append_left _ (List.mem_map_of_mem member), rfl, rfl⟩

/-- Each of the readings stamps a row. -/
theorem exists_rowStatement {info : MonitorInfo R} {o : OwnOutcomes} {r : ℤ}
    (member : r ∈ stamps info o) :
    ∃ q ∈ rowStatements zone info hostId o, q.stamp = some (hostId, zone r) := by
  simp only [stamps, List.mem_append, List.mem_cons, List.mem_map] at member
  simp only [rowStatements, List.mem_append]
  rcases member with ⟨x, inside, rfl⟩ | rfl | ⟨x, inside, rfl⟩ | ⟨x, inside, rfl⟩
  · exact ⟨_, Or.inl (List.mem_map_of_mem inside), rfl⟩
  · exact ⟨_, Or.inr (Or.inr (Or.inl List.mem_cons_self)), rfl⟩
  · exact ⟨_, Or.inr (Or.inr (Or.inr (Or.inl (List.mem_map_of_mem inside)))), rfl⟩
  · exact ⟨_, Or.inr (Or.inr (Or.inr (Or.inr (List.mem_map_of_mem inside)))), rfl⟩

variable {zone info hostId o}

theorem owner_metricStatements {q : Statement R} {time : ℤ}
    (member : q ∈ metricStatements info hostId time) : q.owner = some hostId := by
  simp only [metricStatements, cpuStatements, softIrqStatements, memoryStatements, diskStatements,
    networkStatements, List.mem_append, List.mem_map, List.mem_singleton] at member
  rcases member with ⟨_, _, rfl⟩ | ⟨_, _, rfl⟩ | rfl | ⟨_, _, rfl⟩ | ⟨_, _, rfl⟩ <;> rfl

/-- A row is stamped with one of the readings. -/
theorem stamp_rowStatements {q : Statement R} {id : Text} {time : ℤ}
    (member : q ∈ rowStatements zone info hostId o) (stamp : q.stamp = some (id, time)) :
    ∃ r ∈ stamps info o, time = zone r := by
  simp only [rowStatements, cpuStatements, softIrqStatements, memoryStatements, diskStatements,
    networkStatements, List.mem_append, List.mem_map, List.mem_singleton] at member
  simp only [stamps, List.mem_append, List.mem_cons, List.mem_map]
  rcases member with ⟨x, inside, rfl⟩ | ⟨x, inside, rfl⟩ | rfl | ⟨x, inside, rfl⟩ |
    ⟨x, inside, rfl⟩ <;> cases stamp
  · exact ⟨o.cpu.now, Or.inl ⟨x, inside, rfl⟩, rfl⟩
  · exact ⟨o.memory.now, Or.inr (Or.inl rfl), rfl⟩
  · exact ⟨o.disk.now, Or.inr (Or.inr (Or.inl ⟨x, inside, rfl⟩)), rfl⟩
  · exact ⟨o.network.now, Or.inr (Or.inr (Or.inr ⟨x, inside, rfl⟩)), rfl⟩

/-- When all queries succeed the insert functions attempt all their statements. -/
theorem insertMetrics_allOk {o : HostOutcomes} (allOk : o.AllOk) :
    (insertMetrics zone info hostId o.own).1 =
      (rowStatements zone info hostId o.own).map fun query => ⟨query, true⟩ := by
  simp only [insertMetrics, insertCPUMetrics, insertSoftIrqMetrics, insertMemoryMetrics,
    insertDiskMetrics, insertNetworkMetrics, executeQueries_allOk allOk.cpu,
    executeQueries_allOk allOk.softIrq, executeQueries_allOk allOk.memory,
    executeQueries_allOk allOk.disk, executeQueries_allOk allOk.network, rowStatements,
    List.map_append]

end Rows

variable [Field R] [LinearOrder R] {zone : ℤ → ℤ} {info : MonitorInfo R} {o : HostOutcomes}
  {s : HostState}

/-- The summary of a turn, on the hour. -/
def summaryStatements (zone : ℤ → ℤ) (info : MonitorInfo R) (hostId : Text) (o : HostOutcomes) :
    List (Statement R) :=
  if OnTheHour o.now then
    [.insertSummary hostId (zone o.summary.now) (some (calculateOverallPerformanceScore info))]
  else []

/-- Everything a turn executes is stored under its identifier. -/
theorem owner_hostTurn {q : Statement R} (member : q ∈ (hostTurn zone info o s).executed) :
    q.owner = some (hostTurn zone info o s).hostId := by
  by_cases missing : (hostTurn zone info o s).hostId = []
  · rw [hostTurn_missing missing] at member
    cases member
  · obtain ⟨attempt, inside, rfl⟩ := List.mem_map.mp member
    rcases List.mem_append.mp (List.mem_filter.mp inside).1 with row | summary
    · rw [hostTurn_rows missing] at row
      obtain ⟨time, built⟩ := query_of_mem_insertMetrics row
      exact owner_metricStatements built
    · rw [hostTurn_summary missing] at summary
      split at summary
      · rw [List.mem_singleton.mp summary]
        rfl
      · cases summary

/-- **A turn whose queries succeed** executes all rows of the report, and then the summary. -/
theorem executed_hostTurn (obtained : (hostTurn zone info o s).hostId ≠ []) (allOk : o.AllOk) :
    (hostTurn zone info o s).executed =
      rowStatements zone info (hostTurn zone info o s).hostId o.own ++
        summaryStatements zone info (hostTurn zone info o s).hostId o := by
  rw [HostLog.executed, hostTurn_rows obtained, hostTurn_summary obtained,
    insertMetrics_allOk allOk, List.filter_append, List.map_append, summaryStatements]
  congr 1
  · rw [List.filter_map, List.map_map]
    simp [Function.comp_def]
  · split
    · simp [allOk.summary]
    · rfl

end Executed

/-! ## Rounds -/

section Rounds

variable {R : Type} [Field R] [LinearOrder R] {κ : Type} [DecidableEq κ]

/-- One pass of the loop: what `fetchMonitorData` got, nothing if it failed, what storing
meets, and the nanoseconds that the pass takes beside the sixty seconds of sleep. -/
structure Round (R : Type) where
  fetched : Option (List (MonitorInfo R))
  outcomes : ℕ → HostOutcomes
  delay : ℕ

def storeRound (weight : Text → κ) (zone : ℤ → ℤ) (round : Round R) (s : HostState) : Stored R :=
  match round.fetched with
  | some data => storeToDatabase (.collated weight) zone true data round.outcomes s
  | none => ⟨[], s, false⟩

/-- The whole seconds of an instant. -/
def second (instant : ℕ) : ℤ := (instant / 10 ^ 9 : ℕ)

/-- The instant at which a round begins. -/
def beginning (start : ℕ) (round : ℕ → Round R) : ℕ → ℕ
  | 0 => start
  | k + 1 => beginning start round k + (round k).delay + 60 * 10 ^ 9

/-- The clock is read in the order of the program, between two readings. -/
def Clocked (first last : ℤ) (o : HostOutcomes) : Prop :=
  List.IsChain (· ≤ ·) [first, o.own.cpu.now, o.own.softIrq.now, o.own.memory.now,
    o.own.disk.now, o.own.network.now, o.now, o.summary.now, last]

/-- A run of the loop.  Each round takes less than sixty seconds beside the sleep, and the
fetched reports have different names. -/
structure Monitoring (R : Type) [Field R] [LinearOrder R] where
  start : ℕ
  round : ℕ → Round R
  short : ∀ k, (round k).delay < 60 * 10 ^ 9
  clocked : ∀ k i, Clocked (second (beginning start round k))
    (second (beginning start round k + (round k).delay)) ((round k).outcomes i)
  distinct : ∀ k data, (round k).fetched = some data → (data.map MonitorInfo.name).Nodup

namespace Monitoring

variable (run : Monitoring R) (weight : Text → κ) (zone : ℤ → ℤ) (s : HostState)

/-- The names in the fetched reports. -/
def names : Set Text :=
  {name | ∃ k data, (run.round k).fetched = some data ∧ name ∈ data.map MonitorInfo.name}

/-- The cache and the table of hosts when a round begins. -/
def state : ℕ → HostState
  | 0 => s
  | k + 1 => (storeRound weight zone (run.round k) (state k)).state

def stored (k : ℕ) : Stored R := storeRound weight zone (run.round k) (run.state weight zone s k)

/-- The tables when a round begins. -/
def tables : ℕ → Tables κ R
  | 0 => .empty
  | k + 1 => (tables k).executeAll weight (run.stored weight zone s k).executed

/-- The second in which a round begins. -/
def begins (k : ℕ) : ℤ := second (beginning run.start run.round k)

/-- The second in which a round ends and the sleep begins. -/
def ends (k : ℕ) : ℤ := second (beginning run.start run.round k + (run.round k).delay)

/-! ## The tables of a run -/

theorem sound_tables (n : ℕ) : Sound weight (run.tables weight zone s n) := by
  induction n with
  | zero => exact sound_empty
  | succ n ih => exact ih.executeAll _

theorem grows_tables {m n : ℕ} (later : m ≤ n) :
    Grows (run.tables weight zone s m) (run.tables weight zone s n) := by
  induction n, later using Nat.le_induction with
  | base => exact .refl _
  | succ n _ ih => exact ih.trans (.executeAll (run.sound_tables weight zone s n) _)

/-! ## Collations that tell the names apart -/

variable {weight s}

/-- A round goes as with the exact comparison, and the collation tells the texts apart after it. -/
theorem storeRound_literal (k : ℕ) {s : HostState} (apart : Apart weight run.names s.hostInfo) :
    storeRound weight zone (run.round k) s = storeRound id zone (run.round k) s ∧
      Apart weight run.names (storeRound id zone (run.round k) s).state.hostInfo := by
  cases fetched : (run.round k).fetched with
  | none =>
      simp only [storeRound, fetched]
      exact ⟨trivial, apart⟩
  | some data =>
      have known : ∀ info ∈ data, info.name ∈ run.names := fun info member =>
        ⟨k, data, fetched, List.mem_map_of_mem member⟩
      obtain ⟨same, after⟩ :=
        alike_collated.storeHosts zone known known (run.round k).outcomes apart
      simp only [storeRound, fetched, storeToDatabase, if_true, same]
      exact ⟨trivial, after⟩

theorem apart_state (apart : Apart weight run.names s.hostInfo) (k : ℕ) :
    Apart weight run.names (run.state weight zone s k).hostInfo := by
  induction k with
  | zero => exact apart
  | succ k ih =>
      obtain ⟨same, after⟩ := run.storeRound_literal zone k ih
      rw [state, same]
      exact after

end Monitoring

/-! ## A host of every round -/

/-- A host that is in the reports of every round. -/
structure HostTurns (run : Monitoring R) where
  name : Text
  data : ℕ → List (MonitorInfo R)
  index : ℕ → ℕ
  info : ℕ → MonitorInfo R
  fetched : ∀ k, (run.round k).fetched = some (data k)
  found : ∀ k, (data k)[index k]? = some (info k)
  named : ∀ k, (info k).name = name

namespace HostTurns

variable {run : Monitoring R} (host : HostTurns run) (weight : Text → κ) (zone : ℤ → ℤ)
  (s : HostState)

/-- What is met in the host's turn. -/
def outcomes (k : ℕ) : HostOutcomes := (run.round k).outcomes (host.index k)

/-- The host's report of the round lists a CPU, and its inserts and its summary succeed. -/
structure Served (k : ℕ) : Prop where
  cpus : (host.info k).cpuStat ≠ []
  allOk : (host.outcomes k).AllOk

/-- The clock reading of the hourly check. -/
def check (k : ℕ) : ℤ := (host.outcomes k).now

/-- The clock readings that stamp the host's rows in a round. -/
def stamps (k : ℕ) : List ℤ :=
  PerformanceServer.stamps (host.info k) (host.outcomes k).own

/-- The identifier that the host gets in the first round, empty for none. -/
def hostId : Text :=
  (getOrCreateHostId (.collated weight) host.name (host.outcomes 0).own.lookup s).1

def turn (k : ℕ) : HostLog R :=
  hostTurn zone (host.info k) (host.outcomes k) (run.state weight zone s k)

/-- The rows of the host's turn. -/
def rows (k : ℕ) : List (Statement R) :=
  rowStatements zone (host.info k) (host.hostId weight s) (host.outcomes k).own

/-- The summary of the host's turn. -/
def summary (k : ℕ) : Statement R :=
  .insertSummary (host.hostId weight s) (zone (host.outcomes k).summary.now)
    (some (calculateOverallPerformanceScore (host.info k)))

/-- What the host's bucket of an hour holds when a round begins. -/
def bucket (n : ℕ) (hour : ℤ) : Option (List (Statement R)) :=
  (run.tables weight zone s n).summaries.lookup (weight (host.hostId weight s), hour)

/-! ## The identifier -/

variable {weight s}

theorem name_mem : host.name ∈ run.names :=
  ⟨0, host.data 0, host.fetched 0, List.mem_map.mpr
    ⟨host.info 0, List.mem_of_getElem? (host.found 0), host.named 0⟩⟩

theorem hostId_eq (apart : Apart weight run.names s.hostInfo) : host.hostId weight s =
    (getOrCreateHostId .literal host.name (host.outcomes 0).own.lookup s).1 :=
  congrArg Prod.fst (alike_collated host.name host.name_mem _ s apart).1

theorem stored_eq (apart : Apart weight run.names s.hostInfo) (k : ℕ) :
    run.stored weight zone s k =
      storeToDatabase .literal zone true (host.data k) (run.round k).outcomes
        (run.state weight zone s k) := by
  rw [Monitoring.stored, (run.storeRound_literal zone k (run.apart_state zone apart k)).1,
    storeRound, host.fetched]

theorem distinct (k : ℕ) : ((host.data k).map MonitorInfo.name).Nodup :=
  run.distinct k _ (host.fetched k)

section Known

variable (apart : Apart weight run.names s.hostInfo) (agrees : CacheAgrees s)
include host apart agrees

theorem agrees_state (k : ℕ) : CacheAgrees (run.state weight zone s k) := by
  induction k with
  | zero => exact agrees
  | succ k ih =>
      have after := agrees_storeToDatabase zone (run.round k).outcomes (host.distinct k) ih
      rw [← host.stored_eq zone apart k] at after
      exact after

/-- The host's turn is one of the round's. -/
theorem turn_mem (k : ℕ) : host.turn weight zone s k ∈ (run.stored weight zone s k).logs := by
  rw [host.stored_eq zone apart,
    logs_storeToDatabase (host.distinct k) (host.agrees_state zone apart agrees k)]
  refine List.mem_iff_getElem?.mpr ⟨host.index k, ?_⟩
  rw [List.getElem?_mapIdx, host.found]
  rfl

/-- An identifier obtained in a round is cached when the next begins. -/
theorem cached_state {k : ℕ} {log : HostLog R}
    (member : log ∈ (run.stored weight zone s k).logs) (obtained : log.hostId ≠ []) :
    (run.state weight zone s (k + 1)).hostIdCache.lookup log.info.name = some log.hostId := by
  rw [host.stored_eq zone apart] at member
  have cached := cached_storeToDatabase (host.distinct k)
    (host.agrees_state zone apart agrees k) member obtained
  rw [← host.stored_eq zone apart k] at cached
  exact cached

/-- A turn with an identifier leaves a row with it in the table of hosts. -/
theorem row_of_log {k : ℕ} {log : HostLog R} (member : log ∈ (run.stored weight zone s k).logs)
    (obtained : log.hostId ≠ []) :
    ⟨log.hostId, log.info.name⟩ ∈ (run.state weight zone s (k + 1)).hostInfo.rows :=
  host.agrees_state zone apart agrees (k + 1) _ _
    (host.cached_state zone apart agrees member obtained)

variable (obtained : host.hostId weight s ≠ [])
include obtained

/-- **The host keeps its identifier.** -/
theorem hostId_turn (k : ℕ) : (host.turn weight zone s k).hostId = host.hostId weight s := by
  induction k with
  | zero => rw [turn, hostTurn_hostId, host.named, host.hostId_eq apart, Monitoring.state]
  | succ k ih =>
      have cached := host.cached_state zone apart agrees (host.turn_mem zone apart agrees k)
        (by rw [ih]; exact obtained)
      rw [ih, turn, hostTurn_info, host.named] at cached
      rw [turn, hostTurn_hostId, host.named, getOrCreateHostId_cached cached]

/-- The host is in the table of hosts after its turn. -/
theorem mem_hostInfo (k : ℕ) :
    ⟨host.hostId weight s, host.name⟩ ∈ (run.state weight zone s (k + 1)).hostInfo.rows := by
  have own := host.hostId_turn zone apart agrees obtained k
  have row := host.row_of_log zone apart agrees (host.turn_mem zone apart agrees k)
    (by rw [own]; exact obtained)
  rwa [own, turn, hostTurn_info, host.named] at row

/-- Identifiers of one weight are the same. -/
theorem hostId_of_weight {k : ℕ} {log : HostLog R}
    (member : log ∈ (run.stored weight zone s k).logs) (nonempty : log.hostId ≠ [])
    (same : weight log.hostId = weight (host.hostId weight s)) :
    log.hostId = host.hostId weight s := by
  have row := host.row_of_log zone apart agrees member nonempty
  have row' := host.mem_hostInfo zone apart agrees obtained k
  exact congrArg HostRow.hostId
    ((run.apart_state zone apart (k + 1)).eq_of_weight row row' same)

/-- No other turn of a round has the identifier. -/
theorem turn_unique {k : ℕ} {log : HostLog R}
    (member : log ∈ (run.stored weight zone s k).logs)
    (same : log.hostId = host.hostId weight s) : log = host.turn weight zone s k := by
  have row := host.row_of_log zone apart agrees member (by rw [same]; exact obtained)
  have row' := host.mem_hostInfo zone apart agrees obtained k
  have names : log.info.name = (host.info k).name :=
    (congrArg HostRow.hostName (HostInfo.eq_of_hostId row row' same)).trans (host.named k).symm
  rw [host.stored_eq zone apart] at member
  obtain ⟨i, info, found, rfl⟩ :=
    mem_logs_storeToDatabase (host.distinct k) (host.agrees_state zone apart agrees k) member
  rw [hostTurn_info] at names
  have positions : ((host.data k).map MonitorInfo.name)[i]? =
      ((host.data k).map MonitorInfo.name)[host.index k]? := by
    rw [List.getElem?_map, List.getElem?_map, found, host.found, Option.map_some, names,
      Option.map_some]
  have inside : i < ((host.data k).map MonitorInfo.name).length := by
    rw [List.length_map]
    exact (List.getElem?_eq_some_iff.mp found).1
  obtain rfl := (List.getElem?_inj inside (host.distinct k)).mp positions
  obtain rfl := Option.some.inj (found.symm.trans (host.found k))
  rfl

/-- **What is executed under the identifier** is executed in the host's own turn. -/
theorem executed_of_owner {k : ℕ} (served : host.Served k) {q : Statement R}
    (member : q ∈ (run.stored weight zone s k).executed) {id : Text}
    (owner : q.owner = some id) (equal : weight id = weight (host.hostId weight s)) :
    q ∈ host.rows weight zone s k ∨
      q ∈ summaryStatements zone (host.info k) (host.hostId weight s) (host.outcomes k) := by
  obtain ⟨log, inside, here⟩ := List.mem_flatMap.mp member
  have own := host.hostId_turn zone apart agrees obtained k
  have same : log.hostId = host.hostId weight s := by
    have turn := inside
    rw [host.stored_eq zone apart] at turn
    obtain ⟨i, info, _, rfl⟩ :=
      mem_logs_storeToDatabase (host.distinct k) (host.agrees_state zone apart agrees k) turn
    have stored : (hostTurn zone info ((run.round k).outcomes i)
        (run.state weight zone s k)).hostId = id :=
      Option.some.inj ((owner_hostTurn here).symm.trans owner)
    refine host.hostId_of_weight zone apart agrees obtained inside (fun missing => ?_)
      (by rw [stored, equal])
    rw [hostTurn_missing missing] at here
    cases here
  rw [host.turn_unique zone apart agrees obtained inside same, turn,
    executed_hostTurn (by rw [← turn, own]; exact obtained)
      (o := host.outcomes k) served.allOk, ← turn, own] at here
  exact List.mem_append.mp here

/-! ## Rows and buckets of the host -/

/-- **A row of the host** comes from one of its turns. -/
theorem row_origin {n : ℕ} (served : ∀ k < n, host.Served k)
    {row : Statement R} {id : Text} {time : ℤ}
    (member : row ∈ (run.tables weight zone s n).metrics) (stamp : row.stamp = some (id, time))
    (equal : weight id = weight (host.hostId weight s)) :
    ∃ k < n, row ∈ host.rows weight zone s k := by
  induction n with
  | zero => cases member
  | succ n ih =>
      rcases mem_metrics_executeAll.mp member with before | ⟨here, _⟩
      · obtain ⟨k, early, inside⟩ := ih (fun k early => served k (by omega)) before
        exact ⟨k, by omega, inside⟩
      · rcases host.executed_of_owner zone apart agrees obtained (served n n.lt_succ_self) here
          (owner_of_stamp stamp) equal with row | summary
        · exact ⟨n, by omega, row⟩
        · rw [summaryStatements] at summary
          split at summary
          · rw [List.mem_singleton.mp summary] at stamp
            cases stamp
          · cases summary

/-- A summary of the host comes from a turn on the hour. -/
theorem summary_origin {k : ℕ} (served : host.Served k)
    {id : Text} {time : ℤ} {score : Option R}
    (member : .insertSummary id time score ∈ (run.stored weight zone s k).executed)
    (equal : weight id = weight (host.hostId weight s)) :
    OnTheHour (host.check k) ∧ time = zone (host.outcomes k).summary.now := by
  rcases host.executed_of_owner zone apart agrees obtained served member rfl equal with
    row | summary
  · simp [rows, rowStatements, cpuStatements, softIrqStatements, memoryStatements,
      diskStatements, networkStatements] at row
  · rw [summaryStatements] at summary
    split at summary
    · next hour =>
        cases List.mem_singleton.mp summary
        exact ⟨hour, rfl⟩
    · cases summary

/-- **A bucket of the host** comes from one of its turns on the hour. -/
theorem bucket_origin {n : ℕ} {hour : ℤ} (served : ∀ k < n, host.Served k)
    {joined : List (Statement R)} (found : host.bucket weight zone s n hour = some joined) :
    ∃ k < n, OnTheHour (host.check k) ∧
      hourStart (zone (host.outcomes k).summary.now) = hour := by
  induction n generalizing joined with
  | zero => cases found
  | succ n ih =>
      rcases bucket_of_lookup found with
        ⟨joined', before⟩ | ⟨id, time, score, member, equal, same⟩
      · obtain ⟨k, early, onHour⟩ := ih (fun k early => served k (by omega)) before
        exact ⟨k, by omega, onHour⟩
      · obtain ⟨onHour, rfl⟩ :=
          host.summary_origin zone apart agrees obtained (served n n.lt_succ_self) member equal
        exact ⟨n, by omega, onHour, same⟩

/-- The statements of a round, with those of the host's turn in one piece. -/
theorem executed_split (k : ℕ) (served : host.Served k) :
    ∃ before after, (run.stored weight zone s k).executed =
      before ++ (host.rows weight zone s k ++ (summaryStatements zone (host.info k)
        (host.hostId weight s) (host.outcomes k) ++ after)) := by
  have own := host.hostId_turn zone apart agrees obtained k
  obtain ⟨pre, post, split⟩ := List.append_of_mem (host.turn_mem zone apart agrees k)
  have turn : (host.turn weight zone s k).executed = host.rows weight zone s k ++
      summaryStatements zone (host.info k) (host.hostId weight s) (host.outcomes k) := by
    rw [HostTurns.turn, executed_hostTurn (by rw [← HostTurns.turn, own]; exact obtained)
      (o := host.outcomes k) served.allOk, ← HostTurns.turn, own]
    rfl
  refine ⟨pre.flatMap HostLog.executed, post.flatMap HostLog.executed, ?_⟩
  rw [Stored.executed, split, List.flatMap_append, List.flatMap_cons, turn, List.append_assoc]

theorem rows_executed {k : ℕ} (served : host.Served k)
    {row : Statement R} (member : row ∈ host.rows weight zone s k) :
    row ∈ (run.stored weight zone s k).executed := by
  obtain ⟨before, after, split⟩ := host.executed_split zone apart agrees obtained k served
  rw [split]
  exact List.mem_append_right _ (List.mem_append_left _ member)

/-- On the hour the summary follows the rows. -/
theorem executed_hour {k : ℕ} (served : host.Served k)
    (onHour : OnTheHour (host.check k)) : ∃ before after, (run.stored weight zone s k).executed =
      (before ++ host.rows weight zone s k) ++ host.summary weight zone s k :: after := by
  obtain ⟨before, after, split⟩ := host.executed_split zone apart agrees obtained k served
  have statement : summaryStatements zone (host.info k) (host.hostId weight s) (host.outcomes k) =
      [host.summary weight zone s k] := if_pos onHour
  refine ⟨before, after, ?_⟩
  rw [split, statement, List.append_assoc, List.singleton_append]

theorem summary_executed {k : ℕ} (served : host.Served k)
    (onHour : OnTheHour (host.check k)) :
    host.summary weight zone s k ∈ (run.stored weight zone s k).executed := by
  obtain ⟨before, after, split⟩ := host.executed_hour zone apart agrees obtained served onHour
  rw [split]
  exact List.mem_append_right _ List.mem_cons_self

/-- The rows of the rounds up to one on the hour are there when its summary is executed, and
what the summary writes is kept. -/
theorem tables_hour {m n : ℕ} (served : ∀ k < n, host.Served k)
    (earlier : m < n) (onHour : OnTheHour (host.check m)) : ∃ t : Tables κ R,
      (∀ k ≤ m, ∀ row ∈ host.rows weight zone s k, row.stamp.isSome → row ∈ t.metrics) ∧
      Grows (t.execute weight (host.summary weight zone s m)) (run.tables weight zone s n) := by
  obtain ⟨before, after, split⟩ :=
    host.executed_hour zone apart agrees obtained (served m earlier) onHour
  refine ⟨(run.tables weight zone s m).executeAll weight
    (before ++ host.rows weight zone s m), ?_, ?_⟩
  · intro k early row member stamped
    apply mem_metrics_executeAll.mpr
    rcases early.lt_or_eq with past | rfl
    · refine Or.inl ((run.grows_tables weight zone s past).metrics row ?_)
      exact mem_metrics_executeAll.mpr (Or.inr
        ⟨host.rows_executed zone apart agrees obtained (served k (by omega)) member, stamped⟩)
    · exact Or.inr ⟨List.mem_append_right _ member, stamped⟩
  · have next : run.tables weight zone s (m + 1) =
        (((run.tables weight zone s m).executeAll weight
          (before ++ host.rows weight zone s m)).execute weight
            (host.summary weight zone s m)).executeAll weight after := by
      rw [Monitoring.tables, split, Tables.executeAll_append]
      rfl
    have later := Grows.executeAll
      (((run.sound_tables weight zone s m).executeAll
        (before ++ host.rows weight zone s m)).execute (host.summary weight zone s m)) after
    rw [← next] at later
    exact later.trans (run.grows_tables weight zone s earlier)

/-- **What a summary holds.**  The bucket of a summary in round `m` has every row of the
rounds up to `m` that lies in its window, provided a row of `cpu_metrics` of these rounds
lies there. -/
theorem bucket_holds {m n : ℕ} (served : ∀ k < n, host.Served k)
    (earlier : m < n) (onHour : OnTheHour (host.check m)) {hour : ℤ}
    (hourly : hourStart (zone (host.outcomes m).summary.now) = hour) {j : ℕ} (cpuRound : j ≤ m)
    (cpuWindow : hour - 3600 ≤ zone (host.outcomes j).own.cpu.now ∧
      zone (host.outcomes j).own.cpu.now ≤ hour) :
    ∃ joined, host.bucket weight zone s n hour = some joined ∧
      ∀ k ≤ m, ∀ row ∈ host.rows weight zone s k,
        InWindow weight (host.hostId weight s) hour row → row ∈ joined := by
  obtain ⟨t, stored, later⟩ := host.tables_hour zone apart agrees obtained served earlier onHour
  obtain ⟨cpu, member, isCpu, stamp⟩ :=
    exists_cpuStatement zone (host.hostId weight s) (host.outcomes j).own
      (served j (by omega)).cpus
  subst hourly
  have cpuStored := stored j cpuRound cpu member (by rw [stamp]; rfl)
  have window : InWindow weight (host.hostId weight s)
      (hourStart (zone (host.outcomes m).summary.now)) cpu := ⟨_, _, stamp, rfl, cpuWindow⟩
  have written := lookup_execute_summary (some (calculateOverallPerformanceScore (host.info m)))
    cpuStored isCpu window
  obtain ⟨joined, found, kept⟩ := later.summaries _ _ written
  refine ⟨joined, found, ?_⟩
  rintro k early row inside ⟨id, time, stamp, bounds⟩
  exact kept row (Tables.mem_joined.mpr
    ⟨stored k early row inside (by rw [stamp]; rfl), id, time, stamp, bounds⟩)

end Known

end HostTurns

end Rounds

end LinuxMonitor.PerformanceServer
