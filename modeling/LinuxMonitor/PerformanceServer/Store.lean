import Mathlib.Logic.Relation
import LinuxMonitor.PerformanceServer.HostId
import LinuxMonitor.PerformanceServer.Metrics

/-!
# Storing the reports

`storeToDatabase` goes through the fetched reports.  For each host it looks the
identifier up, runs the five insert functions, each of which stops at its first failing
query, and in the first minute of an hour the summary, which looks other hosts up again
to find the report of its identifier.  Every query may fail.

* `newHostId_name`: identifiers generated for different names differ.
* `Untouched.of_calls`: lookups of other names change nothing for a name.
* `logs_storeToDatabase`: **storing is one turn for each host, each in the initial state.**
* `storeToDatabase_attributed`: rows and scores come from the report of the identifier's
  host, and the result tells whether everything was inserted.
-/

set_option autoImplicit false

namespace LinuxMonitor.PerformanceServer

open Library Proto

/-! ## Outcomes -/

/-- What one insert function meets: the clock, in seconds, and the success of its
queries. -/
structure InsertOutcomes where
  now : ℤ
  ok : ℕ → Bool

/-- What the host's own queries meet: its lookup and its five insert functions. -/
structure OwnOutcomes where
  lookup : Outcomes
  cpu : InsertOutcomes
  softIrq : InsertOutcomes
  memory : InsertOutcomes
  disk : InsertOutcomes
  network : InsertOutcomes

/-- What the summary meets: the clock, the lookups of the hosts, and the success of the
INSERT. -/
structure SummaryOutcomes where
  now : ℤ
  lookup : ℕ → Outcomes
  ok : Bool

/-- What is met in the turn of one host.  The clock `now` is read for the hourly check. -/
structure HostOutcomes where
  own : OwnOutcomes
  now : ℤ
  summary : SummaryOutcomes

/-! ## The inserts -/

/-- A query that was sent, and whether it succeeded. -/
structure Attempt (R : Type) where
  query : Statement R
  ok : Bool

/-- `executeQuery` one after the other, up to the first failure. -/
def executeQueries {R : Type} (ok : ℕ → Bool) : List (Statement R) → List (Attempt R) × Bool
  | [] => ([], true)
  | query :: queries =>
      if ok 0 then
        let (attempts, success) := executeQueries (fun i => ok (i + 1)) queries
        (⟨query, true⟩ :: attempts, success)
      else ([⟨query, false⟩], false)

section Inserts

variable {R : Type} [Zero R] (zone : ℤ → ℤ) (info : MonitorInfo R) (hostId : Text)

def insertCPUMetrics (o : InsertOutcomes) : List (Attempt R) × Bool :=
  executeQueries o.ok (cpuStatements info hostId (zone o.now))

def insertSoftIrqMetrics (o : InsertOutcomes) : List (Attempt R) × Bool :=
  executeQueries o.ok (softIrqStatements info hostId (zone o.now))

def insertMemoryMetrics (o : InsertOutcomes) : List (Attempt R) × Bool :=
  executeQueries o.ok (memoryStatements info hostId (zone o.now))

def insertDiskMetrics (o : InsertOutcomes) : List (Attempt R) × Bool :=
  executeQueries o.ok (diskStatements info hostId (zone o.now))

def insertNetworkMetrics (o : InsertOutcomes) : List (Attempt R) × Bool :=
  executeQueries o.ok (networkStatements info hostId (zone o.now))

/-- The five insert functions.  Each runs whether or not the ones before it succeeded. -/
def insertMetrics (o : OwnOutcomes) : List (Attempt R) × Bool :=
  let cpu := insertCPUMetrics zone info hostId o.cpu
  let softIrq := insertSoftIrqMetrics zone info hostId o.softIrq
  let memory := insertMemoryMetrics zone info hostId o.memory
  let disk := insertDiskMetrics zone info hostId o.disk
  let network := insertNetworkMetrics zone info hostId o.network
  (cpu.1 ++ (softIrq.1 ++ (memory.1 ++ (disk.1 ++ network.1))),
    cpu.2 && (softIrq.2 && (memory.2 && (disk.2 && network.2))))

/-- The number of metric rows of a report. -/
def metricCount (info : MonitorInfo R) : ℕ :=
  info.cpuStat.length + info.softIrq.length + 1 + info.diskInfo.length + info.netInfo.length

end Inserts

/-! ## The summary and the loop over the hosts -/

section Store

variable {R : Type} [Field R] [LinearOrder R]

/-- The loop of `updatePerformanceSummary` that looks for the report of an identifier. -/
def findScore (db : Database) (hostId : Text) :
    (ℕ → Outcomes) → List (MonitorInfo R) → HostState → Option R × HostState
  | _, [], s => (none, s)
  | lookup, info :: infos, s =>
      let (currentHostId, s) := getOrCreateHostId db info.name (lookup 0) s
      if currentHostId = hostId then (some (calculateOverallPerformanceScore info), s)
      else findScore db hostId (fun i => lookup (i + 1)) infos s

/-- `PerformanceMonitorClient::updatePerformanceSummary` -/
def updatePerformanceSummary (db : Database) (zone : ℤ → ℤ) (currentData : List (MonitorInfo R))
    (hostId : Text) (o : SummaryOutcomes) (s : HostState) : Attempt R × HostState :=
  let (performanceScore, s) := findScore db hostId o.lookup currentData s
  (⟨.insertSummary hostId (zone o.now) performanceScore, o.ok⟩, s)

/-- `minutes % 60 == 0`, with the minutes since the epoch. -/
def OnTheHour (now : ℤ) : Prop := (now.tdiv 60).tmod 60 = 0

instance : DecidablePred OnTheHour :=
  fun now => inferInstanceAs (Decidable ((now.tdiv 60).tmod 60 = 0))

/-- What happens in the turn of one host: the identifier obtained, empty for none, the
metric rows and the summary that were attempted, and whether the turn counts as a
success. -/
structure HostLog (R : Type) where
  info : MonitorInfo R
  hostId : Text
  rows : List (Attempt R)
  summary : Option (Attempt R)
  success : Bool

/-- The turn of one host in `storeToDatabase`.  A failing summary is only reported. -/
def storeHost (db : Database) (zone : ℤ → ℤ) (currentData : List (MonitorInfo R))
    (info : MonitorInfo R) (o : HostOutcomes) (s : HostState) : HostLog R × HostState :=
  let (hostId, s) := getOrCreateHostId db info.name o.own.lookup s
  if hostId = [] then (⟨info, hostId, [], none, false⟩, s)
  else
    let (rows, success) := insertMetrics zone info hostId o.own
    if OnTheHour o.now then
      let (attempt, s) := updatePerformanceSummary db zone currentData hostId o.summary s
      (⟨info, hostId, rows, some attempt, success⟩, s)
    else (⟨info, hostId, rows, none, success⟩, s)

def storeHosts (db : Database) (zone : ℤ → ℤ) (currentData : List (MonitorInfo R)) :
    (ℕ → HostOutcomes) → List (MonitorInfo R) → HostState → List (HostLog R) × HostState
  | _, [], s => ([], s)
  | outcomes, info :: infos, s =>
      let (log, s) := storeHost db zone currentData info (outcomes 0) s
      let (logs, s) := storeHosts db zone currentData (fun i => outcomes (i + 1)) infos s
      (log :: logs, s)

/-- The logs of the hosts in their order, the state afterwards, and the value returned. -/
structure Stored (R : Type) where
  logs : List (HostLog R)
  state : HostState
  allSuccess : Bool

/-- `PerformanceMonitorClient::storeToDatabase` -/
def storeToDatabase (db : Database) (zone : ℤ → ℤ) (connected : Bool)
    (currentData : List (MonitorInfo R)) (outcomes : ℕ → HostOutcomes) (s : HostState) :
    Stored R :=
  if connected then
    let (logs, s) := storeHosts db zone currentData outcomes currentData s
    ⟨logs, s, logs.all HostLog.success⟩
  else ⟨[], s, false⟩

end Store

/-! ## Generated identifiers -/

theorem underscore_not_mem_signedDecimal (time : ℤ) : '_' ∉ signedDecimal time := by
  intro member
  rcases mem_signedDecimal member with sign | digit
  · exact absurd sign (by decide)
  · exact absurd digit (by decide)

/-- **Identifiers generated for different names differ**, whatever the times are. -/
theorem newHostId_name {hostName hostName' : Text} {time time' : ℤ}
    (same : newHostId hostName time = newHostId hostName' time') : hostName = hostName' := by
  have name_back : ∀ (name : Text) (t : ℤ),
      ((name ++ '_' :: signedDecimal t).reverse.dropWhile fun c => decide (c ≠ '_')) =
        '_' :: name.reverse := by
    intro name t
    rw [List.reverse_append, List.reverse_cons, List.append_assoc]
    refine dropWhile_append_stop _ (fun c member => ?_) (by simp)
    have digit : c ≠ '_' := by
      rintro rfl
      exact underscore_not_mem_signedDecimal t (List.mem_reverse.mp member)
    exact decide_eq_true digit
  have tails := List.append_cancel_left same
  have back := name_back hostName time
  rw [tails, name_back hostName' time'] at back
  exact (List.reverse_injective (List.cons.inj back).2).symm

/-! ## Lookups -/

/-- One lookup of a name in the list, on a server that takes names literally. -/
def Looks (names : List Text) (s s' : HostState) : Prop :=
  ∃ hostName ∈ names, ∃ o, s' = (getOrCreateHostId .literal hostName o s).2

/-- Lookups of names in the list. -/
def Calls (names : List Text) : HostState → HostState → Prop :=
  Relation.ReflTransGen (Looks names)

theorem calls_single {names : List Text} {hostName : Text} (member : hostName ∈ names)
    (o : Outcomes) (s : HostState) :
    Calls names s (getOrCreateHostId .literal hostName o s).2 :=
  .single ⟨hostName, member, o, rfl⟩

theorem Calls.mono {names others : List Text} (sub : names ⊆ others) {s s' : HostState}
    (calls : Calls names s s') : Calls others s s' := by
  have looks : Looks names ≤ Looks others := by
    rintro _ _ ⟨hostName, member, look⟩
    exact ⟨hostName, sub member, look⟩
  exact Relation.ReflTransGen.mono looks s s' calls

/-- Lookups keep the cache to the table and lose no row. -/
theorem CacheAgrees.of_calls {names : List Text} {s s' : HostState} (agrees : CacheAgrees s)
    (calls : Calls names s s') :
    CacheAgrees s' ∧ ∀ row ∈ s.hostInfo.rows, row ∈ s'.hostInfo.rows := by
  induction calls with
  | refl => exact ⟨agrees, fun _ => id⟩
  | tail _ look ih =>
      obtain ⟨hostName, _, o, rfl⟩ := look
      obtain ⟨agrees', grows⟩ := ih
      obtain ⟨after, more, _⟩ := agrees'.of_call hostName o
      exact ⟨after, fun row member => more row (grows row member)⟩

/-! ## What lookups of other names leave alone -/

/-- Nothing that a lookup of the name depends on differs between the two states. -/
structure Untouched (hostName : Text) (s s' : HostState) : Prop where
  cached : s'.hostIdCache.lookup hostName = s.hostIdCache.lookup hostName
  selected : s'.hostInfo.selectHostId id hostName = s.hostInfo.selectHostId id hostName
  taken : ∀ time, newHostId hostName time ∈ s'.hostInfo.hostIds ↔
    newHostId hostName time ∈ s.hostInfo.hostIds

theorem Untouched.refl (hostName : Text) (s : HostState) : Untouched hostName s s :=
  ⟨rfl, rfl, fun _ => Iff.rfl⟩

theorem Untouched.trans {hostName : Text} {s s' s'' : HostState}
    (first : Untouched hostName s s') (second : Untouched hostName s' s'') :
    Untouched hostName s s'' :=
  ⟨second.cached.trans first.cached, second.selected.trans first.selected,
    fun time => (second.taken time).trans (first.taken time)⟩

/-- A row for another name does not change what the SELECT finds. -/
theorem selectHostId_insert_ne {t t' : HostInfo} {hostId other hostName : Text}
    (differs : hostName ≠ other) (inserted : t.insert id hostId other = some t') :
    t'.selectHostId id hostName = t.selectHostId id hostName := by
  have rows := (HostInfo.rows_insert inserted).2
  rw [HostInfo.selectHostId, rows, List.find?_append, List.find?_singleton,
    if_neg (by simpa using differs.symm), Option.or_none, HostInfo.selectHostId]

theorem Untouched.of_call {hostName other : Text} (differs : hostName ≠ other) (o : Outcomes)
    (s : HostState) : Untouched hostName s (getOrCreateHostId .literal other o s).2 := by
  rcases getOrCreateHostId_cases id other o s with
    ⟨_, _, result⟩ | ⟨_, _, _, result⟩ | ⟨t, _, _, _, inserted, result⟩ | ⟨_, _, _, result⟩ <;>
    rw [result]
  · exact .refl hostName s
  · exact ⟨AList.lookup_insert_ne differs, rfl, fun _ => Iff.rfl⟩
  · refine ⟨AList.lookup_insert_ne differs, selectHostId_insert_ne differs inserted, ?_⟩
    intro time
    have rows := (HostInfo.rows_insert inserted).2
    have new : newHostId hostName time ≠ newHostId other o.time :=
      fun same => differs (newHostId_name same)
    simp [HostInfo.hostIds, rows, new]
  · exact .refl hostName s

/-- **Lookups of other names** change nothing that a lookup of the name depends on. -/
theorem Untouched.of_calls {names : List Text} {hostName : Text} (outside : hostName ∉ names)
    {s s' : HostState} (calls : Calls names s s') : Untouched hostName s s' := by
  induction calls with
  | refl => exact .refl hostName s
  | tail _ look ih =>
      obtain ⟨other, member, o, rfl⟩ := look
      have differs : hostName ≠ other := by
        rintro rfl
        exact outside member
      exact ih.trans (.of_call differs o _)

/-- The identifier that a lookup returns. -/
theorem fst_getOrCreateHostId (hostName : Text) (o : Outcomes) (s : HostState) :
    (getOrCreateHostId .literal hostName o s).1 =
      ((s.hostIdCache.lookup hostName).or (foundId id hostName o s.hostInfo)).getD
        (if o.insertOk = true ∧ newHostId hostName o.time ∉ s.hostInfo.hostIds then
          newHostId hostName o.time else []) := by
  rcases getOrCreateHostId_cases id hostName o s with
    ⟨_, cached, result⟩ | ⟨_, cached, found, result⟩ |
    ⟨t, cached, found, insertOk, inserted, result⟩ | ⟨cached, found, refused, result⟩
  · rw [result, cached]
    rfl
  · rw [result, cached, found]
    rfl
  · have fresh : newHostId hostName o.time ∉ s.hostInfo.hostIds :=
      HostInfo.taken_id.not.mp (HostInfo.rows_insert inserted).1
    rw [result, cached, found, if_pos ⟨insertOk, fresh⟩]
    rfl
  · have kept : ¬ (o.insertOk = true ∧ newHostId hostName o.time ∉ s.hostInfo.hostIds) := by
      rintro ⟨insertOk, fresh⟩
      exact fresh (HostInfo.taken_id.mp (HostInfo.taken_of_insert (refused insertOk)))
    rw [result, cached, found, if_neg kept]
    rfl

/-- An untouched name gets the same identifier. -/
theorem Untouched.same_id {hostName : Text} {s s' : HostState}
    (untouched : Untouched hostName s s') (o : Outcomes) :
    (getOrCreateHostId .literal hostName o s').1 =
      (getOrCreateHostId .literal hostName o s).1 := by
  simp only [fst_getOrCreateHostId, foundId, untouched.cached, untouched.selected,
    untouched.taken]

/-- A cached name is answered from the cache. -/
theorem getOrCreateHostId_cached {db : Database} {hostName hostId : Text} {s : HostState}
    (cached : s.hostIdCache.lookup hostName = some hostId) (o : Outcomes) :
    getOrCreateHostId db hostName o s = (hostId, s) := by
  rw [getOrCreateHostId, cached]

/-- A cached name stays cached. -/
theorem Calls.keeps_cached {names : List Text} {hostName hostId : Text} {s s' : HostState}
    (calls : Calls names s s') (cached : s.hostIdCache.lookup hostName = some hostId) :
    s'.hostIdCache.lookup hostName = some hostId := by
  induction calls with
  | refl => exact cached
  | tail _ look ih =>
      obtain ⟨other, _, o, rfl⟩ := look
      by_cases same : hostName = other
      · rw [← same, getOrCreateHostId_cached ih]
        exact ih
      · exact (Untouched.of_call same o _).cached.trans ih

/-- An identifier that is returned is cached. -/
theorem cached_of_call {hostName : Text} {o : Outcomes} {s : HostState}
    (obtained : (getOrCreateHostId .literal hostName o s).1 ≠ []) :
    (getOrCreateHostId .literal hostName o s).2.hostIdCache.lookup hostName =
      some (getOrCreateHostId .literal hostName o s).1 := by
  rcases getOrCreateHostId_cases id hostName o s with
    ⟨hostId, cached, result⟩ | ⟨hostId, _, _, result⟩ | ⟨t, _, _, _, _, result⟩ |
    ⟨_, _, _, result⟩ <;> rw [result] at obtained ⊢
  · exact cached
  · exact AList.lookup_insert s.hostIdCache
  · exact AList.lookup_insert s.hostIdCache
  · exact absurd rfl obtained

/-! ## What is inserted -/

section Inserts

variable {R : Type}

theorem query_of_mem_executeQueries {ok : ℕ → Bool} {queries : List (Statement R)}
    {attempt : Attempt R} (member : attempt ∈ (executeQueries ok queries).1) :
    attempt.query ∈ queries := by
  induction queries generalizing ok with
  | nil => cases member
  | cons query queries ih =>
      cases first : ok 0 with
      | true =>
          simp only [executeQueries, first, if_true] at member
          rcases List.mem_cons.mp member with rfl | later
          · exact List.mem_cons_self
          · exact List.mem_cons_of_mem _ (ih later)
      | false =>
          simp only [executeQueries, first, Bool.false_eq_true, if_false] at member
          rw [List.mem_singleton.mp member]
          exact List.mem_cons_self

/-- The number of successful attempts. -/
def inserted (attempts : List (Attempt R)) : ℕ := attempts.countP Attempt.ok

theorem inserted_append (attempts others : List (Attempt R)) :
    inserted (attempts ++ others) = inserted attempts + inserted others :=
  List.countP_append

theorem inserted_executeQueries (ok : ℕ → Bool) (queries : List (Statement R)) :
    inserted (executeQueries ok queries).1 ≤ queries.length ∧
      ((executeQueries ok queries).2 = true ↔
        inserted (executeQueries ok queries).1 = queries.length) := by
  induction queries generalizing ok with
  | nil => exact ⟨le_refl 0, by simp [executeQueries, inserted]⟩
  | cons query queries ih =>
      obtain ⟨bound, complete⟩ := ih fun i => ok (i + 1)
      cases first : ok 0 with
      | true =>
          have count : inserted (executeQueries ok (query :: queries)).1 =
              inserted (executeQueries (fun i => ok (i + 1)) queries).1 + 1 := by
            simp [executeQueries, first, inserted]
          have same : (executeQueries ok (query :: queries)).2 =
              (executeQueries (fun i => ok (i + 1)) queries).2 := by
            simp [executeQueries, first]
          rw [count, same, complete, List.length_cons]
          omega
      | false => simp [executeQueries, first, inserted]

/-- The statements of the metric rows of a report. -/
def metricStatements [Zero R] (info : MonitorInfo R) (hostId : Text) (time : ℤ) :
    List (Statement R) :=
  cpuStatements info hostId time ++ (softIrqStatements info hostId time ++
    (memoryStatements info hostId time ++ (diskStatements info hostId time ++
      networkStatements info hostId time)))

theorem query_of_mem_insertMetrics [Zero R] {zone : ℤ → ℤ} {info : MonitorInfo R} {hostId : Text}
    {o : OwnOutcomes} {attempt : Attempt R}
    (member : attempt ∈ (insertMetrics zone info hostId o).1) :
    ∃ time, attempt.query ∈ metricStatements info hostId time := by
  simp only [insertMetrics, List.mem_append] at member
  simp only [metricStatements, List.mem_append]
  rcases member with cpu | softIrq | memory | disk | network
  · exact ⟨_, Or.inl (query_of_mem_executeQueries cpu)⟩
  · exact ⟨_, Or.inr (Or.inl (query_of_mem_executeQueries softIrq))⟩
  · exact ⟨_, Or.inr (Or.inr (Or.inl (query_of_mem_executeQueries memory)))⟩
  · exact ⟨_, Or.inr (Or.inr (Or.inr (Or.inl (query_of_mem_executeQueries disk))))⟩
  · exact ⟨_, Or.inr (Or.inr (Or.inr (Or.inr (query_of_mem_executeQueries network))))⟩

/-- **The insert functions succeed exactly when every row of the report is inserted.** -/
theorem insertMetrics_success_iff [Zero R] (zone : ℤ → ℤ) (info : MonitorInfo R) (hostId : Text)
    (o : OwnOutcomes) :
    (insertMetrics zone info hostId o).2 = true ↔
      inserted (insertMetrics zone info hostId o).1 = metricCount info := by
  obtain ⟨cpuBound, cpu⟩ :=
    inserted_executeQueries o.cpu.ok (cpuStatements info hostId (zone o.cpu.now))
  obtain ⟨softIrqBound, softIrq⟩ :=
    inserted_executeQueries o.softIrq.ok (softIrqStatements info hostId (zone o.softIrq.now))
  obtain ⟨memoryBound, memory⟩ :=
    inserted_executeQueries o.memory.ok (memoryStatements info hostId (zone o.memory.now))
  obtain ⟨diskBound, disk⟩ :=
    inserted_executeQueries o.disk.ok (diskStatements info hostId (zone o.disk.now))
  obtain ⟨networkBound, network⟩ :=
    inserted_executeQueries o.network.ok (networkStatements info hostId (zone o.network.now))
  simp only [insertMetrics, insertCPUMetrics, insertSoftIrqMetrics, insertMemoryMetrics,
    insertDiskMetrics, insertNetworkMetrics, Bool.and_eq_true, inserted_append, cpu, softIrq,
    memory, disk, network]
  have cpus : (cpuStatements info hostId (zone o.cpu.now)).length = info.cpuStat.length :=
    List.length_map _
  have softIrqs : (softIrqStatements info hostId (zone o.softIrq.now)).length =
      info.softIrq.length := List.length_map _
  have memories : (memoryStatements info hostId (zone o.memory.now)).length = 1 := rfl
  have disks : (diskStatements info hostId (zone o.disk.now)).length = info.diskInfo.length :=
    List.length_map _
  have networks : (networkStatements info hostId (zone o.network.now)).length =
      info.netInfo.length := List.length_map _
  rw [metricCount]
  omega

end Inserts

/-! ## The summary -/

section Summary

variable {R : Type} [Field R] [LinearOrder R]

/-- The search for a cached host looks up hosts up to this one. -/
theorem findScore_calls {hostId : Text} (lookup : ℕ → Outcomes) {pre : List (MonitorInfo R)}
    {info : MonitorInfo R} (post : List (MonitorInfo R)) {s : HostState}
    (before : info.name ∉ pre.map MonitorInfo.name)
    (cached : s.hostIdCache.lookup info.name = some hostId) :
    Calls ((pre ++ [info]).map MonitorInfo.name) s
      (findScore .literal hostId lookup (pre ++ info :: post) s).2 := by
  induction pre generalizing lookup s with
  | nil =>
      simp only [List.nil_append, findScore, getOrCreateHostId_cached cached, if_true]
      exact .refl
  | cons first pre ih =>
      obtain ⟨differs, later⟩ := List.ne_and_not_mem_of_not_mem_cons before
      have untouched : Untouched info.name s _ := .of_call differs (lookup 0) s
      have look : Calls (((first :: pre) ++ [info]).map MonitorInfo.name) s _ :=
        calls_single List.mem_cons_self (lookup 0) s
      simp only [List.cons_append, findScore]
      split
      · exact look
      · have rest := ih (fun i => lookup (i + 1)) later (untouched.cached.trans cached)
        exact look.trans (rest.mono (List.subset_cons_self _ _))

/-- **The search finds the report of the host**, since no other host has its identifier. -/
theorem findScore_score {hostId : Text} (obtained : hostId ≠ []) (lookup : ℕ → Outcomes)
    {pre : List (MonitorInfo R)} {info : MonitorInfo R} (post : List (MonitorInfo R))
    {s : HostState} (before : info.name ∉ pre.map MonitorInfo.name)
    (cached : s.hostIdCache.lookup info.name = some hostId) (agrees : CacheAgrees s) :
    (findScore .literal hostId lookup (pre ++ info :: post) s).1 =
      some (calculateOverallPerformanceScore info) := by
  induction pre generalizing lookup s with
  | nil => simp only [List.nil_append, findScore, getOrCreateHostId_cached cached, if_true]
  | cons first pre ih =>
      obtain ⟨differs, later⟩ := List.ne_and_not_mem_of_not_mem_cons before
      have untouched : Untouched info.name s _ := .of_call differs (lookup 0) s
      obtain ⟨agrees', grows, returned⟩ := agrees.of_call first.name (lookup 0)
      simp only [List.cons_append, findScore]
      split
      · next same =>
          have row := grows _ (agrees info.name hostId cached)
          rw [same] at returned
          have rows := HostInfo.eq_of_hostId row (returned obtained) rfl
          exact absurd (congrArg HostRow.hostName rows) differs
      · exact ih _ later (untouched.cached.trans cached) agrees'

end Summary

/-! ## One host -/

/-- The identifier belongs to the host of the name, and to no other. -/
def Owns (t : HostInfo) (hostName hostId : Text) : Prop :=
  ∀ other, ⟨hostId, other⟩ ∈ t.rows ↔ other = hostName

theorem owns_of_mem {t : HostInfo} {hostName hostId : Text}
    (row : ⟨hostId, hostName⟩ ∈ t.rows) : Owns t hostName hostId := by
  intro other
  constructor
  · intro member
    exact congrArg HostRow.hostName (HostInfo.eq_of_hostId member row rfl)
  · rintro rfl
    exact row

section Host

variable {R : Type} [Field R] [LinearOrder R]

/-- The turn of a host alone: what its own queries give in a state, and a summary with the
score of its own report. -/
def hostTurn (zone : ℤ → ℤ) (info : MonitorInfo R) (o : HostOutcomes) (s : HostState) :
    HostLog R :=
  let hostId := (getOrCreateHostId .literal info.name o.own.lookup s).1
  if hostId = [] then ⟨info, hostId, [], none, false⟩
  else
    let (rows, success) := insertMetrics zone info hostId o.own
    let score := calculateOverallPerformanceScore info
    let summary := ⟨.insertSummary hostId (zone o.summary.now) (some score), o.summary.ok⟩
    ⟨info, hostId, rows, if OnTheHour o.now then some summary else none, success⟩

/-- What was attempted under the identifier is built from the report of its host: the
metric rows from its entries, the score from the whole report. -/
def Attributed (t : HostInfo) (log : HostLog R) : Prop :=
  (∀ attempt ∈ log.rows, Owns t log.info.name log.hostId ∧
    ∃ time, attempt.query ∈ metricStatements log.info log.hostId time) ∧
  ∀ attempt ∈ log.summary, Owns t log.info.name log.hostId ∧
    ∃ time, attempt.query =
      .insertSummary log.hostId time (some (calculateOverallPerformanceScore log.info))

/-- The outcome of a turn but for the summary. -/
def HostLog.own (log : HostLog R) : Text × List (Attempt R) × Bool :=
  (log.hostId, log.rows, log.success)

section Turn

variable (zone : ℤ → ℤ) (info : MonitorInfo R) (o : HostOutcomes) (s : HostState)

theorem hostTurn_info : (hostTurn zone info o s).info = info := by
  rw [hostTurn]
  dsimp only
  split <;> rfl

theorem hostTurn_hostId : (hostTurn zone info o s).hostId =
    (getOrCreateHostId .literal info.name o.own.lookup s).1 := by
  rw [hostTurn]
  dsimp only
  split <;> rfl

variable {zone info o s}

/-- With an identifier the insert functions are run. -/
theorem hostTurn_rows (obtained : (hostTurn zone info o s).hostId ≠ []) :
    (hostTurn zone info o s).rows =
      (insertMetrics zone info (hostTurn zone info o s).hostId o.own).1 := by
  rw [hostTurn_hostId] at obtained ⊢
  rw [hostTurn, if_neg obtained]

/-- With an identifier and on the hour the summary is computed. -/
theorem hostTurn_summary (obtained : (hostTurn zone info o s).hostId ≠ []) :
    (hostTurn zone info o s).summary = if OnTheHour o.now then
      some ⟨.insertSummary (hostTurn zone info o s).hostId (zone o.summary.now)
        (some (calculateOverallPerformanceScore info)), o.summary.ok⟩ else none := by
  rw [hostTurn_hostId] at obtained ⊢
  rw [hostTurn, if_neg obtained]

/-- Without an identifier nothing is attempted. -/
theorem hostTurn_missing (missing : (hostTurn zone info o s).hostId = []) :
    hostTurn zone info o s = ⟨info, [], [], none, false⟩ := by
  rw [hostTurn_hostId] at missing
  rw [hostTurn, if_pos missing, missing]

/-- Everything but the summary is decided by the outcomes of the host's own queries. -/
theorem hostTurn_own {o' : HostOutcomes} (same : o.own = o'.own) :
    (hostTurn zone info o s).own = (hostTurn zone info o' s).own := by
  simp only [hostTurn, same]
  split <;> rfl

/-- **A turn succeeds exactly when the host got an identifier and all its rows were
inserted.** -/
theorem hostTurn_success_iff : (hostTurn zone info o s).success = true ↔
    (hostTurn zone info o s).hostId ≠ [] ∧
      inserted (hostTurn zone info o s).rows = metricCount info := by
  by_cases missing : (hostTurn zone info o s).hostId = []
  · rw [hostTurn_missing missing]
    simp
  · have success : (hostTurn zone info o s).success =
        (insertMetrics zone info (hostTurn zone info o s).hostId o.own).2 := by
      rw [hostTurn_hostId] at missing ⊢
      rw [hostTurn, if_neg missing]
    rw [success, insertMetrics_success_iff, hostTurn_rows missing]
    exact (and_iff_right missing).symm

/-- A turn is attributed to its host as soon as the identifier is in the host's row. -/
theorem hostTurn_attributed {t : HostInfo}
    (row : (hostTurn zone info o s).hostId ≠ [] →
      ⟨(hostTurn zone info o s).hostId, info.name⟩ ∈ t.rows) :
    Attributed t (hostTurn zone info o s) := by
  by_cases missing : (hostTurn zone info o s).hostId = []
  · rw [hostTurn_missing missing]
    constructor
    · intro attempt member
      cases member
    · intro attempt member
      cases member
  · have owns : Owns t (hostTurn zone info o s).info.name (hostTurn zone info o s).hostId := by
      rw [hostTurn_info]
      exact owns_of_mem (row missing)
    constructor
    · intro attempt member
      rw [hostTurn_rows missing] at member
      refine ⟨owns, ?_⟩
      rw [hostTurn_info]
      exact query_of_mem_insertMetrics member
    · intro attempt member
      rw [hostTurn_summary missing] at member
      split at member
      · cases member
        refine ⟨owns, zone o.summary.now, ?_⟩
        rw [hostTurn_info]
      · cases member

/-- A name that nothing was done to has the same turn. -/
theorem Untouched.same_turn {s' : HostState} (untouched : Untouched info.name s s')
    (o : HostOutcomes) : hostTurn zone info o s' = hostTurn zone info o s := by
  simp only [hostTurn, untouched.same_id]

end Turn

variable (zone : ℤ → ℤ) {pre : List (MonitorInfo R)} {info : MonitorInfo R}
  (post : List (MonitorInfo R)) (o : HostOutcomes) {s : HostState}

/-- **Among the other hosts a host has the turn it has alone.** -/
theorem storeHost_eq (before : info.name ∉ pre.map MonitorInfo.name) (agrees : CacheAgrees s) :
    (storeHost .literal zone (pre ++ info :: post) info o s).1 = hostTurn zone info o s := by
  have agrees' := (agrees.of_call info.name o.own.lookup).1
  simp only [storeHost, hostTurn]
  split
  · rfl
  · next obtained =>
      split
      · have score := findScore_score obtained o.summary.lookup post before
          (cached_of_call obtained) agrees'
        simp only [updatePerformanceSummary, score]
      · rfl

/-- The turn of a host looks up hosts up to this one. -/
theorem storeHost_calls (before : info.name ∉ pre.map MonitorInfo.name) :
    Calls ((pre ++ [info]).map MonitorInfo.name) s
      (storeHost .literal zone (pre ++ info :: post) info o s).2 := by
  have own : info.name ∈ (pre ++ [info]).map MonitorInfo.name := by simp
  have look := calls_single own o.own.lookup s
  simp only [storeHost]
  split
  · exact look
  · next obtained =>
      split
      · exact look.trans (findScore_calls _ post before (cached_of_call obtained))
      · exact look

/-- The identifier of a turn is cached afterwards. -/
theorem storeHost_cached (before : info.name ∉ pre.map MonitorInfo.name)
    (obtained : (hostTurn zone info o s).hostId ≠ []) :
    (storeHost .literal zone (pre ++ info :: post) info o s).2.hostIdCache.lookup info.name =
      some (hostTurn zone info o s).hostId := by
  rw [hostTurn_hostId] at obtained ⊢
  have cached := cached_of_call obtained
  simp only [storeHost, if_neg obtained]
  split
  · exact (findScore_calls _ post before cached).keeps_cached cached
  · exact cached

end Host

/-! ## All hosts -/

section Hosts

variable {R : Type} [Field R] [LinearOrder R] {zone : ℤ → ℤ} {data pre infos : List (MonitorInfo R)}
  {outcomes : ℕ → HostOutcomes} {s : HostState}

omit [Field R] [LinearOrder R] in
theorem not_before {info : MonitorInfo R} (member : info ∈ infos)
    (distinct : ((pre ++ infos).map MonitorInfo.name).Nodup) :
    info.name ∉ pre.map MonitorInfo.name := by
  rw [List.map_append] at distinct
  exact fun early => List.disjoint_of_nodup_append distinct early (List.mem_map_of_mem member)

/-- One step of the loop, at the host after `pre`: its turn, the lookups it makes, and the
identifier it leaves in the cache. -/
theorem storeHosts_step (zone : ℤ → ℤ) {info : MonitorInfo R} (split : data = pre ++ info :: infos)
    (distinct : (data.map MonitorInfo.name).Nodup) (o : HostOutcomes) (s : HostState) :
    data = (pre ++ [info]) ++ infos ∧
      Calls ((pre ++ [info]).map MonitorInfo.name) s (storeHost .literal zone data info o s).2 ∧
      (CacheAgrees s → (storeHost .literal zone data info o s).1 = hostTurn zone info o s) ∧
      ((hostTurn zone info o s).hostId ≠ [] →
        (storeHost .literal zone data info o s).2.hostIdCache.lookup info.name =
          some (hostTurn zone info o s).hostId) := by
  have before := not_before List.mem_cons_self (split ▸ distinct)
  subst split
  refine ⟨by simp, ?_, ?_, ?_⟩
  · exact storeHost_calls zone infos o before
  · exact storeHost_eq zone infos o before
  · exact storeHost_cached zone infos o before

/-- **The loop gives each host the turn it has alone**, in any state that differs from the
present one only by what was done for hosts before it. -/
theorem storeHosts_eq {start : HostState} (split : data = pre ++ infos)
    (distinct : (data.map MonitorInfo.name).Nodup) (agrees : CacheAgrees s)
    (untouched : ∀ info ∈ infos, Untouched info.name start s) :
    (storeHosts .literal zone data outcomes infos s).1 =
      infos.mapIdx fun i info => hostTurn zone info (outcomes i) start := by
  induction infos generalizing pre outcomes s with
  | nil => rfl
  | cons info infos ih =>
      obtain ⟨split', calls, turn, -⟩ := storeHosts_step zone split distinct (outcomes 0) s
      have first := turn agrees
      rw [(untouched info List.mem_cons_self).same_turn] at first
      rw [List.mapIdx_cons, ← first]
      refine congrArg (List.cons _) (ih split' (agrees.of_calls calls).1 fun other member => ?_)
      have outside : other.name ∉ (pre ++ [info]).map MonitorInfo.name :=
        not_before member (split' ▸ distinct)
      exact (untouched other (List.mem_cons_of_mem _ member)).trans (.of_calls outside calls)

theorem storeHosts_calls (split : data = pre ++ infos)
    (distinct : (data.map MonitorInfo.name).Nodup) :
    Calls (data.map MonitorInfo.name) s (storeHosts .literal zone data outcomes infos s).2 := by
  induction infos generalizing pre outcomes s with
  | nil => exact .refl
  | cons info infos ih =>
      obtain ⟨split', calls, -, -⟩ := storeHosts_step zone split distinct (outcomes 0) s
      have names : (pre ++ [info]).map MonitorInfo.name ⊆ data.map MonitorInfo.name := by
        rw [split']
        exact List.map_subset _ (List.subset_append_left _ _)
      exact (calls.mono names).trans (ih split')

/-- **Every identifier obtained is cached** in the end. -/
theorem storeHosts_cached (split : data = pre ++ infos)
    (distinct : (data.map MonitorInfo.name).Nodup) (agrees : CacheAgrees s) {log : HostLog R}
    (member : log ∈ (storeHosts .literal zone data outcomes infos s).1)
    (obtained : log.hostId ≠ []) :
    (storeHosts .literal zone data outcomes infos s).2.hostIdCache.lookup log.info.name =
      some log.hostId := by
  induction infos generalizing pre outcomes s with
  | nil => cases member
  | cons info infos ih =>
      obtain ⟨split', calls, turn, cached⟩ := storeHosts_step zone split distinct (outcomes 0) s
      have turns : (storeHosts .literal zone data outcomes (info :: infos) s).1 =
          (storeHost .literal zone data info (outcomes 0) s).1 :: _ := rfl
      rw [turns, turn agrees] at member
      rcases List.mem_cons.mp member with rfl | member
      · rw [hostTurn_info]
        exact (storeHosts_calls split' distinct).keeps_cached (cached obtained)
      · exact ih split' (agrees.of_calls calls).1 member

end Hosts

/-! ## The whole call -/

section Store

variable {R : Type} [Field R] [LinearOrder R] {zone : ℤ → ℤ} {data : List (MonitorInfo R)}
  {outcomes : ℕ → HostOutcomes} {s : HostState}

/-- **Storing is one turn for each host**, each in the initial state. -/
theorem logs_storeToDatabase (distinct : (data.map MonitorInfo.name).Nodup)
    (agrees : CacheAgrees s) :
    (storeToDatabase .literal zone true data outcomes s).logs =
      data.mapIdx fun i info => hostTurn zone info (outcomes i) s :=
  storeHosts_eq (List.nil_append data).symm distinct agrees fun info _ => .refl info.name s

/-- Every identifier obtained is cached afterwards. -/
theorem cached_storeToDatabase (distinct : (data.map MonitorInfo.name).Nodup)
    (agrees : CacheAgrees s) {log : HostLog R}
    (member : log ∈ (storeToDatabase .literal zone true data outcomes s).logs)
    (obtained : log.hostId ≠ []) :
    (storeToDatabase .literal zone true data outcomes s).state.hostIdCache.lookup log.info.name =
      some log.hostId :=
  storeHosts_cached (List.nil_append data).symm distinct agrees member obtained

/-- The cache still agrees with the table afterwards. -/
theorem agrees_storeToDatabase (zone : ℤ → ℤ) (outcomes : ℕ → HostOutcomes)
    (distinct : (data.map MonitorInfo.name).Nodup)
    (agrees : CacheAgrees s) :
    CacheAgrees (storeToDatabase .literal zone true data outcomes s).state :=
  (agrees.of_calls (storeHosts_calls (List.nil_append data).symm distinct)).1

theorem mem_logs_storeToDatabase (distinct : (data.map MonitorInfo.name).Nodup)
    (agrees : CacheAgrees s) {log : HostLog R}
    (member : log ∈ (storeToDatabase .literal zone true data outcomes s).logs) :
    ∃ i info, data[i]? = some info ∧ hostTurn zone info (outcomes i) s = log := by
  rw [logs_storeToDatabase distinct agrees] at member
  obtain ⟨i, found⟩ := List.mem_iff_getElem?.mp member
  rw [List.getElem?_mapIdx] at found
  obtain ⟨info, here, turn⟩ := Option.map_eq_some_iff.mp found
  exact ⟨i, info, here, turn⟩

end Store

/-- **Storing keeps to the hosts.**  Take reports with different names, a table with a
cache that agrees with it, and any outcomes of the queries.  Then each host has its turn;
each metric row and each score that is attempted under an identifier comes from the report
of the one host whose row has the identifier; what is attempted for a host is decided by
the outcomes of its own lookup and inserts; and the result is true exactly when every host
got an identifier and all of its rows were inserted.  Without a connection nothing is
attempted.  Identifiers generated for different names differ at any times. -/
theorem storeToDatabase_attributed {R : Type} [Field R] [LinearOrder R] (zone : ℤ → ℤ)
    (data : List (MonitorInfo R)) (distinct : (data.map MonitorInfo.name).Nodup)
    (outcomes : ℕ → HostOutcomes) (s : HostState) (agrees : CacheAgrees s) :
    let stored := storeToDatabase .literal zone true data outcomes s
    stored.logs.map HostLog.info = data ∧
      (∀ log ∈ stored.logs, Attributed stored.state.hostInfo log) ∧
      (∀ outcomes' i, (outcomes i).own = (outcomes' i).own →
        stored.logs[i]?.map HostLog.own =
          (storeToDatabase .literal zone true data outcomes' s).logs[i]?.map HostLog.own) ∧
      (stored.allSuccess = true ↔
        ∀ log ∈ stored.logs, log.hostId ≠ [] ∧ inserted log.rows = metricCount log.info) ∧
      storeToDatabase .literal zone false data outcomes s = ⟨[], s, false⟩ ∧
      ∀ hostName hostName' time time', hostName ≠ hostName' →
        newHostId hostName time ≠ newHostId hostName' time' := by
  intro stored
  have turns : ∀ outcomes', (storeToDatabase .literal zone true data outcomes' s).logs =
      data.mapIdx fun i info => hostTurn zone info (outcomes' i) s :=
    fun _ => logs_storeToDatabase distinct agrees
  refine ⟨?_, ?_, ?_, ?_, rfl, ?_⟩
  · refine List.ext_getElem? fun i => ?_
    rw [turns, List.getElem?_map, List.getElem?_mapIdx, Option.map_map]
    have same : HostLog.info ∘ (fun info : MonitorInfo R => hostTurn zone info (outcomes i) s) =
        id := funext fun info => hostTurn_info zone info (outcomes i) s
    rw [same, Option.map_id_fun, id]
  · intro log member
    obtain ⟨i, info, _, turn⟩ := mem_logs_storeToDatabase distinct agrees member
    have cached := cached_storeToDatabase distinct agrees member
    subst turn
    rw [hostTurn_info] at cached
    exact hostTurn_attributed fun obtained =>
      agrees_storeToDatabase zone outcomes distinct agrees _ _ (cached obtained)
  · intro outcomes' i same
    rw [turns, turns, List.getElem?_mapIdx, List.getElem?_mapIdx, Option.map_map,
      Option.map_map]
    refine congrArg (fun f => data[i]?.map f) (funext fun info => ?_)
    exact hostTurn_own same
  · have all : stored.allSuccess = stored.logs.all HostLog.success := rfl
    rw [all, List.all_eq_true]
    apply forall₂_congr
    intro log member
    obtain ⟨i, info, _, rfl⟩ := mem_logs_storeToDatabase distinct agrees member
    rw [hostTurn_info]
    exact hostTurn_success_iff
  · exact fun _ _ _ _ differs same => differs (newHostId_name same)

/-! ## Two hosts -/

/-- Reports from `web` and `db` with no entries. -/
def twoReports : List (MonitorInfo ℚ) := [.named "web".toList, .named "db".toList]

/-- On the hour all queries succeed but the inserts of the second host. -/
def hourOutcomes (i : ℕ) : HostOutcomes :=
  let lookup : Outcomes := ⟨true, true, true, 7200⟩
  let inserts : InsertOutcomes := ⟨7200, fun _ => i = 0⟩
  ⟨⟨lookup, inserts, inserts, inserts, inserts, inserts⟩, 7200, ⟨7200, fun _ => lookup, true⟩⟩

theorem storeToDatabase_twoReports :
    (twoReports.map MonitorInfo.name).Nodup ∧ CacheAgrees ⟨∅, .empty⟩ ∧
      ∀ log ∈ (storeToDatabase .literal id true twoReports hourOutcomes ⟨∅, .empty⟩).logs,
        Attributed (storeToDatabase .literal id true twoReports hourOutcomes
          ⟨∅, .empty⟩).state.hostInfo log := by
  have distinct : (twoReports.map MonitorInfo.name).Nodup := by decide
  have agrees : CacheAgrees ⟨∅, .empty⟩ := fun _ _ found => by cases found
  exact ⟨distinct, agrees,
    (storeToDatabase_attributed id twoReports distinct hourOutcomes _ agrees).2.1⟩

end LinuxMonitor.PerformanceServer
