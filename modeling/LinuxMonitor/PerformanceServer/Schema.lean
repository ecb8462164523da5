import LinuxMonitor.PerformanceServer.Columns
import LinuxMonitor.PerformanceServer.Provenance

/-!
# The widths of the columns

The tables declare how wide their texts may be.  In its strict mode the database refuses a row
with a text that is wider, unless all that exceeds the width is blanks.  An identifier is
wider than the user name in it by sixteen characters, and its column is not.

* `fitsColumn_newHostId`: the identifiers that fit are those of short user names.
* `happen_strict`: **a strict database behaves like one that takes everything, with some other
  queries failing.**
* `executed_hostTurn_accepts`: a turn stores the rows of each table up to the first that does
  not fit.
* `stored_on_strict`: **a machine whose user name is longer than 34 characters never gets a row;
  the reports of the others are stored as far as their texts fit.**
-/

set_option autoImplicit false

namespace LinuxMonitor.PerformanceServer

open Library Proto Rpc

variable {ι R : Type}

/-! ## Identifiers -/

/-- Ten digits: the clock shows a time from 2001 to 2286. -/
def InEra (time : ℤ) : Prop := 10 ^ 9 ≤ time ∧ time < 10 ^ 10

theorem length_signedDecimal {time : ℤ} (era : InEra time) : (signedDecimal time).length = 10 := by
  obtain ⟨after, before⟩ := era
  obtain ⟨n, rfl⟩ := Int.eq_ofNat_of_zero_le (by omega : 0 ≤ time)
  have upper : (decimal n).length ≤ 10 :=
    (Nat.length_toDigits_le_iff (by decide) (by decide)).mpr (by omega)
  have lower : ¬ (decimal n).length ≤ 9 := by
    rw [decimal, Nat.length_toDigits_le_iff (by decide) (by decide)]
    omega
  change (decimal n).length = 10
  omega

theorem length_newHostId (hostName : Text) {time : ℤ} (era : InEra time) :
    (newHostId hostName time).length = hostName.length + 16 := by
  have prefixed : "host_".toList.length = 5 := by decide
  rw [newHostId, List.length_append, List.length_append, List.length_cons,
    length_signedDecimal era, prefixed]
  omega

theorem getLast_newHostId (hostName : Text) (time : ℤ) :
    isSpace ((newHostId hostName time).getLast (newHostId_ne_nil hostName time)) = false := by
  have digits := signedDecimal_ne_nil time
  simp only [newHostId, List.getLast_append_of_ne_nil, List.getLast_cons digits, ne_eq,
    List.append_eq_nil_iff, reduceCtorEq, and_false, not_false_eq_true]
  exact signedDecimal_visible (List.getLast_mem digits)

/-- **The identifiers that fit are those of user names of at most 34 characters.** -/
theorem fitsColumn_newHostId (hostName : Text) {time : ℤ} (era : InEra time) :
    FitsColumn 50 (newHostId hostName time) ↔ hostName.length ≤ 34 := by
  have length := length_newHostId hostName era
  constructor
  · intro fits
    have short := length_of_fitsColumn fits _ (getLast_newHostId hostName time)
    omega
  · intro short
    exact fitsColumn_of_length (by omega)

/-! ## A strict database -/

/-- The server when it refuses rows that do not fit. -/
def Database.strict (db : Database) : Database where
  select := db.select
  insert hostId hostName t :=
    if (Statement.insertHost hostId hostName : Statement ℚ).Fits then
      db.insert hostId hostName t
    else (false, t)

/-- The outcomes of a lookup whose INSERT fails, too, when its row does not fit. -/
def Outcomes.narrow (hostName : Text) (o : Outcomes) : Outcomes :=
  { o with insertOk := o.insertOk &&
      (Statement.insertHost (newHostId hostName o.time) hostName : Statement ℚ).Fits }

theorem getOrCreateHostId_strict (db : Database) (hostName : Text) (o : Outcomes)
    (s : HostState) : getOrCreateHostId db.strict hostName o s =
      getOrCreateHostId db hostName (o.narrow hostName) s := by
  have query : queryHostId db.strict hostName o s.hostInfo =
      queryHostId db hostName (o.narrow hostName) s.hostInfo := rfl
  rw [getOrCreateHostId, getOrCreateHostId, query]
  cases s.hostIdCache.lookup hostName with
  | some hostId => rfl
  | none =>
      obtain ⟨row, t⟩ := queryHostId db hostName (o.narrow hostName) s.hostInfo
      cases row with
      | some hostId => rfl
      | none =>
          cases insertOk : o.insertOk with
          | false => simp [Outcomes.narrow, insertOk]
          | true =>
              by_cases fits : (Statement.insertHost (newHostId hostName o.time) hostName :
                Statement ℚ).Fits
              · simp [Outcomes.narrow, insertOk, fits, Database.strict]
              · simp [Outcomes.narrow, insertOk, fits, Database.strict]

/-- Databases that answer alike do so when they are strict, too. -/
theorem Alike.strict {db db' : Database} {names : Set Text} {P : HostInfo → Prop}
    (alike : Alike db db' names P) : Alike db.strict db'.strict names P := by
  intro hostName own o s before
  rw [getOrCreateHostId_strict, getOrCreateHostId_strict]
  exact alike hostName own (o.narrow hostName) s before

/-- The same for the lookups of the reports of a list. -/
def narrowLookups (infos : List (MonitorInfo R)) (lookup : ℕ → Outcomes) (j : ℕ) : Outcomes :=
  match infos[j]? with
  | some info => (lookup j).narrow info.name
  | none => lookup j

def HostOutcomes.narrow (data : List (MonitorInfo R)) (hostName : Text) (o : HostOutcomes) :
    HostOutcomes :=
  { o with
    own := { o.own with lookup := o.own.lookup.narrow hostName }
    summary := { o.summary with lookup := narrowLookups data o.summary.lookup } }

def narrowOutcomes (data infos : List (MonitorInfo R)) (outcomes : ℕ → HostOutcomes) (i : ℕ) :
    HostOutcomes :=
  match infos[i]? with
  | some info => (outcomes i).narrow data info.name
  | none => outcomes i

section Strict

variable [Field R] [LinearOrder R] (db : Database) (zone : ℤ → ℤ)

theorem findScore_strict (hostId : Text) (lookup : ℕ → Outcomes) (infos : List (MonitorInfo R))
    (s : HostState) : findScore db.strict hostId lookup infos s =
      findScore db hostId (narrowLookups infos lookup) infos s := by
  induction infos generalizing lookup s with
  | nil => rfl
  | cons info infos ih =>
      have first : narrowLookups (info :: infos) lookup 0 = (lookup 0).narrow info.name := rfl
      simp only [findScore, getOrCreateHostId_strict, ih, first]
      rfl

theorem storeHost_strict (data : List (MonitorInfo R)) (info : MonitorInfo R) (o : HostOutcomes)
    (s : HostState) : storeHost db.strict zone data info o s =
      storeHost db zone data info (o.narrow data info.name) s := by
  simp only [storeHost, updatePerformanceSummary, getOrCreateHostId_strict, findScore_strict]
  rfl

theorem storeHosts_strict (data infos : List (MonitorInfo R)) (outcomes : ℕ → HostOutcomes)
    (s : HostState) : storeHosts db.strict zone data outcomes infos s =
      storeHosts db zone data (narrowOutcomes data infos outcomes) infos s := by
  induction infos generalizing outcomes s with
  | nil => rfl
  | cons info infos ih =>
      simp only [storeHosts, storeHost_strict, ih]
      rfl

variable (machines : ι → Client.Machine)

/-- What happens, with the failures of a strict database. -/
def Happening.narrow (d : Deployment R) : Happening ι R → Happening ι R
  | .round transport now during outcomes =>
      let data := getMonitorInfo d.system.server
      .round transport now during (narrowOutcomes data data outcomes)
  | h => h

omit [Field R] [LinearOrder R] in
theorem sent_narrow (d : Deployment R) (h : Happening ι R) : (h.narrow d).sent = h.sent := by
  cases h <;> rfl

/-- **A strict database behaves like one that takes everything**, with some other queries
failing. -/
theorem happen_strict (d : Deployment R) (h : Happening ι R) :
    d.happen db.strict machines zone h = d.happen db machines zone (h.narrow d) := by
  cases h with
  | report machine body => rfl
  | round transport now during outcomes =>
      cases transport with
      | delivered =>
          have stored := storeHosts_strict db zone (getMonitorInfo d.system.server)
            (getMonitorInfo d.system.server) outcomes d.system.hosts
          simp only [Deployment.happen, Happening.narrow, pollRound, Transport.outcome,
            fetchMonitorData_ok, storeToDatabase, if_true, stored]
      | failed => rfl
      | threw => rfl
  | restartServer => rfl
  | restartClient => rfl

end Strict

/-! ## Rows that fit -/

section Rows

variable (zone : ℤ → ℤ) (info : MonitorInfo R) (hostId : Text)

/-- The queries for the entries succeed exactly when the column takes the names. -/
def Decides {α : Type} (o : InsertOutcomes) (entries : List α) (width : ℕ) (name : α → Text) :
    Prop :=
  ∀ i x, entries[i]? = some x → (o.ok i = true ↔ FitsColumn width (name x))

/-- The queries of a turn succeed exactly when the texts of the report fit. -/
structure HostOutcomes.Accepts (info : MonitorInfo R) (o : HostOutcomes) : Prop where
  lookup : o.own.lookup.Working
  cpu : Decides o.own.cpu info.cpuStat 20 CpuStat.cpuName
  softIrq : Decides o.own.softIrq info.softIrq 20 SoftIrq.cpu
  memory : o.own.memory.ok 0 = true
  disk : Decides o.own.disk info.diskInfo 50 DiskInfo.name
  network : Decides o.own.network info.netInfo 50 NetInfo.name
  summary : o.summary.ok = true

/-- The statements before the first that does not fit. -/
def fitting (queries : List (Statement R)) : List (Statement R) :=
  queries.takeWhile fun query => query.Fits

/-- The statements of the five insert functions, each up to the first that does not fit. -/
def fittingRows [Zero R] (o : OwnOutcomes) : List (Statement R) :=
  fitting (cpuStatements info hostId (zone o.cpu.now)) ++
    (fitting (softIrqStatements info hostId (zone o.softIrq.now)) ++
      (memoryStatements info hostId (zone o.memory.now) ++
        (fitting (diskStatements info hostId (zone o.disk.now)) ++
          fitting (networkStatements info hostId (zone o.network.now)))))

/-- The statements that succeed are those before the first that does not fit. -/
theorem executed_executeQueries {ok : ℕ → Bool} {queries : List (Statement R)}
    (decided : ∀ i q, queries[i]? = some q → (ok i = true ↔ q.Fits)) :
    ((executeQueries ok queries).1.filter Attempt.ok).map Attempt.query =
      fitting queries := by
  induction queries generalizing ok with
  | nil => rfl
  | cons query queries ih =>
      have first := decided 0 query rfl
      have rest := @ih (fun i => ok (i + 1)) fun i q found => decided (i + 1) q found
      by_cases fits : query.Fits
      · simp [executeQueries, fitting, first.mpr fits, fits, rest]
      · have failed : ok 0 = false := by simpa [fits] using first
        simp [executeQueries, fitting, failed, fits]

/-- The statements of one table. -/
theorem executed_decides {α : Type} {o : InsertOutcomes} {entries : List α} {width : ℕ}
    {name : α → Text} (decides : Decides o entries width name) (statement : α → Statement R)
    (fits : ∀ x, (statement x).Fits ↔ FitsColumn width (name x)) :
    ((executeQueries o.ok (entries.map statement)).1.filter Attempt.ok).map Attempt.query =
      fitting (entries.map statement) := by
  refine executed_executeQueries fun i q found => ?_
  rw [List.getElem?_map] at found
  obtain ⟨x, here, rfl⟩ := Option.map_eq_some_iff.mp found
  rw [decides i x here, fits]

variable [Field R] [LinearOrder R] {zone info} {o : HostOutcomes} {s : HostState}

/-- **A turn stores the rows of each table up to the first that does not fit.** -/
theorem executed_hostTurn_accepts (obtained : (hostTurn zone info o s).hostId ≠ [])
    (fits : FitsColumn 50 (hostTurn zone info o s).hostId) (accepts : o.Accepts info) :
    (hostTurn zone info o s).executed =
      fittingRows zone info (hostTurn zone info o s).hostId o.own ++
        summaryStatements zone info (hostTurn zone info o s).hostId o := by
  have cpu := executed_decides accepts.cpu (fun cpuStat => .insertCpu
    (hostTurn zone info o s).hostId (zone o.own.cpu.now) cpuStat info.cpuLoadOrUnset)
    fun _ => and_iff_right fits
  have softIrq := executed_decides (R := R) accepts.softIrq (fun softIrq => .insertSoftIrq
    (hostTurn zone info o s).hostId (zone o.own.softIrq.now) softIrq) fun _ => and_iff_right fits
  have disk := executed_decides accepts.disk (fun diskInfo => .insertDisk
    (hostTurn zone info o s).hostId (zone o.own.disk.now) diskInfo) fun _ => and_iff_right fits
  have network := executed_decides accepts.network (fun netInfo => .insertNetwork
    (hostTurn zone info o s).hostId (zone o.own.network.now) netInfo) fun _ => and_iff_right fits
  rw [HostLog.executed, hostTurn_rows obtained, hostTurn_summary obtained, summaryStatements,
    List.filter_append, List.map_append]
  congr 1
  · simp only [insertMetrics, insertCPUMetrics, insertSoftIrqMetrics, insertMemoryMetrics,
      insertDiskMetrics, insertNetworkMetrics, List.filter_append, List.map_append, fittingRows,
      cpuStatements, softIrqStatements, memoryStatements, diskStatements, networkStatements, cpu,
      softIrq, disk, network]
    simp [executeQueries, accepts.memory]
  · split
    · simp [accepts.summary]
    · rfl

omit [LinearOrder R] in
/-- When all names fit these are all rows of the report. -/
theorem fittingRows_eq {o : OwnOutcomes} (fits : FitsColumn 50 hostId)
    (cpu : ∀ x ∈ info.cpuStat, FitsColumn 20 x.cpuName)
    (softIrq : ∀ x ∈ info.softIrq, FitsColumn 20 x.cpu)
    (disk : ∀ x ∈ info.diskInfo, FitsColumn 50 x.name)
    (network : ∀ x ∈ info.netInfo, FitsColumn 50 x.name) :
    fittingRows zone info hostId o = rowStatements zone info hostId o := by
  have whole : ∀ {α : Type} (entries : List α) (statement : α → Statement R),
      (∀ x ∈ entries, (statement x).Fits) →
        fitting (entries.map statement) = entries.map statement := by
    intro α entries statement all
    refine List.takeWhile_eq_self_iff.mpr fun q member => ?_
    obtain ⟨x, inside, rfl⟩ := List.mem_map.mp member
    exact decide_eq_true (all x inside)
  have cpus := whole info.cpuStat
    (fun cpuStat => .insertCpu hostId (zone o.cpu.now) cpuStat info.cpuLoadOrUnset)
    fun x member => ⟨fits, cpu x member⟩
  have softIrqs := whole info.softIrq
    (fun softIrq => .insertSoftIrq hostId (zone o.softIrq.now) softIrq)
    fun x member => ⟨fits, softIrq x member⟩
  have disks := whole info.diskInfo
    (fun diskInfo => .insertDisk hostId (zone o.disk.now) diskInfo)
    fun x member => ⟨fits, disk x member⟩
  have networks := whole info.netInfo
    (fun netInfo => .insertNetwork hostId (zone o.network.now) netInfo)
    fun x member => ⟨fits, network x member⟩
  simp only [fittingRows, rowStatements, cpuStatements, softIrqStatements, diskStatements,
    networkStatements, cpus, softIrqs, disks, networks]

end Rows

/-! ## Runs -/

section Runs

variable [Field R] [LinearOrder R] {db : Database} {zone : ℤ → ℤ}

section Keeps

variable {P : HostState → Prop} {Q : Outcomes → Prop}
  (each : ∀ hostName o s, Q o → P s → P (getOrCreateHostId db hostName o s).2)
include each

theorem findScore_keeps (hostId : Text) {lookup : ℕ → Outcomes} (infos : List (MonitorInfo R))
    (search : ∀ j, Q (lookup j)) {s : HostState} (before : P s) :
    P (findScore db hostId lookup infos s).2 := by
  induction infos generalizing lookup s with
  | nil => exact before
  | cons info infos ih =>
      have after := each info.name (lookup 0) s (search 0) before
      simp only [findScore]
      split
      · exact after
      · exact ih (fun j => search (j + 1)) after

theorem storeHost_keeps (data : List (MonitorInfo R)) (info : MonitorInfo R) {o : HostOutcomes}
    (own : Q o.own.lookup) (search : ∀ j, Q (o.summary.lookup j)) {s : HostState} (before : P s) :
    P (storeHost db zone data info o s).2 := by
  have after := each info.name o.own.lookup s own before
  simp only [storeHost]
  split
  · exact after
  · split
    · exact findScore_keeps each _ data search after
    · exact after

/-- What every lookup keeps is kept by storing. -/
theorem storeHosts_keeps (data infos : List (MonitorInfo R)) {outcomes : ℕ → HostOutcomes}
    (own : ∀ i, Q (outcomes i).own.lookup) (search : ∀ i j, Q ((outcomes i).summary.lookup j))
    {s : HostState} (before : P s) : P (storeHosts db zone data outcomes infos s).2 := by
  induction infos generalizing outcomes s with
  | nil => exact before
  | cons info infos ih =>
      exact ih (fun i => own (i + 1)) (fun i => search (i + 1))
        (storeHost_keeps each data info (own 0) (search 0) before)

end Keeps

/-- The clock of the lookups shows a time of the era. -/
def Happening.InEra : Happening ι R → Prop
  | .round _ _ _ outcomes => ∀ i, PerformanceServer.InEra (outcomes i).own.lookup.time ∧
      ∀ j, PerformanceServer.InEra ((outcomes i).summary.lookup j).time
  | _ => True

/-- The identifiers were generated in the era for the names in their rows, and fit. -/
def Timed (t : HostInfo) : Prop :=
  ∀ row ∈ t.rows, FitsColumn 50 row.hostId ∧
    ∃ time, InEra time ∧ row.hostId = newHostId row.hostName time

theorem Timed.generated {t : HostInfo} (timed : Timed t) : Generated t := fun row member =>
  have ⟨_, time, _, same⟩ := timed row member
  ⟨time, same⟩

/-- User names are short when their identifiers fit. -/
theorem Timed.short {t : HostInfo} (timed : Timed t) {row : HostRow} (member : row ∈ t.rows) :
    row.hostName.length ≤ 34 := by
  obtain ⟨fits, time, era, same⟩ := timed row member
  rw [same] at fits
  exact (fitsColumn_newHostId row.hostName era).mp fits

theorem Timed.of_call {s : HostState} (timed : Timed s.hostInfo) (hostName : Text) {o : Outcomes}
    (era : InEra o.time) :
    Timed (getOrCreateHostId (.strict .literal) hostName o s).2.hostInfo := by
  rw [getOrCreateHostId_strict]
  rcases getOrCreateHostId_cases id hostName (o.narrow hostName) s with
    ⟨_, _, result⟩ | ⟨_, _, _, result⟩ | ⟨t, _, _, insertOk, inserted, result⟩ |
    ⟨_, _, _, result⟩ <;> rw [result]
  · exact timed
  · exact timed
  · intro row member
    rw [(HostInfo.rows_insert inserted).2] at member
    rcases List.mem_append.mp member with before | new
    · exact timed row before
    · rw [List.mem_singleton.mp new]
      have fits := (Bool.and_eq_true_iff.mp insertOk).2
      exact ⟨(of_decide_eq_true fits).1, o.time, era, rfl⟩
  · exact timed

variable {machines : ι → Client.Machine}

theorem Timed.happen {d : Deployment R} (timed : Timed d.hostInfo) {h : Happening ι R}
    (era : h.InEra) : Timed (d.happen (.strict .literal) machines zone h).hostInfo := by
  cases h with
  | round transport now during outcomes =>
      let poll : Poll R := ⟨transport, now, requestsOf machines during, outcomes⟩
      by_cases delivered : transport = .delivered
      · subst delivered
        exact storeHosts_keeps (P := fun s => Timed s.hostInfo) (Q := fun o => InEra o.time)
          (fun hostName o s clocked before => before.of_call hostName clocked)
          (getMonitorInfo d.system.server) (getMonitorInfo d.system.server)
          (fun i => (era i).1) (fun i => (era i).2) timed
      · have hosts := (pollRound_undelivered (.strict .literal) zone poll d.system delivered).2
        have same : (d.happen (.strict .literal) machines zone
            (.round transport now during outcomes)).hostInfo = d.hostInfo :=
          congrArg HostState.hostInfo hosts
        rw [same]
        exact timed
  | report machine body => exact timed
  | restartServer => exact timed
  | restartClient => exact timed

/-- What holds after a run with a strict database, from an empty table of hosts. -/
theorem sourced_timed_after (machines : ι → Client.Machine) (zone : ℤ → ℤ)
    {happenings : List (Happening ι R)} (era : ∀ h ∈ happenings, h.InEra) :
    let d := (Deployment.new .empty).after (.strict .literal) machines zone happenings
    Sourced machines (happenings.flatMap Happening.sent) d ∧ Timed d.hostInfo := by
  induction happenings using List.reverseRecOn with
  | nil => exact ⟨sourced_new .empty, fun _ member => by cases member⟩
  | append_singleton happenings h ih =>
      obtain ⟨sourced, timed⟩ := ih fun h' member => era h' (List.mem_append_left _ member)
      rw [Deployment.after_concat, List.flatMap_append, List.flatMap_singleton]
      refine ⟨?_, timed.happen (era h (by simp))⟩
      rw [happen_strict, ← sent_narrow]
      exact sourced.happen _

/-- Clean names that the collation tells apart are taken literally by a strict database, too. -/
theorem after_strict {κ : Type} [DecidableEq κ] {weight : Text → κ} (zone : ℤ → ℤ) (other : Other)
    (clean : ∀ machine, Clean (machines machine).username) {t : HostInfo}
    (apart : Apart weight (usernames machines) t) (happenings : List (Happening ι R)) :
    (Deployment.new t).after (.strict (.sql weight other)) machines zone happenings =
      (Deployment.new t).after (.strict .literal) machines zone happenings := by
  have names : ∀ hostName ∈ usernames machines, Clean hostName := by
    rintro _ ⟨machine, rfl⟩
    exact clean machine
  exact ((alike_sql other names).strict.after zone apart happenings).1

/-- A lookup of a short name that works still works when its row must fit. -/
theorem Outcomes.Working.narrow {o : Outcomes} (working : o.Working) {hostName : Text}
    (short : hostName.length ≤ 34) (era : InEra o.time) : (o.narrow hostName).Working where
  select := working.select
  store := working.store
  insert := by
    have fits : (Statement.insertHost (newHostId hostName o.time) hostName : Statement ℚ).Fits :=
      ⟨(fitsColumn_newHostId hostName era).mpr short, fitsColumn_of_length (by omega)⟩
    rw [Outcomes.narrow, working.insert, decide_eq_true fits, Bool.and_self]

/-- A round stores what fits of a report that the server holds under a short name. -/
theorem fitting_of_held {sent : List (ι × MonitorInfo R)} {d : Deployment R}
    (sourced : Sourced machines sent d) (timed : Timed d.hostInfo) {info : MonitorInfo R}
    (short : info.name.length ≤ 34) (holds : d.held.lookup info.name = some info) (now : ℤ)
    (during : List (ι × MonitorInfo R)) {outcomes : ℕ → HostOutcomes}
    (era : (Happening.round .delivered now during outcomes).InEra)
    (accepts : ∀ i : ℕ, (getMonitorInfo d.system.server)[i]? = some info →
      (outcomes i).Accepts info) :
    let d' := d.happen (.strict .literal) machines zone (.round .delivered now during outcomes)
    ∃ hostId i, ⟨hostId, info.name⟩ ∈ d'.hostInfo.rows ∧
      ∀ q ∈ fittingRows zone info hostId (outcomes i).own ++
        summaryStatements zone info hostId (outcomes i), q ∈ d'.stored := by
  intro d'
  let data := getMonitorInfo d.system.server
  have narrowed : ∀ i : ℕ, data[i]? = some info →
      narrowOutcomes data data outcomes i = (outcomes i).narrow data info.name := by
    intro i here
    rw [narrowOutcomes, here]
  have working : ∀ i : ℕ, data[i]? = some info →
      (narrowOutcomes data data outcomes i).own.lookup.Working := by
    intro i here
    rw [narrowed i here]
    exact (accepts i here).lookup.narrow short (era i).1
  have same : d' = d.happen .literal machines zone
      (.round .delivered now during (narrowOutcomes data data outcomes)) :=
    happen_strict .literal zone machines d _
  obtain ⟨i, here, obtained, row, executed⟩ :=
    turn_of_held zone sourced timed.generated holds now during working
  rw [← same] at row executed
  rw [narrowed i here] at obtained row executed
  have fit : Timed d'.hostInfo := timed.happen era
  have accepted : ((outcomes i).narrow data info.name).Accepts info :=
    { accepts i here with lookup := (accepts i here).lookup.narrow short (era i).1 }
  refine ⟨_, i, row, fun q member => executed ?_⟩
  rw [executed_hostTurn_accepts obtained (fit _ row).1 accepted]
  exact member

/-- **What a strict database stores.**  Take any run from an empty table of hosts at times from
2001 to 2286, a report of a machine, a further run in which nobody reports under the user name
of the machine and the server is not started anew, and a round whose call is delivered and in
which the queries for the report fail exactly when its texts do not fit.  The user names are clean,
and the collation tells them apart.  When the user name has more than 34 characters every turn
that has stored something is that of a report under another user name, and what it has stored is
built from that report.  Else the rows of each table are stored up to the first that does not fit,
and on the hour the score. -/
theorem stored_on_strict {κ : Type} [DecidableEq κ] {weight : Text → κ} (other : Other)
    (machines : ι → Client.Machine) (clean : ∀ machine, Clean (machines machine).username)
    (apart : Apart weight (usernames machines) .empty) (zone : ℤ → ℤ)
    (before later : List (Happening ι R)) (machine : ι) (body : MonitorInfo R)
    (quiet : ∀ h ∈ later, Quiet machines (machines machine).username h) (now : ℤ)
    (during : List (ι × MonitorInfo R)) (outcomes : ℕ → HostOutcomes)
    (era : ∀ h ∈ (before ++ .report machine body :: later) ++
      [.round .delivered now during outcomes], h.InEra)
    (accepts : ∀ i, (getMonitorInfo ((Deployment.new .empty).after (.strict (.sql weight other))
      machines zone (before ++ .report machine body :: later)).system.server)[i]? =
        some (submitted machines machine body) →
          (outcomes i).Accepts (submitted machines machine body)) :
    let happenings := (before ++ .report machine body :: later) ++
      [.round .delivered now during outcomes]
    let info := submitted machines machine body
    let d := (Deployment.new .empty).after (.strict (.sql weight other)) machines zone happenings
    (34 < (machines machine).username.length → ∀ log ∈ d.logs, log.executed ≠ [] →
      ∃ machine', (machines machine').username ≠ (machines machine).username ∧
        FromMachine machines (happenings.flatMap Happening.sent) d.hostInfo machine' log) ∧
    ((machines machine).username.length ≤ 34 → ∃ hostId i,
      ⟨hostId, (machines machine).username⟩ ∈ d.hostInfo.rows ∧
        ∀ q ∈ fittingRows zone info hostId (outcomes i).own ++
          summaryStatements zone info hostId (outcomes i), q ∈ d.stored) := by
  intro happenings info d
  have literal : ∀ happenings : List (Happening ι R), _ = _ :=
    after_strict zone other clean apart
  rw [literal] at accepts
  simp only [d, literal]
  obtain ⟨sourced, timed⟩ := sourced_timed_after machines zone era
  constructor
  · intro long log member executed
    obtain ⟨machine', origin⟩ := sourced.turns log member
    refine ⟨machine', fun same => ?_, origin⟩
    have short : (machines machine').username.length ≤ 34 := timed.short (origin.row executed)
    rw [same] at short
    omega
  · intro short
    obtain ⟨sourced, timedEarly⟩ := sourced_timed_after machines zone
      fun h member => era h (List.mem_append_left _ member)
    have holds := lookup_reported (.strict .literal) zone
      ((Deployment.new .empty).after (.strict .literal) machines zone before) body quiet
    rw [← Deployment.after_append, ← show info.name = (machines machine).username from rfl] at holds
    have last := Deployment.after_concat (.strict .literal) machines zone (.new .empty)
      (before ++ .report machine body :: later) (.round .delivered now during outcomes)
    simp only [happenings, last]
    exact fitting_of_held sourced timedEarly short holds now during
      (era _ (List.mem_append_right _ (List.mem_singleton_self _))) accepts

end Runs

/-- The client is started anew between the report and the round. -/
theorem stored_on_strict_root :
    let d := (Deployment.new .empty).after (.strict (.sql ignoreCase silent)) (fun _ => rootMachine)
      id (([] ++ .report () idleReport :: [.restartClient]) ++
        [.round .delivered (10 ^ 9) [] fun _ => punctual (10 ^ 9)])
    ∃ hostId, ⟨hostId, rootMachine.username⟩ ∈ d.hostInfo.rows ∧
      ∃ q ∈ d.stored, q.isCpu = true ∧ q.owner = some hostId := by
  let info := submitted (fun _ : Unit => rootMachine) () idleReport
  have now : InEra (10 ^ 9) := ⟨le_refl _, by norm_num⟩
  have quiet : ∀ h ∈ [(.restartClient : Happening Unit ℚ)],
      Quiet (fun _ => rootMachine) rootMachine.username h := by
    intro h member
    rw [List.mem_singleton.mp member]
    exact ⟨trivial, fun _ inside => by cases inside⟩
  have era : ∀ h ∈ ([] ++ .report () idleReport :: [.restartClient]) ++
      [.round .delivered (10 ^ 9) [] fun _ => punctual (10 ^ 9)],
        (h : Happening Unit ℚ).InEra := by
    intro h member
    simp only [List.nil_append, List.cons_append, List.mem_cons, List.not_mem_nil, or_false]
      at member
    rcases member with rfl | rfl | rfl
    · trivial
    · trivial
    · exact fun _ => ⟨now, fun _ => now⟩
  have fits : ∀ x ∈ idleReport.cpuStat, FitsColumn 20 x.cpuName := by decide
  have accepts : (punctual (10 ^ 9)).Accepts info :=
    { lookup := ⟨rfl, rfl, rfl⟩
      cpu := fun _ x found => iff_of_true rfl (fits x (List.mem_of_getElem? found))
      softIrq := fun _ _ found => by cases found
      memory := rfl
      disk := fun _ _ found => by cases found
      network := fun _ _ found => by cases found
      summary := rfl }
  have short : rootMachine.username.length ≤ 34 := by decide
  obtain ⟨hostId, i, row, stored⟩ := (stored_on_strict silent (fun _ => rootMachine)
    clean_rootMachine apart_rootMachine id [] [.restartClient] () idleReport quiet (10 ^ 9) []
    (fun _ => punctual (10 ^ 9)) era fun _ _ => accepts).2 short
  have timed := (sourced_timed_after (fun _ => rootMachine) id era).2
  rw [← after_strict id silent clean_rootMachine apart_rootMachine] at timed
  have rows : fittingRows id info hostId (punctual (10 ^ 9)).own =
      rowStatements id info hostId (punctual (10 ^ 9)).own :=
    fittingRows_eq hostId (timed _ row).1 fits (fun _ member => by cases member)
      (fun _ member => by cases member) fun _ member => by cases member
  obtain ⟨q, member, isCpu, stamp⟩ := exists_cpuStatement id hostId (punctual (10 ^ 9)).own
    (show info.cpuStat ≠ [] from List.cons_ne_nil _ _)
  rw [← rows] at member
  exact ⟨hostId, row, q, stored q (List.mem_append_left _ member), isCpu, owner_of_stamp stamp⟩

end LinuxMonitor.PerformanceServer
