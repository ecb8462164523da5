import LinuxMonitor.PerformanceServer.Polling
import LinuxMonitor.Rpc.Fleet

/-!
# From the machines to the tables

A deployment is a fleet of machines, the server that they report to, and the client with its
database.  Machines report and the client makes its rounds in any order; calls and queries
fail at will; the server and the client may be started anew, and lose what they hold in
memory.

A lost connection to the database is modelled by queries that fail.  The user names are clean, and
the collation tells them apart.

* `after_sql`: so a run goes as with a database that takes names literally.
* `Sourced.happen`: one step keeps what is stored to the reports that were sent.
* `stored_from_machines`: **everything stored comes from a report of a machine, under the
  identifier of its user name; the buckets hold rows of no other user name.**
* `Generated.getOrCreateHostId_ne_nil`: a lookup that works gives an identifier.
* `report_stored`: **a report that is not replaced is stored by the next round that works.**
-/

set_option autoImplicit false

namespace LinuxMonitor.PerformanceServer

open Library Proto Rpc

variable {ι R : Type}

/-! ## Deployments -/

/-- What happens in a deployment.  A round comes with the reports that arrive while it stores. -/
inductive Happening (ι R : Type) where
  | report (machine : ι) (body : MonitorInfo R)
  | round (transport : Transport) (now : ℤ) (during : List (ι × MonitorInfo R))
      (outcomes : ℕ → HostOutcomes)
  | restartServer
  | restartClient

/-- The reports that are sent, each with its machine. -/
def Happening.sent : Happening ι R → List (ι × MonitorInfo R)
  | .report machine body => [(machine, body)]
  | .round _ _ during _ => during
  | .restartServer => []
  | .restartClient => []

/-- The requests that the reports are sent as. -/
def requestsOf (machines : ι → Client.Machine) (sent : List (ι × MonitorInfo R)) :
    List (MonitorInfo R) :=
  sent.map fun report => submitted machines report.1 report.2

/-- The server, the client and the table of hosts, and the turns that have filled the other
tables. -/
structure Deployment (R : Type) where
  system : System R
  logs : List (HostLog R)

/-- A server and a client that were just started. -/
def Deployment.new (t : HostInfo) : Deployment R := ⟨.started ⟨[], 0⟩ ⟨∅, t⟩, []⟩

def Deployment.hostInfo (d : Deployment R) : HostInfo := d.system.hosts.hostInfo

/-- The statements that the tables were filled with. -/
def Deployment.stored (d : Deployment R) : List (Statement R) := d.logs.flatMap HostLog.executed

/-- The reports that the server holds. -/
def Deployment.held (d : Deployment R) : AList (fun _ : Text => MonitorInfo R) :=
  d.system.server.monitorInfosMap

section Happen

variable [Field R] [LinearOrder R] (db : Database) (machines : ι → Client.Machine) (zone : ℤ → ℤ)

def Deployment.happen (d : Deployment R) : Happening ι R → Deployment R
  | .report machine body =>
      { d with system := step db zone d.system (.report (submitted machines machine body)) }
  | .round transport now during outcomes =>
      let poll := ⟨transport, now, requestsOf machines during, outcomes⟩
      let (logs, system) := pollRound db zone poll d.system
      ⟨system, d.logs ++ logs⟩
  | .restartServer => { d with system := { d.system with server := .initial } }
  | .restartClient =>
      { d with system := { d.system with client := ⟨[], 0⟩, hosts := ⟨∅, d.hostInfo⟩ } }

/-- The deployment after a run. -/
def Deployment.after (d : Deployment R) (happenings : List (Happening ι R)) : Deployment R :=
  happenings.foldl (Deployment.happen db machines zone) d

theorem Deployment.after_append (d : Deployment R) (first second : List (Happening ι R)) :
    d.after db machines zone (first ++ second) =
      (d.after db machines zone first).after db machines zone second :=
  List.foldl_append

theorem Deployment.stored_round (d : Deployment R) (transport : Transport) (now : ℤ)
    (during : List (ι × MonitorInfo R)) (outcomes : ℕ → HostOutcomes) :
    (d.happen db machines zone (.round transport now during outcomes)).stored = d.stored ++
      (pollRound db zone ⟨transport, now, requestsOf machines during, outcomes⟩ d.system).1.flatMap
        HostLog.executed :=
  List.flatMap_append

theorem Deployment.after_concat (d : Deployment R) (happenings : List (Happening ι R))
    (h : Happening ι R) : d.after db machines zone (happenings ++ [h]) =
      (d.after db machines zone happenings).happen db machines zone h :=
  List.foldl_concat _ _ _ _

/-- A call that does not succeed stores nothing. -/
theorem pollRound_undelivered (poll : Poll R) (system : System R)
    (lost : poll.transport ≠ .delivered) :
    (pollRound db zone poll system).1 = [] ∧
      (pollRound db zone poll system).2.hosts = system.hosts := by
  obtain ⟨transport, now, during, outcomes⟩ := poll
  cases transport with
  | delivered => exact absurd rfl lost
  | failed => exact ⟨rfl, rfl⟩
  | threw => exact ⟨rfl, rfl⟩

end Happen

/-! ## What the server holds -/

/-- The server holds the last ones of some of the reports sent. -/
def Held (machines : ι → Client.Machine) (sent : List (ι × MonitorInfo R))
    (server : RpcServerImpl R) : Prop :=
  ∃ reports ⊆ sent, server.monitorInfosMap =
    storeAll MonitorInfo.name id (requestsOf machines reports) ∅

section Held

variable {machines : ι → Client.Machine} {sent : List (ι × MonitorInfo R)}
  {server : RpcServerImpl R}

theorem held_initial : Held machines sent (.initial : RpcServerImpl R) :=
  ⟨[], List.nil_subset _, rfl⟩

theorem Held.receive (held : Held machines sent server) (more : List (ι × MonitorInfo R)) :
    Held machines (sent ++ more) (receive server (requestsOf machines more)) := by
  obtain ⟨reports, sub, same⟩ := held
  refine ⟨reports ++ more, List.append_subset.mpr
    ⟨List.subset_append_of_subset_left _ sub, List.subset_append_right _ _⟩, ?_⟩
  rw [monitorInfosMap_receive, same]
  simp only [requestsOf, List.map_append, storeAll, List.foldl_append]

/-- The user names of the machines. -/
def usernames (machines : ι → Client.Machine) : Set Text :=
  Set.range fun machine => (machines machine).username

/-- The response to a fetch: reports under different names, each of them sent. -/
theorem Held.response (held : Held machines sent server) :
    ((getMonitorInfo server).map MonitorInfo.name).Nodup ∧
      ∀ info ∈ getMonitorInfo server, info ∈ requestsOf machines sent := by
  obtain ⟨reports, sub, same⟩ := held
  rw [getMonitorInfo, same]
  constructor
  · have names : (values (storeAll MonitorInfo.name id (requestsOf machines reports) ∅)).map
        MonitorInfo.name = (storeAll MonitorInfo.name id (requestsOf machines reports) ∅).keys :=
      map_values_storeAll _ _ _ fun _ => rfl
    rw [names]
    exact AList.keys_nodup _
  · intro info member
    obtain ⟨request, rfl, last⟩ := latest_of_mem_values _ _ _ member
    exact List.map_subset _ sub (mem_of_latest last).1

theorem Held.names (held : Held machines sent server) :
    ∀ info ∈ getMonitorInfo server, info.name ∈ usernames machines := by
  intro info member
  obtain ⟨⟨machine, body⟩, _, rfl⟩ := List.mem_map.mp (held.response.2 info member)
  exact ⟨machine, rfl⟩

variable [Field R] [LinearOrder R] (db : Database) (zone : ℤ → ℤ)

/-- **One step** adds the reports that are sent in it, with any database. -/
theorem Held.happen {d : Deployment R} (held : Held machines sent d.system.server)
    (h : Happening ι R) :
    Held machines (sent ++ h.sent) (d.happen db machines zone h).system.server := by
  cases h with
  | report machine body => exact held.receive [(machine, body)]
  | round transport now during outcomes =>
      have server := server_step db zone d.system
        (.round ⟨transport, now, requestsOf machines during, outcomes⟩)
      change Held machines (sent ++ during) (step db zone d.system
        (.round ⟨transport, now, requestsOf machines during, outcomes⟩)).server
      rw [server]
      exact held.receive during
  | restartServer => exact held_initial
  | restartClient =>
      simp only [Happening.sent, List.append_nil]
      exact held

theorem held_after (t : HostInfo) (happenings : List (Happening ι R)) :
    Held machines (happenings.flatMap Happening.sent)
      ((Deployment.new t).after db machines zone happenings).system.server := by
  induction happenings using List.reverseRecOn with
  | nil => exact held_initial
  | append_singleton happenings h ih =>
      rw [Deployment.after_concat, List.flatMap_append, List.flatMap_singleton]
      exact ih.happen db zone h

end Held

/-! ## Databases that answer alike -/

section Alike

variable [Field R] [LinearOrder R] {machines : ι → Client.Machine} (zone : ℤ → ℤ)

/-- A round goes alike when the server holds reports under these names only. -/
theorem Alike.pollRound {db db' : Database} {names : Set Text} {P : HostInfo → Prop}
    (alike : Alike db db' names P) (poll : Poll R)
    (system : System R) (known : ∀ info ∈ getMonitorInfo system.server, info.name ∈ names)
    (before : P system.hosts.hostInfo) :
    pollRound db zone poll system = pollRound db' zone poll system ∧
      P (PerformanceServer.pollRound db' zone poll system).2.hosts.hostInfo := by
  obtain ⟨transport, now, during, outcomes⟩ := poll
  cases transport with
  | delivered =>
      obtain ⟨same, after⟩ := alike.storeHosts zone known known outcomes before
      simp only [PerformanceServer.pollRound, Transport.outcome, fetchMonitorData_ok,
        storeToDatabase, if_true, same, true_and]
      exact after
  | failed => exact ⟨rfl, before⟩
  | threw => exact ⟨rfl, before⟩

/-- **A run goes alike** with databases that answer alike for the user names. -/
theorem Alike.after {db db' : Database} {P : HostInfo → Prop}
    (alike : Alike db db' (usernames machines) P) {t : HostInfo} (start : P t)
    (happenings : List (Happening ι R)) :
    (Deployment.new t).after db machines zone happenings =
        (Deployment.new t).after db' machines zone happenings ∧
      P ((Deployment.new t).after db' machines zone happenings).hostInfo := by
  induction happenings using List.reverseRecOn with
  | nil => exact ⟨rfl, start⟩
  | append_singleton happenings h ih =>
      obtain ⟨same, before⟩ := ih
      rw [Deployment.after_concat, Deployment.after_concat, same]
      cases h with
      | report machine body => exact ⟨rfl, before⟩
      | round transport now during outcomes =>
          obtain ⟨round, after⟩ := alike.pollRound zone
            ⟨transport, now, requestsOf machines during, outcomes⟩ _
            (held_after db' zone t happenings).names before
          simp only [Deployment.happen, round]
          exact ⟨trivial, after⟩
      | restartServer => exact ⟨rfl, before⟩
      | restartClient => exact ⟨rfl, before⟩

/-- **Clean names that the collation tells apart** are taken literally over a whole run. -/
theorem after_sql {κ : Type} [DecidableEq κ] {weight : Text → κ} (other : Other)
    (clean : ∀ machine, Clean (machines machine).username) {t : HostInfo}
    (apart : Apart weight (usernames machines) t) (happenings : List (Happening ι R)) :
    (Deployment.new t).after (.sql weight other) machines zone happenings =
        (Deployment.new t).after .literal machines zone happenings ∧
      Apart weight (usernames machines)
        ((Deployment.new t).after (.sql weight other) machines zone happenings).hostInfo := by
  have names : ∀ hostName ∈ usernames machines, Clean hostName := by
    rintro _ ⟨machine, rfl⟩
    exact clean machine
  obtain ⟨same, after⟩ := (alike_sql other names).after zone apart happenings
  rw [same]
  exact ⟨rfl, after⟩

end Alike

/-! ## Where rows come from -/

section Origin

variable [Field R] [LinearOrder R]

/-- The turn is that of a report of the machine.  What it has executed stores something of the
report under the identifier of the turn, which is that of the user name: a metric row, or the
score of the report. -/
structure FromMachine (machines : ι → Client.Machine) (sent : List (ι × MonitorInfo R))
    (t : HostInfo) (machine : ι) (log : HostLog R) : Prop where
  report : ∃ body, (machine, body) ∈ sent ∧ log.info = submitted machines machine body
  row : log.executed ≠ [] → ⟨log.hostId, (machines machine).username⟩ ∈ t.rows
  built : ∀ q ∈ log.executed, ∃ time, q ∈ metricStatements log.info log.hostId time ∨
    q = .insertSummary log.hostId time (some (calculateOverallPerformanceScore log.info))

variable {machines : ι → Client.Machine} {sent : List (ι × MonitorInfo R)} {zone : ℤ → ℤ}

theorem FromMachine.mono {more : List (ι × MonitorInfo R)} {t t' : HostInfo} {machine : ι}
    {log : HostLog R} (origin : FromMachine machines sent t machine log)
    (grows : ∀ row ∈ t.rows, row ∈ t'.rows) :
    FromMachine machines (sent ++ more) t' machine log := by
  obtain ⟨body, member, same⟩ := origin.report
  exact ⟨⟨body, List.mem_append_left _ member, same⟩, fun executed => grows _ (origin.row executed),
    origin.built⟩

theorem FromMachine.name {t : HostInfo} {machine : ι} {log : HostLog R}
    (origin : FromMachine machines sent t machine log) :
    log.info.name = (machines machine).username := by
  obtain ⟨body, _, same⟩ := origin.report
  rw [same]
  rfl

theorem FromMachine.owner {t : HostInfo} {machine : ι} {log : HostLog R}
    (origin : FromMachine machines sent t machine log) {q : Statement R}
    (executed : q ∈ log.executed) : q.owner = some log.hostId := by
  obtain ⟨_, metric | rfl⟩ := origin.built q executed
  · exact owner_metricStatements metric
  · rfl

/-- The identifier of a turn is in the row of its host when the round is over. -/
theorem row_of_turn {data : List (MonitorInfo R)} {outcomes : ℕ → HostOutcomes} {s : HostState}
    (distinct : (data.map MonitorInfo.name).Nodup) (agrees : CacheAgrees s) {i : ℕ}
    {info : MonitorInfo R} (here : data[i]? = some info)
    (obtained : (hostTurn zone info (outcomes i) s).hostId ≠ []) :
    hostTurn zone info (outcomes i) s ∈
        (storeToDatabase .literal zone true data outcomes s).logs ∧
      ⟨(hostTurn zone info (outcomes i) s).hostId, info.name⟩ ∈
        (storeToDatabase .literal zone true data outcomes s).state.hostInfo.rows := by
  have member : hostTurn zone info (outcomes i) s ∈
      (storeToDatabase .literal zone true data outcomes s).logs := by
    rw [logs_storeToDatabase distinct agrees]
    exact List.mem_of_getElem? (by rw [List.getElem?_mapIdx, here]; rfl)
  have cached := cached_storeToDatabase distinct agrees member obtained
  rw [hostTurn_info] at cached
  exact ⟨member, agrees_storeToDatabase zone outcomes distinct agrees _ _ cached⟩

/-- The turns of a round are those of the reports that were fetched. -/
theorem fromMachine_of_mem_logs {data : List (MonitorInfo R)} {outcomes : ℕ → HostOutcomes}
    {s : HostState} (distinct : (data.map MonitorInfo.name).Nodup)
    (known : ∀ info ∈ data, info ∈ requestsOf machines sent) (agrees : CacheAgrees s)
    {log : HostLog R} (member : log ∈ (storeToDatabase .literal zone true data outcomes s).logs) :
    ∃ machine, FromMachine machines sent
      (storeToDatabase .literal zone true data outcomes s).state.hostInfo machine log := by
  obtain ⟨i, info, here, rfl⟩ := mem_logs_storeToDatabase distinct agrees member
  have own := hostTurn_info zone info (outcomes i) s
  obtain ⟨⟨machine, body⟩, sentBy, rfl⟩ := List.mem_map.mp (known info (List.mem_of_getElem? here))
  by_cases missing : (hostTurn zone (submitted machines machine body) (outcomes i) s).hostId = []
  · rw [hostTurn_missing missing]
    exact ⟨machine, ⟨body, sentBy, rfl⟩, fun executed => absurd rfl executed,
      fun _ executed => by cases executed⟩
  · have row := (row_of_turn distinct agrees here missing).2
    obtain ⟨metrics, scores⟩ := hostTurn_attributed (o := outcomes i) fun _ => row
    refine ⟨machine, ⟨body, sentBy, own⟩, fun _ => row, fun q executed => ?_⟩
    obtain ⟨attempt, attempted, rfl⟩ := List.mem_map.mp executed
    rcases List.mem_append.mp (List.mem_filter.mp attempted).1 with metric | summary
    · obtain ⟨_, time, built⟩ := metrics attempt metric
      exact ⟨time, Or.inl built⟩
    · obtain ⟨_, time, built⟩ := scores attempt (Option.mem_toList.mp summary)
      exact ⟨time, Or.inr built⟩

/-! ## The invariant -/

/-- The server, the cache and the tables keep to the reports that were sent. -/
structure Sourced (machines : ι → Client.Machine) (sent : List (ι × MonitorInfo R))
    (d : Deployment R) : Prop where
  held : Held machines sent d.system.server
  agrees : CacheAgrees d.system.hosts
  turns : ∀ log ∈ d.logs, ∃ machine, FromMachine machines sent d.hostInfo machine log

theorem sourced_new (t : HostInfo) : Sourced machines sent (.new t : Deployment R) :=
  ⟨held_initial, fun _ _ found => (by cases found), fun _ member => (by cases member)⟩

/-- A round adds the turns of its reports. -/
theorem Sourced.round {d : Deployment R} (sourced : Sourced machines sent d)
    (transport : Transport) (now : ℤ) (during : List (ι × MonitorInfo R))
    (outcomes : ℕ → HostOutcomes) :
    Sourced machines (sent ++ during)
      (d.happen .literal machines zone (.round transport now during outcomes)) := by
  let poll : Poll R := ⟨transport, now, requestsOf machines during, outcomes⟩
  have held := sourced.held.happen .literal zone (.round transport now during outcomes)
  by_cases delivered : transport = .delivered
  · subst delivered
    obtain ⟨distinct, known⟩ := sourced.held.response
    obtain ⟨agrees, grows⟩ := sourced.agrees.of_calls
      (storeHosts_calls (List.nil_append (getMonitorInfo d.system.server)).symm distinct)
    refine ⟨held, agrees, fun log member => ?_⟩
    rcases List.mem_append.mp member with before | turn
    · obtain ⟨machine, origin⟩ := sourced.turns log before
      exact ⟨machine, origin.mono grows⟩
    · obtain ⟨machine, origin⟩ := fromMachine_of_mem_logs distinct known sourced.agrees turn
      exact ⟨machine, origin.mono fun _ => id⟩
  · obtain ⟨nothing, hosts⟩ := pollRound_undelivered .literal zone poll d.system delivered
    have agrees := sourced.agrees
    rw [← hosts] at agrees
    refine ⟨held, agrees, fun log member => ?_⟩
    have logs : (d.happen .literal machines zone (.round transport now during outcomes)).logs =
        d.logs := (congrArg (d.logs ++ ·) nothing).trans (List.append_nil _)
    rw [logs] at member
    obtain ⟨machine, origin⟩ := sourced.turns log member
    refine ⟨machine, origin.mono ?_⟩
    rw [Deployment.hostInfo, ← hosts]
    exact fun _ => id

/-- **One step** keeps what is stored to the reports that were sent. -/
theorem Sourced.happen {d : Deployment R} (sourced : Sourced machines sent d)
    (h : Happening ι R) :
    Sourced machines (sent ++ h.sent) (d.happen .literal machines zone h) := by
  have held := sourced.held.happen .literal zone h
  have still : ∀ log ∈ d.logs, ∃ machine,
      FromMachine machines (sent ++ h.sent) d.hostInfo machine log := by
    intro log member
    obtain ⟨machine, origin⟩ := sourced.turns log member
    exact ⟨machine, origin.mono fun _ => id⟩
  cases h with
  | report machine body => exact ⟨held, sourced.agrees, still⟩
  | round transport now during outcomes => exact sourced.round transport now during outcomes
  | restartServer => exact ⟨held, sourced.agrees, still⟩
  | restartClient => exact ⟨held, fun _ _ found => (by cases found), still⟩

theorem Sourced.after {d : Deployment R} (sourced : Sourced machines sent d)
    (happenings : List (Happening ι R)) :
    Sourced machines (sent ++ happenings.flatMap Happening.sent)
      (d.after .literal machines zone happenings) := by
  induction happenings generalizing sent d with
  | nil => simpa [Deployment.after] using sourced
  | cons h happenings ih =>
      rw [List.flatMap_cons, ← List.append_assoc]
      exact ih (sourced.happen h)

/-- **Everything stored comes from a machine.**  Take any run of reports, rounds and restarts,
from any table of hosts, with calls and queries that fail at will, and a collation that tells the
user names, which are clean, apart.  Every turn is that of a report that a machine sent, and
everything stored in it is built from this report, under an identifier whose row of `host_info` has
the user name of that machine.  Turns that have stored something under identifiers of one weight
are those of reports under one user name, and the bucket of an identifier was computed from rows of
such turns. -/
theorem stored_from_machines {κ : Type} [DecidableEq κ] {weight : Text → κ} (other : Other)
    (machines : ι → Client.Machine) (clean : ∀ machine, Clean (machines machine).username)
    (zone : ℤ → ℤ) (t : HostInfo) (apart : Apart weight (usernames machines) t)
    (happenings : List (Happening ι R)) :
    let d := (Deployment.new t).after (.sql weight other) machines zone happenings
    (∀ log ∈ d.logs, ∃ machine,
      FromMachine machines (happenings.flatMap Happening.sent) d.hostInfo machine log) ∧
    (∀ q ∈ d.stored, ∃ log ∈ d.logs, q ∈ log.executed ∧ q.owner = some log.hostId) ∧
    (∀ log ∈ d.logs, ∀ log' ∈ d.logs, log.executed ≠ [] → log'.executed ≠ [] →
      weight log.hostId = weight log'.hostId → log.info.name = log'.info.name) ∧
    ∀ hostId hour rows,
      (Tables.empty.executeAll weight d.stored).summaries.lookup (weight hostId, hour) =
          some rows →
        ∀ row ∈ rows, ∃ log ∈ d.logs, row ∈ log.executed ∧ weight log.hostId = weight hostId ∧
          ⟨log.hostId, log.info.name⟩ ∈ d.hostInfo.rows := by
  intro d
  have start : Sourced machines [] (.new t : Deployment R) := sourced_new t
  obtain ⟨literal, after⟩ := after_sql zone other clean apart happenings
  have sourced : Sourced machines (happenings.flatMap Happening.sent) d := by
    simp only [d, literal]
    exact start.after happenings
  have row : ∀ log ∈ d.logs, log.executed ≠ [] →
      ⟨log.hostId, log.info.name⟩ ∈ d.hostInfo.rows := by
    intro log member executed
    obtain ⟨machine, origin⟩ := sourced.turns log member
    rw [origin.name]
    exact origin.row executed
  have traced : ∀ q ∈ d.stored, ∃ log ∈ d.logs, q ∈ log.executed ∧ q.owner = some log.hostId := by
    intro q member
    obtain ⟨log, inside, executed⟩ := List.mem_flatMap.mp member
    obtain ⟨machine, origin⟩ := sourced.turns log inside
    exact ⟨log, inside, executed, origin.owner executed⟩
  refine ⟨sourced.turns, traced, ?_, ?_⟩
  · intro log member log' member' executed executed' same
    exact congrArg HostRow.hostName
      (after.eq_of_weight (row log member executed) (row log' member' executed') same)
  · intro hostId hour rows found q member
    obtain ⟨inside, id, time, stamp, equal, _⟩ :=
      sound_empty.executeAll d.stored hostId hour rows found q member
    rcases mem_metrics_executeAll.mp inside with before | ⟨stored, _⟩
    · cases before
    · obtain ⟨log, inside, executed, owner⟩ := traced q stored
      obtain rfl : log.hostId = id :=
        Option.some.inj (owner.symm.trans (owner_of_stamp stamp))
      exact ⟨log, inside, executed, equal, row log inside (List.ne_nil_of_mem executed)⟩

end Origin

/-! ## Reports that are stored -/

/-- All identifiers were generated for the names in their rows. -/
def Generated (t : HostInfo) : Prop :=
  ∀ row ∈ t.rows, ∃ time, row.hostId = newHostId row.hostName time

theorem newHostId_ne_nil (hostName : Text) (time : ℤ) : newHostId hostName time ≠ [] := by
  rw [newHostId]
  simp

theorem Generated.of_call {s : HostState} (generated : Generated s.hostInfo) (hostName : Text)
    (o : Outcomes) : Generated (getOrCreateHostId .literal hostName o s).2.hostInfo := by
  rcases getOrCreateHostId_cases id hostName o s with
    ⟨_, _, result⟩ | ⟨_, _, _, result⟩ | ⟨t, _, _, _, inserted, result⟩ | ⟨_, _, _, result⟩ <;>
    rw [result]
  · exact generated
  · exact generated
  · intro row member
    rw [(HostInfo.rows_insert inserted).2] at member
    rcases List.mem_append.mp member with before | new
    · exact generated row before
    · rw [List.mem_singleton.mp new]
      exact ⟨o.time, rfl⟩
  · exact generated

theorem Generated.of_calls {names : List Text} {s s' : HostState} (generated : Generated s.hostInfo)
    (calls : Calls names s s') : Generated s'.hostInfo := by
  induction calls with
  | refl => exact generated
  | tail _ look ih =>
      obtain ⟨hostName, _, o, rfl⟩ := look
      exact ih.of_call hostName o

/-- The queries of a lookup succeed. -/
structure Outcomes.Working (o : Outcomes) : Prop where
  select : o.selectOk = true
  store : o.storeOk = true
  insert : o.insertOk = true

/-- **A lookup that works gives an identifier**: the identifier that it generates is new,
since another row with it would have the same name, and would have been found. -/
theorem Generated.getOrCreateHostId_ne_nil {s : HostState} (generated : Generated s.hostInfo)
    (agrees : CacheAgrees s) (hostName : Text) {o : Outcomes} (working : o.Working) :
    (getOrCreateHostId .literal hostName o s).1 ≠ [] := by
  have nonempty : ∀ hostId name, ⟨hostId, name⟩ ∈ s.hostInfo.rows → hostId ≠ [] := by
    intro hostId name row
    obtain ⟨time, same⟩ := generated _ row
    rw [show hostId = newHostId name time from same]
    exact newHostId_ne_nil name time
  rcases getOrCreateHostId_cases id hostName o s with
    ⟨hostId, cached, result⟩ | ⟨hostId, _, found, result⟩ | ⟨t, _, _, _, _, result⟩ |
    ⟨_, missed, refused, result⟩ <;> rw [result]
  · exact nonempty hostId hostName (agrees hostName hostId cached)
  · exact nonempty hostId hostName (mem_of_foundId found)
  · exact newHostId_ne_nil hostName o.time
  · exfalso
    rw [foundId, working.select, working.store, Bool.and_self, if_pos rfl] at missed
    obtain ⟨row, member, same⟩ := HostInfo.taken_of_insert (refused working.insert)
    obtain ⟨time, own⟩ := generated row member
    have name : row.hostName = hostName := newHostId_name (own.symm.trans same)
    exact HostInfo.not_named_of_selectHostId missed ⟨row, member, name⟩

section Stored

variable [Field R] [LinearOrder R] {machines : ι → Client.Machine} {sent : List (ι × MonitorInfo R)}
  {zone : ℤ → ℤ}

theorem Generated.happen {d : Deployment R} (generated : Generated d.hostInfo)
    (sourced : Sourced machines sent d) (h : Happening ι R) :
    Generated (d.happen .literal machines zone h).hostInfo := by
  cases h with
  | round transport now during outcomes =>
      let poll : Poll R := ⟨transport, now, requestsOf machines during, outcomes⟩
      by_cases delivered : transport = .delivered
      · subst delivered
        exact generated.of_calls (storeHosts_calls
          (List.nil_append (getMonitorInfo d.system.server)).symm sourced.held.response.1)
      · have hosts := (pollRound_undelivered .literal zone poll d.system delivered).2
        have same : (d.happen .literal machines zone
            (.round transport now during outcomes)).hostInfo = d.hostInfo :=
          congrArg HostState.hostInfo hosts
        rw [same]
        exact generated
  | report machine body => exact generated
  | restartServer => exact generated
  | restartClient => exact generated

/-- What holds after a run from an empty table of hosts. -/
theorem sourced_generated_after (machines : ι → Client.Machine) (zone : ℤ → ℤ)
    (happenings : List (Happening ι R)) :
    let d := (Deployment.new .empty).after .literal machines zone happenings
    Sourced machines (happenings.flatMap Happening.sent) d ∧ Generated d.hostInfo := by
  induction happenings using List.reverseRecOn with
  | nil => exact ⟨sourced_new .empty, fun _ member => by cases member⟩
  | append_singleton happenings h ih =>
      obtain ⟨sourced, generated⟩ := ih
      rw [Deployment.after_append, List.flatMap_append, List.flatMap_singleton]
      exact ⟨sourced.happen h, generated.happen sourced h⟩

omit [Field R] [LinearOrder R] in
/-- A report stays with the server while it is not replaced. -/
theorem lookup_receive {server : RpcServerImpl R} {name : Text} {info : MonitorInfo R}
    (holds : server.monitorInfosMap.lookup name = some info) {requests : List (MonitorInfo R)}
    (others : ∀ request ∈ requests, request.name ≠ name) :
    (receive server requests).monitorInfosMap.lookup name = some info := by
  induction requests generalizing server with
  | nil => exact holds
  | cons request requests ih =>
      have first : name ≠ request.name := (others request List.mem_cons_self).symm
      refine ih ?_ fun later member => others later (List.mem_cons_of_mem _ member)
      exact (AList.lookup_insert_ne first).trans holds

/-- The server is not started anew, and nobody reports under the user name. -/
def Quiet (machines : ι → Client.Machine) (username : Text) (h : Happening ι R) : Prop :=
  (match h with
    | .restartServer => False
    | _ => True) ∧ ∀ report ∈ h.sent, (machines report.1).username ≠ username

theorem lookup_quiet (db : Database) {d : Deployment R} {username : Text} {info : MonitorInfo R}
    (holds : d.held.lookup username = some info)
    {happenings : List (Happening ι R)} (quiet : ∀ h ∈ happenings, Quiet machines username h) :
    (d.after db machines zone happenings).held.lookup username = some info := by
  induction happenings generalizing d with
  | nil => exact holds
  | cons h happenings ih =>
      refine ih ?_ fun later member => quiet later (List.mem_cons_of_mem _ member)
      obtain ⟨kept, others⟩ := quiet h List.mem_cons_self
      have requests : ∀ request ∈ requestsOf machines h.sent, request.name ≠ username := by
        intro request member
        obtain ⟨report, inside, rfl⟩ := List.mem_map.mp member
        exact others report inside
      cases h with
      | report machine body => exact lookup_receive holds requests
      | round transport now during outcomes =>
          have server := server_step db zone d.system
            (.round ⟨transport, now, requestsOf machines during, outcomes⟩)
          have after := lookup_receive holds requests
          have held : (d.happen db machines zone
              (.round transport now during outcomes)).held =
                (receive d.system.server (requestsOf machines during)).monitorInfosMap :=
            congrArg RpcServerImpl.monitorInfosMap server
          rw [held]
          exact after
      | restartServer => exact kept.elim
      | restartClient => exact holds

theorem lookup_reported (db : Database) (zone : ℤ → ℤ) (d : Deployment R) {machine : ι}
    (body : MonitorInfo R) {later : List (Happening ι R)}
    (quiet : ∀ h ∈ later, Quiet machines (machines machine).username h) :
    (d.after db machines zone (.report machine body :: later)).held.lookup
      (machines machine).username = some (submitted machines machine body) := by
  have reported : (d.happen db machines zone (.report machine body)).held.lookup
      (machines machine).username = some (submitted machines machine body) :=
    AList.lookup_insert _
  exact lookup_quiet db reported quiet

/-- All queries of a turn succeed, those of the lookup, too. -/
structure HostOutcomes.Working (o : HostOutcomes) : Prop where
  lookup : o.own.lookup.Working
  allOk : o.AllOk

/-- A round whose call is delivered has a turn for a report that the server holds.  When the
lookup of the turn works it gets an identifier, and what the turn executes is stored. -/
theorem turn_of_held (zone : ℤ → ℤ) {d : Deployment R} (sourced : Sourced machines sent d)
    (generated : Generated d.hostInfo) {info : MonitorInfo R}
    (holds : d.held.lookup info.name = some info) (now : ℤ) (during : List (ι × MonitorInfo R))
    {outcomes : ℕ → HostOutcomes}
    (working : ∀ i : ℕ, (getMonitorInfo d.system.server)[i]? = some info →
      (outcomes i).own.lookup.Working) :
    let d' := d.happen .literal machines zone (.round .delivered now during outcomes)
    ∃ i, (getMonitorInfo d.system.server)[i]? = some info ∧
      let turn := hostTurn zone info (outcomes i) d.system.hosts
      turn.hostId ≠ [] ∧ ⟨turn.hostId, info.name⟩ ∈ d'.hostInfo.rows ∧
        turn.executed ⊆ d'.stored := by
  intro d'
  obtain ⟨i, here⟩ := List.mem_iff_getElem?.mp (mem_values_of_lookup holds)
  have obtained : (hostTurn zone info (outcomes i) d.system.hosts).hostId ≠ [] := by
    rw [hostTurn_hostId]
    exact generated.getOrCreateHostId_ne_nil sourced.agrees info.name (working i here)
  obtain ⟨turn, row⟩ := row_of_turn sourced.held.response.1 sourced.agrees here obtained
  refine ⟨i, here, obtained, row, fun q member => ?_⟩
  rw [Deployment.stored_round]
  exact List.mem_append_right _ (List.mem_flatMap.mpr ⟨_, turn, member⟩)

/-- **A report that is not replaced is stored.**  Take any run from an empty table of hosts, a
report of a machine, and a further run in which nobody reports under the user name of the
machine and the server is not started anew.  A round that follows, whose call is delivered
and whose queries succeed, stores every row of the report, and on the hour its score, under
an identifier of the user name, whatever failed before and whenever the client was started
anew.  The user names are clean, and the collation tells them apart. -/
theorem report_stored {κ : Type} [DecidableEq κ] {weight : Text → κ} (other : Other)
    (machines : ι → Client.Machine) (clean : ∀ machine, Clean (machines machine).username)
    (apart : Apart weight (usernames machines) .empty) (zone : ℤ → ℤ)
    (before later : List (Happening ι R)) (machine : ι) (body : MonitorInfo R)
    (quiet : ∀ h ∈ later, Quiet machines (machines machine).username h) (now : ℤ)
    (during : List (ι × MonitorInfo R)) (outcomes : ℕ → HostOutcomes)
    (working : ∀ i, (outcomes i).Working) :
    let info := submitted machines machine body
    let d := (Deployment.new .empty).after (.sql weight other) machines zone
      ((before ++ .report machine body :: later) ++ [.round .delivered now during outcomes])
    ∃ hostId i, ⟨hostId, (machines machine).username⟩ ∈ d.hostInfo.rows ∧
      ∀ q ∈ rowStatements zone info hostId (outcomes i).own ++
        summaryStatements zone info hostId (outcomes i), q ∈ d.stored := by
  intro info d
  obtain ⟨sourced, generated⟩ :=
    sourced_generated_after machines zone (before ++ .report machine body :: later)
  have holds := lookup_reported .literal zone
    ((Deployment.new .empty).after .literal machines zone before) body quiet
  rw [← Deployment.after_append, ← show info.name = (machines machine).username from rfl] at holds
  have last := Deployment.after_concat .literal machines zone (.new .empty)
    (before ++ .report machine body :: later) (.round .delivered now during outcomes)
  simp only [d, (after_sql zone other clean apart _).1, last]
  obtain ⟨i, _, obtained, row, executed⟩ := turn_of_held zone sourced generated holds now during
    fun i _ => (working i).lookup
  refine ⟨_, i, row, fun q member => ?_⟩
  rw [← executed_hostTurn obtained (working i).allOk] at member
  exact executed member

end Stored

/-- Nothing succeeds. -/
def refused (now : ℤ) : HostOutcomes :=
  let lookup : Outcomes := ⟨false, false, false, now⟩
  let inserts : InsertOutcomes := ⟨now, fun _ => false⟩
  ⟨⟨lookup, inserts, inserts, inserts, inserts, inserts⟩, now, ⟨now, fun _ => lookup, false⟩⟩

/-- What follows a report: a round in which every query fails, and a restart of the client. -/
def failingLater : List (Happening Unit ℚ) :=
  [.round .delivered 7140 [] fun _ => refused 7140, .restartClient]

theorem clean_rootMachine (_ : Unit) : Clean rootMachine.username := by decide

/-- One user name is told apart. -/
theorem apart_rootMachine :
    Apart ignoreCase (usernames fun _ : Unit => rootMachine) .empty := by
  apply apart_ignoreCase
  rintro _ ⟨_, rfl⟩ _ ⟨_, rfl⟩ _
  rfl

/-- What the round of the next full hour stores is under an identifier of `root`. -/
theorem stored_from_machines_root :
    let d := (Deployment.new .empty).after (.sql ignoreCase silent) (fun _ => rootMachine) id
      ([.report () idleReport, .round .delivered 7200 [] fun _ => punctual 7200] :
        List (Happening Unit ℚ))
    ∀ log ∈ d.logs, log.executed ≠ [] →
      ⟨log.hostId, rootMachine.username⟩ ∈ d.hostInfo.rows := by
  intro d log member
  obtain ⟨machine, origin⟩ := (stored_from_machines silent (fun _ => rootMachine)
    clean_rootMachine id .empty apart_rootMachine
    [.report () idleReport, .round .delivered 7200 [] fun _ => punctual 7200]).1 log member
  exact origin.row

/-- The round of the next full hour stores the CPU row of the report. -/
theorem report_stored_failing :
    let d := (Deployment.new .empty).after (.sql ignoreCase silent) (fun _ => rootMachine) id
      (([] ++ .report () idleReport :: failingLater) ++
        [.round .delivered 7200 [] fun _ => punctual 7200])
    ∃ hostId, ⟨hostId, rootMachine.username⟩ ∈ d.hostInfo.rows ∧
      ∃ q ∈ d.stored, q.isCpu = true ∧ q.owner = some hostId := by
  have quiet : ∀ h ∈ failingLater, Quiet (fun _ => rootMachine) rootMachine.username h := by
    intro h member
    rcases List.mem_cons.mp member with rfl | member
    · exact ⟨trivial, fun _ inside => by cases inside⟩
    · rw [List.mem_singleton.mp member]
      exact ⟨trivial, fun _ inside => by cases inside⟩
  obtain ⟨hostId, i, row, stored⟩ := report_stored silent (fun _ => rootMachine)
    clean_rootMachine apart_rootMachine id [] failingLater () idleReport quiet 7200 []
    (fun _ => punctual 7200)
    fun _ => ⟨⟨rfl, rfl, rfl⟩, ⟨fun _ => rfl, fun _ => rfl, fun _ => rfl, fun _ => rfl,
      fun _ => rfl, rfl⟩⟩
  have cpus : (submitted (fun _ : Unit => rootMachine) () idleReport).cpuStat ≠ [] :=
    List.cons_ne_nil _ _
  obtain ⟨q, member, isCpu, stamp⟩ := exists_cpuStatement id hostId (punctual 7200).own cpus
  exact ⟨hostId, row, q, stored q (List.mem_append_left _ member), isCpu, owner_of_stamp stamp⟩

end LinuxMonitor.PerformanceServer
