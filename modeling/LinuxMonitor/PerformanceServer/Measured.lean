import LinuxMonitor.Client.Collector
import LinuxMonitor.Monitor.NetLifetime
import LinuxMonitor.PerformanceServer.Provenance

/-!
# From the devices to the tables

Here the machines do not report at will: on each a client goes its rounds, and what a report
holds was read from the devices and the files of the machine in that round and the rounds
before.  A client that its memory monitor has ended stays away until it is started anew.  A
report may be lost on its way.  The server computes with numbers here: what stands for an infinity
or a NaN in a report, which the percentage of the used memory may be, is a parameter.

* `mem_reports`: a report that arrives is that of one round of the client.
* `Sourced.measured`: what is stored of a report compares the readings of that round with the
  last ones before.
* `stored_measured`: **everything stored was measured on the machine whose user name it is
  stored under, by one process of its client.**
* `stored_cpu_shares`: **the shares of a CPU in the table are those of one partition of the
  time between two of its samples.**
-/

set_option autoImplicit false

namespace LinuxMonitor.PerformanceServer

open Library Proto Rpc

/-! ## Clients -/

/-- What the client of a machine does. -/
inductive ClientAct (ι : Type) where
  /-- The client is started; its constructors meet the outcomes. -/
  | start (machine : ι) (o : Monitor.NetMonitor.Outcomes)
  /-- It goes a round; its report may be lost on the way. -/
  | round (machine : ι) (readings : Client.Readings) (delivered : Bool)

/-- What happens. -/
inductive Act (ι : Type) where
  | client (act : ClientAct ι)
  | poll (transport : Transport) (now : ℤ) (during : List (ClientAct ι))
      (outcomes : ℕ → HostOutcomes)
  | restartServer
  | restartClient

/-- What the clients of the machines do in it. -/
def Act.clients {ι : Type} : Act ι → List (ClientAct ι)
  | .client act => [act]
  | .poll _ _ during _ => during
  | .restartServer => []
  | .restartClient => []

section Clients

variable {ι : Type} [DecidableEq ι] (float : UInt64 → ℚ) (other : FloatValue → ℚ)
  (machines : ι → Client.Machine)

/-- The monitors of the clients that run. -/
abbrev Clients (ι : Type) := ι → Option Client.Members

/-- The report that arrives when a client acts, and the clients afterwards. -/
def clientStep (act : ClientAct ι) (clients : Clients ι) :
    List (ι × MonitorInfo ℚ) × Clients ι :=
  match act with
  | .start machine o =>
      let members := if (Monitor.NetMonitor.construct o).threw then none else some .initial
      ([], Function.update clients machine members)
  | .round machine readings delivered =>
      match clients machine with
      | none => ([], clients)
      | some members =>
          match Client.round float Client.runners (machines machine).username readings members with
          | .error _ => ([], Function.update clients machine none)
          | .ok (info, members) =>
              (if delivered then [(machine, info.map (FloatValue.number other))] else [],
                Function.update clients machine (some members))

/-- The clients after what they have done, and the reports that have arrived. -/
def clientsAfter (acts : List (ClientAct ι)) : List (List (ι × MonitorInfo ℚ)) × Clients ι :=
  outputs (clientStep float other machines) acts fun _ => none

def actStep (act : Act ι) (clients : Clients ι) : List (Happening ι ℚ) × Clients ι :=
  match act with
  | .client act =>
      let (reports, clients) := clientStep float other machines act clients
      (reports.map fun report => .report report.1 report.2, clients)
  | .poll transport now during outcomes =>
      let (reports, clients) := outputs (clientStep float other machines) during clients
      ([.round transport now reports.flatten outcomes], clients)
  | .restartServer => ([.restartServer], clients)
  | .restartClient => ([.restartClient], clients)

/-- What a run is for the server, the client of the server and the database. -/
def happenings (acts : List (Act ι)) : List (Happening ι ℚ) :=
  (outputs (actStep float other machines) acts fun _ => none).1.flatten

/-- The deployment after a run. -/
def afterActs (db : Database) (zone : ℤ → ℤ) (t : HostInfo) (acts : List (Act ι)) : Deployment ℚ :=
  (Deployment.new t).after db machines zone (happenings float other machines acts)

/-- What the process on a machine has met, after one more act. -/
def noted (machine : ι) (readings : List Client.Readings) : ClientAct ι → List Client.Readings
  | .start other _ => if other = machine then [] else readings
  | .round other r _ => if other = machine then readings ++ [r] else readings

/-- What the process that now runs on a machine has met. -/
def history (machine : ι) (acts : List (ClientAct ι)) : List Client.Readings :=
  acts.foldl (noted machine) []

/-! ## Reports -/

/-- What a round of a client that runs comes to. -/
theorem clientStep_round {clients : Clients ι} {machine : ι} {members : Client.Members}
    (running : clients machine = some members) (readings : Client.Readings) (delivered : Bool) :
    clientStep float other machines (.round machine readings delivered) clients =
      match Client.memory readings with
      | .error _ => ([], Function.update clients machine none)
      | .ok memInfo =>
          (if delivered then [(machine,
              (members.report float (machines machine).username memInfo readings).map
                (FloatValue.number other))] else [],
            Function.update clients machine (some (members.next float readings))) := by
  simp only [clientStep, running, Client.round_eq]
  cases Client.memory readings <;> rfl

/-- One act keeps the monitors of a client to what its process has met. -/
theorem members_step {act : ClientAct ι} {clients : Clients ι} {machine : ι}
    {readings : List Client.Readings}
    (before : ∀ members, clients machine = some members →
      members = Client.Members.after float readings) {members : Client.Members}
    (running : (clientStep float other machines act clients).2 machine = some members) :
    members = Client.Members.after float (noted machine readings act) := by
  cases act with
  | start m o =>
      rw [noted]
      by_cases same : m = machine
      · subst same
        rw [if_pos rfl]
        simp only [clientStep, Function.update_self] at running
        split at running
        · cases running
        · exact (Option.some.inj running).symm
      · rw [if_neg same]
        simp only [clientStep, Function.update_of_ne (Ne.symm same)] at running
        exact before members running
  | round m r delivered =>
      rw [noted]
      cases own : clients m with
      | none =>
          simp only [clientStep, own] at running
          by_cases same : m = machine
          · subst same
            rw [own] at running
            cases running
          · rw [if_neg same]
            exact before members running
      | some earlier =>
          rw [clientStep_round float other machines own] at running
          by_cases same : m = machine
          · subst same
            rw [if_pos rfl, Client.Members.after, List.foldl_concat, ← Client.Members.after,
              ← before earlier own]
            cases mem : Client.memory r with
            | error fault =>
                simp only [mem, Function.update_self] at running
                cases running
            | ok memInfo =>
                simp only [mem, Function.update_self] at running
                exact (Option.some.inj running).symm
          · rw [if_neg same]
            cases mem : Client.memory r <;>
              simp only [mem, Function.update_of_ne (Ne.symm same)] at running <;>
              exact before members running

/-- **The monitors of a client** are as they are after all rounds of its process. -/
theorem members_after {acts : List (ClientAct ι)} {machine : ι} {members : Client.Members}
    (running : (clientsAfter float other machines acts).2 machine = some members) :
    members = Client.Members.after float (history machine acts) := by
  induction acts using List.reverseRecOn generalizing members with
  | nil => cases running
  | append_singleton acts act ih =>
      rw [clientsAfter, outputs_concat] at running
      rw [history, List.foldl_concat]
      exact members_step float other machines (fun _ => ih) running

/-- **A report that arrives** is that of one round of the client, with what its process has
met before. -/
theorem mem_reports {acts : List (ClientAct ι)} {machine : ι} {info : MonitorInfo ℚ}
    (member : (machine, info) ∈ (clientsAfter float other machines acts).1.flatten) :
    ∃ before latest after memInfo, acts = before ++ .round machine latest true :: after ∧
      Client.memory latest = .ok memInfo ∧
      info = ((Client.Members.after float (history machine before)).report float
        (machines machine).username memInfo latest).map (FloatValue.number other) := by
  obtain ⟨reports, inside, arrived⟩ := List.mem_flatten.mp member
  obtain ⟨before, act, after, rfl, rfl⟩ := exists_of_mem_outputs inside
  change (machine, info) ∈
    (clientStep float other machines act (clientsAfter float other machines before).2).1 at arrived
  cases act with
  | start m o => cases arrived
  | round m latest delivered =>
      cases own : (clientsAfter float other machines before).2 m with
      | none =>
          simp only [clientStep, own] at arrived
          cases arrived
      | some members =>
          rw [clientStep_round float other machines own] at arrived
          cases mem : Client.memory latest with
          | error fault =>
              simp only [mem] at arrived
              cases arrived
          | ok memInfo =>
              simp only [mem] at arrived
              cases delivered with
              | false => cases arrived
              | true =>
                  obtain ⟨rfl, rfl⟩ := Prod.mk.inj (List.mem_singleton.mp arrived)
                  exact ⟨before, latest, after, memInfo, rfl, mem,
                    by rw [members_after float other machines own]⟩

/-- The reports that are sent in a run are those that arrive from the clients. -/
theorem sent_happenings (acts : List (Act ι)) :
    (happenings float other machines acts).flatMap Happening.sent =
      (clientsAfter float other machines (acts.flatMap Act.clients)).1.flatten := by
  have each : ∀ clients, ((outputs (actStep float other machines) acts clients).1.flatten).flatMap
      Happening.sent =
        (outputs (clientStep float other machines) (acts.flatMap Act.clients)
          clients).1.flatten := by
    intro clients
    induction acts generalizing clients with
    | nil => rfl
    | cons act acts ih =>
        rw [outputs_cons, List.flatten_cons, List.flatMap_append, ih, List.flatMap_cons,
          outputs_append, List.flatten_append]
        cases act with
        | client act =>
            rw [Act.clients, outputs_cons, List.flatten_cons]
            congr 1
            simp only [actStep, List.flatMap_map, Happening.sent, outputs, List.flatten_nil,
              List.append_nil]
            exact List.flatMap_singleton' _
        | poll transport now during outcomes =>
            congr 1
            simp only [actStep, List.flatMap_singleton, Happening.sent, Act.clients]
        | restartServer => rfl
        | restartClient => rfl
  exact each _

end Clients

/-! ## Measurements -/

section Measured

variable (float : UInt64 → ℚ) (other : FloatValue → ℚ) (username : Text)
  (earlier : List Client.Readings) (latest : Client.Readings)

/-- The samples of the CPUs, the disks and the interfaces in some rounds. -/
def cpusMet (readings : List Client.Readings) : List (Text × Monitor.CpuStatMonitor.CpuStat) :=
  readings.flatMap fun r => Monitor.CpuStatMonitor.callSamples r.cpuStat

def disksMet (readings : List Client.Readings) : List (Text × Monitor.DiskMonitor.Sample) :=
  readings.flatMap fun r => r.disk.samples

def interfacesMet (readings : List Client.Readings) : List (Text × Monitor.NetMonitor.NetInfo) :=
  readings.flatMap fun r => r.net.samples

/-- The statement stores what the latest round has measured: rates and shares between a sample
of this round and the last one before it, and else what was read in this round. -/
def Measured : Statement ℚ → Prop
  | .insertCpu _ _ cpuStat cpuLoad =>
      (∃ cpuName last stat, Follows (cpusMet earlier) (cpusMet [latest]) cpuName last stat ∧
        cpuStat = Monitor.CpuStatMonitor.entry float last stat) ∧
      cpuLoad = (latest.cpuLoad.map Client.loadMessage).getD .unset
  | .insertSoftIrq _ _ softIrq =>
      ∃ stat ∈ Monitor.CpuSoftIrqMonitor.visited latest.softIrq,
        softIrq = Monitor.CpuSoftIrqMonitor.message stat
  | .insertMemory _ _ memInfo =>
      ∃ memDetail, Client.memory latest = .ok memDetail ∧
        memInfo = memDetail.map (FloatValue.number other)
  | .insertDisk _ _ diskInfo =>
      ∃ name last current,
        Follows (disksMet earlier) (disksMet [latest]) name last current ∧
        diskInfo = Monitor.DiskMonitor.report last current
  | .insertNetwork _ _ netInfo =>
      ∃ ifname last current,
        Follows (interfacesMet earlier) (interfacesMet [latest]) ifname last current ∧
        netInfo = Monitor.NetMonitor.message last current
  | .insertSummary _ _ score =>
      ∃ memInfo, Client.memory latest = .ok memInfo ∧ score = some (calculateOverallPerformanceScore
        (((Client.Members.after float earlier).report float username memInfo latest).map
          (FloatValue.number other)))
  | .selectHost _ => False
  | .insertHost _ _ => False

theorem cpuStatMap_run (devices : List (Option Monitor.CpuStatMonitor.Device))
    (cpuStatMap : Monitor.CpuStatMonitor.CpuStatMap) :
    (Monitor.CpuStatMonitor.run float devices cpuStatMap).2 =
      (sweep (Monitor.CpuStatMonitor.entry float)
        (devices.flatMap Monitor.CpuStatMonitor.callSamples) cpuStatMap).2 := by
  induction devices generalizing cpuStatMap with
  | nil => rfl
  | cons device devices ih =>
      rw [List.flatMap_cons, sweep_append, Monitor.CpuStatMonitor.run,
        Monitor.CpuStatMonitor.updateOnce_eq]
      exact ih _

variable {float other username earlier latest}

/-- What is reported as a number arrives as this number. -/
theorem map_finite_cpuStat (stats : List (CpuStat ℚ)) :
    (stats.map (CpuStat.map .finite)).map (CpuStat.map (FloatValue.number other)) = stats :=
  List.map_map.trans (List.map_id stats)

theorem map_finite_diskInfo (infos : List (DiskInfo ℚ)) :
    (infos.map (DiskInfo.map .finite)).map (DiskInfo.map (FloatValue.number other)) = infos :=
  List.map_map.trans (List.map_id infos)

theorem map_finite_netInfo (infos : List (NetInfo ℚ)) :
    (infos.map (NetInfo.map .finite)).map (NetInfo.map (FloatValue.number other)) = infos :=
  List.map_map.trans (List.map_id infos)

/-- The CPUs of a report. -/
theorem follows_cpuStat {memInfo : MemInfo FloatValue} {x : CpuStat ℚ}
    (member : x ∈ (((Client.Members.after float earlier).report float username memInfo
      latest).map (FloatValue.number other)).cpuStat) : ∃ cpuName last stat,
        Follows (cpusMet earlier) (cpusMet [latest]) cpuName last stat ∧
          x = Monitor.CpuStatMonitor.entry float last stat := by
  rw [Client.Members.after_eq] at member
  simp only [Client.Members.report, MonitorInfo.map, map_finite_cpuStat,
    Monitor.CpuStatMonitor.updateOnce_eq, cpuStatMap_run, List.flatMap_map] at member
  obtain ⟨output, inside, rfl⟩ := List.mem_map.mp member
  obtain ⟨cpuName, last, stat, follows, rfl⟩ := follows_of_mem_sweep inside
  exact ⟨cpuName, last, stat, by rwa [cpusMet, cpusMet, List.flatMap_singleton], rfl⟩

/-- The disks of a report. -/
theorem follows_diskInfo {memInfo : MemInfo FloatValue} {x : DiskInfo ℚ}
    (member : x ∈ (((Client.Members.after float earlier).report float username memInfo
      latest).map (FloatValue.number other)).diskInfo) : ∃ name last current,
        Follows (disksMet earlier) (disksMet [latest]) name last current ∧
          x = Monitor.DiskMonitor.report last current := by
  have holds := (@Monitor.DiskMonitor.State.Holds.run (earlier.map Client.Readings.disk) _ _
    Monitor.DiskMonitor.State.holds_initial).2
  rw [Client.Members.after_eq] at member
  have swept := (holds.updateLines latest.disk.now (lines latest.disk.diskstats)).1
  simp only [Client.Members.report, MonitorInfo.map, map_finite_diskInfo,
    Monitor.DiskMonitor.updateOnce, swept, List.flatMap_map] at member
  obtain ⟨output, inside, rfl⟩ := List.mem_map.mp member
  obtain ⟨name, last, current, follows, rfl⟩ := follows_of_mem_sweep inside
  exact ⟨name, last, current, by rwa [disksMet, disksMet, List.flatMap_singleton], rfl⟩

/-- The interfaces of a report. -/
theorem follows_netInfo {memInfo : MemInfo FloatValue} {x : NetInfo ℚ}
    (member : x ∈ (((Client.Members.after float earlier).report float username memInfo
      latest).map (FloatValue.number other)).netInfo) : ∃ ifname last current,
        Follows (interfacesMet earlier) (interfacesMet [latest]) ifname last current ∧
          x = Monitor.NetMonitor.message last current := by
  rw [Client.Members.after_eq] at member
  simp only [Client.Members.report, MonitorInfo.map, map_finite_netInfo,
    (Monitor.NetMonitor.updateOnce_eq _ _).1, (Monitor.NetMonitor.run_eq _ _).2,
    List.flatMap_map] at member
  obtain ⟨output, inside, rfl⟩ := List.mem_map.mp member
  obtain ⟨ifname, last, current, follows, rfl⟩ := follows_of_mem_sweep inside
  exact ⟨ifname, last, current, by rwa [interfacesMet, interfacesMet, List.flatMap_singleton], rfl⟩

/-- **What is stored of a report** was measured in its round. -/
theorem measured_of_report {memInfo : MemInfo FloatValue}
    (mem : Client.memory latest = .ok memInfo) {hostId : Text} {time : ℤ} {q : Statement ℚ}
    (built : q ∈ metricStatements (((Client.Members.after float earlier).report float username
        memInfo latest).map (FloatValue.number other)) hostId time ∨
      q = .insertSummary hostId time (some (calculateOverallPerformanceScore
        (((Client.Members.after float earlier).report float username memInfo latest).map
          (FloatValue.number other))))) :
    Measured float other username earlier latest q := by
  rcases built with metric | rfl
  · simp only [metricStatements, cpuStatements, softIrqStatements, memoryStatements,
      diskStatements, networkStatements, List.mem_append, List.mem_map, List.mem_singleton]
      at metric
    rcases metric with ⟨x, member, rfl⟩ | ⟨x, member, rfl⟩ | rfl | ⟨x, member, rfl⟩ |
      ⟨x, member, rfl⟩
    · refine ⟨follows_cpuStat member, ?_⟩
      cases load : latest.cpuLoad <;>
        simp [MonitorInfo.cpuLoadOrUnset, MonitorInfo.map, Client.Members.report, load,
          CpuLoad.map]
    · obtain ⟨stat, inside, rfl⟩ := List.mem_map.mp member
      exact ⟨stat, inside, rfl⟩
    · exact ⟨memInfo, mem, rfl⟩
    · exact follows_diskInfo member
    · exact follows_netInfo member
  · exact ⟨memInfo, mem, rfl⟩

end Measured

/-! ## Runs -/

section Runs

variable {ι : Type} [DecidableEq ι] (float : UInt64 → ℚ) (other : FloatValue → ℚ)
  (machines : ι → Client.Machine) {κ : Type} [DecidableEq κ] {weight : Text → κ} (answers : Other)

/-- What is stored was built from the report of a round of a client, which arrived. -/
theorem report_of_stored (clean : ∀ machine, Clean (machines machine).username) (zone : ℤ → ℤ)
    {t : HostInfo} (apart : Apart weight (usernames machines) t) (acts : List (Act ι))
    {q : Statement ℚ}
    (stored : q ∈ (afterActs float other machines (.sql weight answers) zone t acts).stored) :
    ∃ machine hostId time before latest after memInfo,
      acts.flatMap Act.clients = before ++ .round machine latest true :: after ∧
        Client.memory latest = .ok memInfo ∧ q.owner = some hostId ∧
        ⟨hostId, (machines machine).username⟩ ∈
          (afterActs float other machines (.sql weight answers) zone t acts).hostInfo.rows ∧
        let report := ((Client.Members.after float (history machine before)).report float
          (machines machine).username memInfo latest).map (FloatValue.number other)
        q ∈ metricStatements report hostId time ∨
          q = .insertSummary hostId time (some (calculateOverallPerformanceScore report)) := by
  have start : Sourced machines [] (.new t : Deployment ℚ) := sourced_new t
  have same : afterActs float other machines (.sql weight answers) zone t acts =
      afterActs float other machines .literal zone t acts :=
    (after_sql zone answers clean apart _).1
  rw [same] at stored ⊢
  have sourced : Sourced machines _ (afterActs float other machines .literal zone t acts) :=
    start.after (happenings float other machines acts)
  obtain ⟨log, inside, executed⟩ := List.mem_flatMap.mp stored
  obtain ⟨machine, origin⟩ := sourced.turns log inside
  obtain ⟨body, sent, info⟩ := origin.report
  obtain ⟨time, built⟩ := origin.built q executed
  rw [List.nil_append, sent_happenings] at sent
  obtain ⟨before, latest, after, memInfo, split, mem, rfl⟩ := mem_reports float other machines sent
  rw [info] at built
  exact ⟨machine, log.hostId, time, before, latest, after, memInfo, split, mem,
    origin.owner executed, origin.row (List.ne_nil_of_mem executed), built⟩

/-- **Everything stored was measured.**  Take any run in which clients are started, go their
rounds and are ended by exceptions, reports are lost, the client of the server makes its
rounds, and it or the server are started anew, from any table of hosts, and a collation that tells
the user names, which are clean, apart.  Every row and every score that was stored comes from one
round of a client, whose report arrived.  It is stored under an identifier whose row of
`host_info` has the user name of the machine.  Its rates and shares are those between a sample of
this round and the last sample of the same CPU, disk or interface that the same process met
before. -/
theorem stored_measured (clean : ∀ machine, Clean (machines machine).username) (zone : ℤ → ℤ)
    (t : HostInfo) (apart : Apart weight (usernames machines) t) (acts : List (Act ι)) :
    let d := afterActs float other machines (.sql weight answers) zone t acts
    ∀ q ∈ d.stored, ∃ machine hostId before latest after,
      acts.flatMap Act.clients = before ++ .round machine latest true :: after ∧
        q.owner = some hostId ∧ ⟨hostId, (machines machine).username⟩ ∈ d.hostInfo.rows ∧
          Measured float other (machines machine).username (history machine before) latest q := by
  intro d q stored
  obtain ⟨machine, hostId, time, before, latest, after, memInfo, split, mem, owner, row, built⟩ :=
    report_of_stored float other machines answers clean zone apart acts stored
  exact ⟨machine, hostId, before, latest, after, split, owner, row, measured_of_report mem built⟩

/-- The samples of a CPU that the process on a machine has met. -/
def samplesMet (machine : ι) (acts : List (ClientAct ι)) (cpuName : Text) :
    List Monitor.CpuStatMonitor.CpuStat :=
  ofKey cpuName (cpusMet (history machine acts))

/-- While a process runs no counter of a CPU decreases, and the times of a sample stay below
`2 ^ 64` in all. -/
def CountersKept (acts : List (ClientAct ι)) : Prop :=
  ∀ machine k cpuName,
    (samplesMet machine (acts.take k) cpuName).IsChain Monitor.CpuStatMonitor.Counting ∧
      ∀ s ∈ samplesMet machine (acts.take k) cpuName, s.counted < 2 ^ 64

/-- Two samples of which one follows the other are neighbours among the samples met. -/
theorem infix_of_follows {machine : ι} {before : List (ClientAct ι)} {latest : Client.Readings}
    {cpuName : Text} {old new : Monitor.CpuStatMonitor.CpuStat}
    (follows : Follows (cpusMet (history machine before)) (cpusMet [latest]) cpuName
      (some old) new) :
    [old, new] <:+: samplesMet machine (before ++ [.round machine latest true]) cpuName := by
  obtain ⟨first, rest, split, last⟩ := follows
  obtain ⟨others, own⟩ := List.getLast?_eq_some_iff.mp last.symm
  have met : history machine (before ++ [.round machine latest true]) =
      history machine before ++ [latest] := by
    rw [history, List.foldl_concat, noted, if_pos rfl]
    rfl
  have samples : cpusMet (history machine before ++ [latest]) =
      cpusMet (history machine before) ++ cpusMet [latest] := List.flatMap_append
  rw [samplesMet, met, samples, split, ← List.append_assoc, ofKey_append, own, ofKey_cons_self]
  exact ⟨others, ofKey cpuName rest, by simp⟩

/-- Without time between two samples there are no shares. -/
theorem entry_of_counted_eq {old new : Monitor.CpuStatMonitor.CpuStat}
    (small : new.counted < 2 ^ 64) (same : old.counted = new.counted) :
    Monitor.CpuStatMonitor.entry Monitor.CpuStatMonitor.unrounded (some old) new =
      Monitor.CpuStatMonitor.zeroEntry new.cpuName := by
  have still : Monitor.CpuStatMonitor.unrounded new.totalTime -
      Monitor.CpuStatMonitor.unrounded old.totalTime = 0 := by
    rw [Monitor.CpuStatMonitor.unrounded, Monitor.CpuStatMonitor.unrounded,
      Monitor.CpuStatMonitor.toNat_totalTime small,
      Monitor.CpuStatMonitor.toNat_totalTime (same ▸ small), same, sub_self]
  simp only [Monitor.CpuStatMonitor.entry, still, gt_iff_lt, lt_irrefl, if_false]

/-- **The shares in the table** `cpu_metrics`, in exact arithmetic.  Take any run in which the
counters of the kernels behave.  Each row of a CPU has either no shares at all, since nothing
was measured before or no time had been counted, or the shares of one partition of the time
between two consecutive samples of the CPU that one process on the machine has met. -/
theorem stored_cpu_shares (clean : ∀ machine, Clean (machines machine).username) (zone : ℤ → ℤ)
    (t : HostInfo) (apart : Apart weight (usernames machines) t) (acts : List (Act ι))
    (kept : CountersKept (acts.flatMap Act.clients)) :
    let d := afterActs Monitor.CpuStatMonitor.unrounded other machines (.sql weight answers) zone t
      acts
    ∀ hostId time cpuStat cpuLoad, .insertCpu hostId time cpuStat cpuLoad ∈ d.stored →
      cpuStat = Monitor.CpuStatMonitor.zeroEntry cpuStat.cpuName ∨
      ∃ machine k cpuName old new, ⟨hostId, (machines machine).username⟩ ∈ d.hostInfo.rows ∧
        [old, new] <:+: samplesMet machine ((acts.flatMap Act.clients).take k) cpuName ∧
          Monitor.CpuStatMonitor.Accounts old new cpuStat := by
  intro d hostId time cpuStat cpuLoad member
  obtain ⟨machine, hostId', _, before, latest, after, memInfo, split, mem, owner, row, built⟩ :=
    report_of_stored Monitor.CpuStatMonitor.unrounded other machines answers clean zone apart acts
      member
  obtain rfl : hostId = hostId' := Option.some.inj owner
  obtain ⟨⟨cpuName, last, new, follows, rfl⟩, -⟩ := measured_of_report mem built
  cases last with
  | none => exact Or.inl rfl
  | some old =>
      have neighbours := infix_of_follows follows
      have upTo : (acts.flatMap Act.clients).take (before.length + 1) =
          before ++ [.round machine latest true] := by
        rw [split]
        simp [List.take_append]
      rw [← upTo] at neighbours
      obtain ⟨counting, small⟩ := kept machine (before.length + 1) cpuName
      have chain := counting.infix neighbours
      have pair := List.isChain_cons_cons.mp chain
      have bound := small new (neighbours.subset (by simp))
      by_cases more : old.counted < new.counted
      · exact Or.inr ⟨machine, _, cpuName, old, new, row, neighbours,
          Monitor.CpuStatMonitor.accounts_of_counting pair.1 bound more⟩
      · left
        have same : old.counted = new.counted := (pair.1.counted_le).antisymm (not_lt.mp more)
        rw [Monitor.CpuStatMonitor.cpuName_entry]
        exact entry_of_counted_eq bound same

end Runs

/-- What a round meets on a machine with one CPU where nothing else opens. -/
def cpuReadings (user idle : UInt64) : Client.Readings :=
  { Client.bareReadings with
    cpuStat := some ⟨1, [⟨"CPU0".toList, user, 0, idle, 0, 0, 0, 0, 0⟩]⟩ }

/-- A client goes two rounds, and both reports arrive before the server is polled. -/
def busyMachine : List (Act Unit) :=
  [.client (.start () Monitor.NetMonitor.unprivileged),
    .client (.round () (cpuReadings 10 90) true), .client (.round () (cpuReadings 40 100) true),
    .poll .delivered 5 [] fun _ => punctual 5]

theorem countersKept_busyMachine : CountersKept (busyMachine.flatMap Act.clients) := by
  have prefixes : ∀ k, history () ((busyMachine.flatMap Act.clients).take k) <+:
      [cpuReadings 10 90, cpuReadings 40 100] := by
    intro k
    match k with
    | 0 => exact List.nil_prefix
    | 1 => exact List.nil_prefix
    | 2 => exact ⟨[cpuReadings 40 100], rfl⟩
    | k + 3 =>
        rw [List.take_of_length_le (show 3 ≤ k + 3 by omega)]
        exact List.prefix_rfl
  intro machine k cpuName
  obtain ⟨others, split⟩ := prefixes k
  have part : (samplesMet machine ((busyMachine.flatMap Act.clients).take k) cpuName).Sublist
      ((cpusMet [cpuReadings 10 90, cpuReadings 40 100]).map Prod.snd) := by
    rw [← split]
    refine (List.filter_sublist.map Prod.snd).trans (List.Sublist.map Prod.snd ?_)
    rw [cpusMet, cpusMet, List.flatMap_append]
    exact List.sublist_append_left _ _
  have pair : ((cpusMet [cpuReadings 10 90, cpuReadings 40 100]).map Prod.snd).Pairwise
      Monitor.CpuStatMonitor.Counting := by
    refine List.pairwise_pair.mpr ?_
    constructor <;> decide
  refine ⟨(pair.sublist part).isChain, fun s inside => ?_⟩
  have small : ∀ s ∈ (cpusMet [cpuReadings 10 90, cpuReadings 40 100]).map Prod.snd,
      s.counted < 2 ^ 64 := by decide
  exact small s (part.subset inside)

/-- The row of the second round. -/
def busyRow : Statement ℚ :=
  .insertCpu "host_root_5".toList 5 ⟨"CPU0".toList, 75, 75, 0, 0, 25, 0, 0, 0⟩ .unset

theorem busyRow_stored : busyRow ∈ (afterActs Monitor.CpuStatMonitor.unrounded (fun _ => 0)
    (fun _ => rootMachine) (.sql ignoreCase silent) id .empty busyMachine).stored := by
  rw [afterActs, (after_sql id silent clean_rootMachine apart_rootMachine _).1]
  decide +kernel

/-- It was measured by the client of the machine. -/
theorem stored_measured_busyMachine :
    ∃ before latest, Measured Monitor.CpuStatMonitor.unrounded (fun _ => 0) rootMachine.username
      (history () before) latest busyRow := by
  obtain ⟨machine, _, before, latest, _, _, _, _, measured⟩ :=
    stored_measured Monitor.CpuStatMonitor.unrounded (fun _ => 0) (fun _ => rootMachine) silent
      clean_rootMachine id .empty apart_rootMachine busyMachine busyRow busyRow_stored
  exact ⟨before, latest, measured⟩

/-- The CPU has worked for three quarters of the time between the two rounds. -/
theorem stored_cpu_shares_busyMachine :
    ∃ old new, Monitor.CpuStatMonitor.Accounts old new
      ⟨"CPU0".toList, 75, 75, 0, 0, 25, 0, 0, 0⟩ := by
  rcases stored_cpu_shares (fun _ => 0) (fun _ => rootMachine) silent clean_rootMachine id .empty
    apart_rootMachine busyMachine countersKept_busyMachine _ _ _ _ busyRow_stored with
    none | ⟨_, _, _, old, new, _, _, accounts⟩
  · exact absurd (congrArg CpuStat.cpuPercent none) (by decide)
  · exact ⟨old, new, accounts⟩

end LinuxMonitor.PerformanceServer
