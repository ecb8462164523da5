import LinuxMonitor.Client.Username
import LinuxMonitor.Library.Rounds
import LinuxMonitor.Monitor.CpuLoadMonitor
import LinuxMonitor.Monitor.CpuSoftIrqMonitor
import LinuxMonitor.Monitor.CpuStatMonitor
import LinuxMonitor.Monitor.DiskSamples
import LinuxMonitor.Monitor.MemMonitor
import LinuxMonitor.Monitor.NetMonitor

/-!
# The rounds of a client

A client goes round for ever.  In each round it makes a report under its user name, lets its
six monitors fill the report one after the other, and submits it.  The monitors live as long
as the client.  An exception of a monitor leaves the thread that goes round, and so ends the
process; only the memory monitor has one.  It alone also reports floating-point values that are no
numbers, so the report has those; what the others report are numbers.

* `round_perm`: the monitors may be called in any order.
* `round_eq`: what a round does, in one step.
* `rounds_separate`: **the reports hold what each monitor reports when it runs by itself, up to
  the first round in which the memory monitor fails.**
-/

set_option autoImplicit false

namespace LinuxMonitor.Client

open Library Proto Monitor

/-! ## The loop -/

/-- What a round meets: what the three devices show, the files, the eBPF map and the clocks.
The words of `cpu_load_monitor` are those that `memcpy` has copied, and `memInfo` is what
`mem_info` holds before it is filled. -/
structure Readings where
  softIrq : Option (List CpuSoftIrqMonitor.SoftirqStat)
  cpuLoad : Option (CpuLoadMonitor.Member → UInt64)
  cpuStat : Option CpuStatMonitor.Device
  meminfo : Option Text
  memInfo : MemMonitor.MenInfo
  net : NetMonitor.Call
  disk : DiskMonitor.Call

/-- The members of the monitors. -/
structure Members where
  cpuStatMap : CpuStatMonitor.CpuStatMap
  net : NetMonitor.State
  disk : DiskMonitor.State

/-- Monitors that were just constructed. -/
def Members.initial : Members := ⟨∅, .initial, .initial⟩

/-- The elements of `runners_`. -/
inductive Runner where
  | cpuSoftIrqMonitor
  | cpuLoadMonitor
  | cpuStatMonitor
  | memMonitor
  | netMonitor
  | diskMonitor
deriving DecidableEq, Repr

/-- `runners_` -/
def runners : List Runner :=
  [.cpuSoftIrqMonitor, .cpuLoadMonitor, .cpuStatMonitor, .memMonitor, .netMonitor, .diskMonitor]

/-- The message of the words that `CpuLoadMonitor::UpdateOnce` has copied. -/
def loadMessage (info : CpuLoadMonitor.Member → UInt64) : CpuLoad ℚ :=
  ⟨CpuLoadMonitor.loadAverage (info .loadAvg1), CpuLoadMonitor.loadAverage (info .loadAvg3),
    CpuLoadMonitor.loadAverage (info .loadAvg15)⟩

variable (float : UInt64 → ℚ)

/-- `runner->UpdateOnce(&monitor_info)` -/
def updateOnce (r : Readings) (s : MonitorInfo FloatValue × Members) :
    Runner → Except MemMonitor.Fault (MonitorInfo FloatValue × Members)
  | .cpuSoftIrqMonitor =>
      let softIrq := CpuSoftIrqMonitor.updateOnce r.softIrq
      .ok ({ s.1 with softIrq := s.1.softIrq ++ softIrq }, s.2)
  | .cpuLoadMonitor =>
      match r.cpuLoad with
      | none => .ok s
      | some info => .ok ({ s.1 with cpuLoad := some ((loadMessage info).map .finite) }, s.2)
  | .cpuStatMonitor =>
      let (cpuStat, cpuStatMap) := CpuStatMonitor.updateOnce float r.cpuStat s.2.cpuStatMap
      .ok ({ s.1 with cpuStat := s.1.cpuStat ++ cpuStat.map (CpuStat.map .finite) },
        { s.2 with cpuStatMap := cpuStatMap })
  | .memMonitor =>
      (MemMonitor.updateOnce r.meminfo r.memInfo s.1).map fun monitorInfo => (monitorInfo, s.2)
  | .netMonitor =>
      let (netInfo, net) := NetMonitor.updateOnce r.net s.2.net
      .ok ({ s.1 with netInfo := s.1.netInfo ++ netInfo.map (NetInfo.map .finite) },
        { s.2 with net := net })
  | .diskMonitor =>
      let (diskInfo, disk) := DiskMonitor.updateOnce r.disk.now r.disk.diskstats s.2.disk
      .ok ({ s.1 with diskInfo := s.1.diskInfo ++ diskInfo.map (DiskInfo.map .finite) },
        { s.2 with disk := disk })

/-- The body of the loop in `main` up to the report that it submits. -/
def round (order : List Runner) (username : Text) (r : Readings) (members : Members) :
    Except MemMonitor.Fault (MonitorInfo FloatValue × Members) :=
  order.foldlM (updateOnce float r) (.named username, members)

/-- The reports of a client that meets the readings, and its monitors at the end or the
exception that has ended it. -/
def rounds (order : List Runner) (username : Text) (readings : List Readings) :
    List (MonitorInfo FloatValue) × Except MemMonitor.Fault Members :=
  turns (round float order username) readings .initial

/-! ## One round -/

/-- The message of the memory monitor. -/
def memory (r : Readings) : Except MemMonitor.Fault (MemInfo FloatValue) := do
  let memInfo ← (ReadFile.readEach MemMonitor.readEntry).result
    (ReadFile.openFile r.meminfo, r.memInfo)
  return MemMonitor.report memInfo

theorem updateOnce_memory (r : Readings) (monitorInfo : MonitorInfo FloatValue) :
    MemMonitor.updateOnce r.meminfo r.memInfo monitorInfo =
      (memory r).map fun memInfo => { monitorInfo with memInfo := some memInfo } := by
  rw [MemMonitor.updateOnce, memory]
  cases (ReadFile.readEach MemMonitor.readEntry).result
    (ReadFile.openFile r.meminfo, r.memInfo) <;> rfl

/-- The monitors after a round. -/
def Members.next (r : Readings) (members : Members) : Members where
  cpuStatMap := (CpuStatMonitor.updateOnce float r.cpuStat members.cpuStatMap).2
  net := (NetMonitor.updateOnce r.net members.net).2
  disk := (DiskMonitor.updateOnce r.disk.now r.disk.diskstats members.disk).2

/-- The report of a round, with what the memory monitor has to say. -/
def Members.report (username : Text) (memInfo : MemInfo FloatValue) (r : Readings)
    (members : Members) : MonitorInfo FloatValue where
  name := username
  softIrq := CpuSoftIrqMonitor.updateOnce r.softIrq
  cpuLoad := r.cpuLoad.map fun info => (loadMessage info).map .finite
  cpuStat := (CpuStatMonitor.updateOnce float r.cpuStat members.cpuStatMap).1.map
    (CpuStat.map .finite)
  memInfo := some memInfo
  netInfo := (NetMonitor.updateOnce r.net members.net).1.map (NetInfo.map .finite)
  diskInfo := (DiskMonitor.updateOnce r.disk.now r.disk.diskstats members.disk).1.map
    (DiskInfo.map .finite)

/-- Two monitors may change places: they fill different parts of the report. -/
theorem updateOnce_comm (r : Readings) (first second : Runner)
    (s : MonitorInfo FloatValue × Members) :
    (updateOnce float r s first >>= fun t => updateOnce float r t second) =
      (updateOnce float r s second >>= fun t => updateOnce float r t first) := by
  cases load : r.cpuLoad <;> cases mem : memory r <;> cases first <;> cases second <;>
    simp [updateOnce, updateOnce_memory, load, mem, Except.map, bind, Except.bind]

/-- **The order in which the monitors are called does not matter.** -/
theorem round_perm {order order' : List Runner} (same : order.Perm order') (username : Text) :
    round float order username = round float order' username := by
  funext r members
  exact foldlM_perm same (updateOnce_comm float r) _

/-- **What a round does.** -/
theorem round_eq (username : Text) (r : Readings) (members : Members) :
    round float runners username r members = (memory r).map fun memInfo =>
      (members.report float username memInfo r, members.next float r) := by
  rw [round, runners]
  cases load : r.cpuLoad <;> cases mem : memory r <;>
    simp [updateOnce, updateOnce_memory, load, mem, Except.map, bind, Except.bind, pure,
      Except.pure, Members.report, Members.next, MonitorInfo.named]

/-! ## All rounds -/

/-- The monitors after the rounds. -/
def Members.after (readings : List Readings) : Members :=
  readings.foldl (fun members r => members.next float r) .initial

theorem run_cpuStat (devices : List (Option CpuStatMonitor.Device))
    (cpuStatMap : CpuStatMonitor.CpuStatMap) : CpuStatMonitor.run float devices cpuStatMap =
      outputs (CpuStatMonitor.updateOnce float) devices cpuStatMap := by
  induction devices generalizing cpuStatMap with
  | nil => rfl
  | cons device devices ih => simp only [CpuStatMonitor.run, outputs_cons, ih]

theorem run_net (calls : List NetMonitor.Call) (state : NetMonitor.State) :
    NetMonitor.run calls state = outputs NetMonitor.updateOnce calls state := by
  induction calls generalizing state with
  | nil => rfl
  | cons call calls ih => simp only [NetMonitor.run, outputs_cons, ih]

theorem run_disk (calls : List DiskMonitor.Call) (state : DiskMonitor.State) :
    DiskMonitor.run calls state =
      outputs (fun call => DiskMonitor.updateOnce call.now call.diskstats) calls state := by
  induction calls generalizing state with
  | nil => rfl
  | cons call calls ih => simp only [DiskMonitor.run, outputs_cons, ih]

/-- Each monitor has the members that it has after running by itself. -/
theorem Members.after_eq (readings : List Readings) : Members.after float readings =
    { cpuStatMap := (CpuStatMonitor.run float (readings.map Readings.cpuStat) ∅).2
      net := (NetMonitor.run (readings.map Readings.net) .initial).2
      disk := (DiskMonitor.run (readings.map Readings.disk) .initial).2 } := by
  rw [run_cpuStat, run_net, run_disk, snd_outputs, snd_outputs, snd_outputs, List.foldl_map,
    List.foldl_map, List.foldl_map]
  induction readings using List.reverseRecOn with
  | nil => rfl
  | append_singleton readings r ih =>
      rw [Members.after, List.foldl_concat, ← Members.after, ih]
      simp only [List.foldl_concat, Members.next]

/-- A report as the monitors, each by itself, make it in the given round. -/
structure Separate (username : Text) (readings : List Readings) (k : ℕ)
    (info : MonitorInfo FloatValue) : Prop where
  name : info.name = username
  softIrq : (readings.map fun r => CpuSoftIrqMonitor.updateOnce r.softIrq)[k]? = some info.softIrq
  cpuLoad : (readings.map fun r => r.cpuLoad.map fun info =>
    (loadMessage info).map FloatValue.finite)[k]? = some info.cpuLoad
  cpuStat : (CpuStatMonitor.run float (readings.map Readings.cpuStat) ∅).1[k]?.map
    (List.map (CpuStat.map .finite)) = some info.cpuStat
  memInfo : ∃ memInfo, (readings.map memory)[k]? = some (.ok memInfo) ∧
    info.memInfo = some memInfo
  netInfo : (NetMonitor.run (readings.map Readings.net) .initial).1[k]?.map
    (List.map (NetInfo.map .finite)) = some info.netInfo
  diskInfo : (DiskMonitor.run (readings.map Readings.disk) .initial).1[k]?.map
    (List.map (DiskInfo.map .finite)) = some info.diskInfo

theorem separate_iff {username : Text} {readings : List Readings} {k : ℕ}
    {info : MonitorInfo FloatValue} : Separate float username readings k info ↔
      ∃ r memInfo, readings[k]? = some r ∧ memory r = .ok memInfo ∧
        info = (Members.after float (readings.take k)).report float username memInfo r := by
  have cpuStat : (CpuStatMonitor.run float (readings.map Readings.cpuStat) ∅).1[k]? =
      (readings.map Readings.cpuStat)[k]?.map fun device => (CpuStatMonitor.updateOnce float device
        (CpuStatMonitor.run float ((readings.take k).map Readings.cpuStat) ∅).2).1 := by
    rw [run_cpuStat, run_cpuStat, getElem?_outputs, List.map_take]
  have net : (NetMonitor.run (readings.map Readings.net) .initial).1[k]? =
      (readings.map Readings.net)[k]?.map fun call => (NetMonitor.updateOnce call
        (NetMonitor.run ((readings.take k).map Readings.net) .initial).2).1 := by
    rw [run_net, run_net, getElem?_outputs, List.map_take]
  have disk : (DiskMonitor.run (readings.map Readings.disk) .initial).1[k]? =
      (readings.map Readings.disk)[k]?.map fun call => (DiskMonitor.updateOnce call.now
        call.diskstats (DiskMonitor.run ((readings.take k).map Readings.disk) .initial).2).1 := by
    rw [run_disk, run_disk, getElem?_outputs, List.map_take]
  rw [Members.after_eq]
  cases found : readings[k]? with
  | none =>
      constructor
      · intro separate
        have missing := separate.softIrq
        rw [List.getElem?_map, found] at missing
        cases missing
      · rintro ⟨_, _, missing, _⟩
        cases missing
  | some r =>
      constructor
      · rintro ⟨name, softIrq, cpuLoad, cpuStat', ⟨memInfo, mem, filled⟩, net', disk'⟩
        rw [cpuStat, List.getElem?_map, found] at cpuStat'
        rw [net, List.getElem?_map, found] at net'
        rw [disk, List.getElem?_map, found] at disk'
        rw [List.getElem?_map, found] at softIrq cpuLoad mem
        refine ⟨r, memInfo, rfl, Option.some.inj mem, ?_⟩
        cases info
        subst name filled
        simp only [Members.report, MonitorInfo.mk.injEq, true_and]
        exact ⟨(Option.some.inj softIrq).symm, (Option.some.inj cpuLoad).symm,
          (Option.some.inj cpuStat').symm, (Option.some.inj net').symm,
          (Option.some.inj disk').symm⟩
      · rintro ⟨_, memInfo, same, mem, rfl⟩
        obtain rfl := Option.some.inj same
        refine ⟨rfl, ?_, ?_, ?_, ⟨memInfo, ?_, rfl⟩, ?_, ?_⟩
        · rw [List.getElem?_map, found]
          rfl
        · rw [List.getElem?_map, found]
          rfl
        · rw [cpuStat, List.getElem?_map, found]
          rfl
        · rw [List.getElem?_map, found, Option.map_some, mem]
        · rw [net, List.getElem?_map, found]
          rfl
        · rw [disk, List.getElem?_map, found]
          rfl

/-- **The reports of a client.**  Call the monitors in any order.  The reports that the client
submits are, round by round, those in which each part is what its monitor reports when it runs
by itself on what it meets, whatever the other monitors meet.  They end before the first round
in which the memory monitor fails, and the client goes on if and only if there is no such
round. -/
theorem rounds_separate {order : List Runner} (same : order.Perm runners) (username : Text)
    (readings : List Readings) :
    (∀ k info, (rounds float order username readings).1[k]? = some info ↔
      (∀ r ∈ readings.take k, ∃ memInfo, memory r = .ok memInfo) ∧
        Separate float username readings k info) ∧
    ((∃ members, (rounds float order username readings).2 = .ok members) ↔
      ∀ r ∈ readings, ∃ memInfo, memory r = .ok memInfo) := by
  rw [rounds, round_perm float same username]
  have checks : Checked memory (fun memInfo r members =>
      (Members.report float username memInfo r members, Members.next float r members))
        (round float runners username) := round_eq float username
  refine ⟨fun k info => ?_, turns_eq_ok_iff checks readings .initial⟩
  rw [getElem?_turns checks, separate_iff]
  rfl

/-- A round on a machine where nothing opens. -/
def bareReadings : Readings where
  softIrq := none
  cpuLoad := none
  cpuStat := none
  meminfo := none
  memInfo := fun _ => 4
  net := ⟨0, none, none⟩
  disk := ⟨0, []⟩

/-- Two such rounds, with the monitors in the opposite order. -/
theorem rounds_separate_reverse :
    ∃ info, (rounds CpuStatMonitor.unrounded runners.reverse "web".toList
      [bareReadings, bareReadings]).1[1]? = some info ∧ info.name = "web".toList := by
  have filled : ∃ memInfo, memory bareReadings = .ok memInfo := ⟨_, rfl⟩
  obtain ⟨memInfo, mem⟩ := filled
  refine ⟨_, ((rounds_separate CpuStatMonitor.unrounded runners.reverse_perm "web".toList _).1 1
    _).mpr ⟨?_, (separate_iff _).mpr ⟨bareReadings, memInfo, rfl, mem, rfl⟩⟩, rfl⟩
  intro r member
  rw [List.mem_singleton.mp member]
  exact ⟨memInfo, mem⟩

end LinuxMonitor.Client
