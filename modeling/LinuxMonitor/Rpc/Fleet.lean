import Mathlib.Data.Rat.Defs
import LinuxMonitor.Client.Username
import LinuxMonitor.Rpc.Server

/-!
# A fleet of clients and one server

Several machines report to one server.  Each machine submits its reports under the
user name it found at its start, and the server keys its map by that name, so two
machines whose lookups give the same user name write to the same entry.

`response_perm_reports_iff`: **after any interleaving of reports and reads, a read
returns exactly the latest report of every machine that has reported if and only if
the machines that have reported use different user names.**
-/

set_option autoImplicit false

namespace LinuxMonitor.Rpc

open Library

variable {ι R : Type}

/-- What happens at the server: a machine submits a report, or somebody reads. -/
inductive Event (ι R : Type) where
  | report (machine : ι) (body : Proto.MonitorInfo R)
  | read

/-- `monitor_info.set_name(username)`, with what the monitors have filled in. -/
def submitted (machines : ι → Client.Machine) (machine : ι) (body : Proto.MonitorInfo R) :
    Proto.MonitorInfo R :=
  { body with name := (machines machine).username }

/-- The call an event makes. -/
def Event.call (machines : ι → Client.Machine) : Event ι R → Call R
  | .report machine body => .setMonitorInfo (submitted machines machine body)
  | .read => .getMonitorInfo

/-- The reports of a run with the machines that submitted them, in order. -/
def reports (machines : ι → Client.Machine) (events : List (Event ι R)) :
    List (ι × Proto.MonitorInfo R) :=
  events.filterMap fun
    | .report machine body => some (machine, submitted machines machine body)
    | .read => none

/-- What a read returns after the events. -/
def response (machines : ι → Client.Machine) (events : List (Event ι R)) :
    List (Proto.MonitorInfo R) :=
  getMonitorInfo (run (events.map (Event.call machines)) .initial)

/-- The server sees the reports of all machines in the order of the events. -/
theorem requests_eq_reports (machines : ι → Client.Machine) (events : List (Event ι R)) :
    requests (events.map (Event.call machines)) = (reports machines events).map Prod.snd := by
  rw [requests, reports, List.filterMap_map, List.map_filterMap]
  apply List.filterMap_congr
  intro event _
  cases event with
  | report machine body => rfl
  | read => rfl

/-- Every report goes to the entry of its machine's user name. -/
theorem name_of_mem_reports {machines : ι → Client.Machine} {events : List (Event ι R)}
    {item : ι × Proto.MonitorInfo R} (member : item ∈ reports machines events) :
    item.2.name = (machines item.1).username := by
  obtain ⟨event, -, made⟩ := List.mem_filterMap.mp member
  cases event with
  | report machine body =>
      cases made
      rfl
  | read => cases made

/-- A read returns what the store of all reports holds. -/
theorem response_eq_values (machines : ι → Client.Machine) (events : List (Event ι R)) :
    response machines events =
      values (storeAll (fun item => item.2.name) Prod.snd (reports machines events) ∅) := by
  rw [response, getMonitorInfo, run_monitorInfosMap, requests_eq_reports, storeAll_map]
  rfl

variable [DecidableEq ι]

/-- The machines that have reported, each once. -/
def reporters (machines : ι → Client.Machine) (events : List (Event ι R)) : List ι :=
  ((reports machines events).map Prod.fst).dedup

/-- The latest report of a machine. -/
def latestReport (machines : ι → Client.Machine) (events : List (Event ι R)) (machine : ι) :
    Option (Proto.MonitorInfo R) :=
  (latest Prod.fst machine (reports machines events)).map Prod.snd

/-- **After any interleaving of reports and reads, a read returns exactly the latest
report of every machine that has reported if and only if these machines have
different user names.** -/
theorem response_perm_reports_iff (machines : ι → Client.Machine) (events : List (Event ι R)) :
    (response machines events).Perm
        ((reporters machines events).filterMap (latestReport machines events)) ↔
      ∀ i ∈ reporters machines events, ∀ j ∈ reporters machines events,
        (machines i).username = (machines j).username → i = j := by
  have writers := values_perm_latest_iff (fun item => item.2.name) Prod.snd Prod.fst
    (fun i => (machines i).username) (reports machines events)
    fun item member => name_of_mem_reports member
  rw [response_eq_values]
  apply writers.trans
  simp only [reporters, List.mem_dedup]
  constructor
  · intro apart i inside j inside' same
    exact apart inside inside' same
  · intro apart i inside j inside' same
    exact apart i inside j inside' same

/-- A machine whose client runs as the superuser. -/
def rootMachine : Client.Machine where
  passwd := some "root:x:0:0:root:/root:/bin/bash\n".toList
  uid := 0

/-- Two such machines report, and somebody reads. -/
def twoRootReports : List (Event Bool ℚ) :=
  [.report false (.named []), .report true (.named []), .read]

/-- Both machines report as `root`, and only one report is left. -/
theorem response_rootMachines_collide :
    ¬ (response (fun _ => rootMachine) twoRootReports).Perm
      ((reporters (fun _ => rootMachine) twoRootReports).filterMap
        (latestReport (fun _ => rootMachine) twoRootReports)) := by
  intro exact
  have count : (response (fun _ => rootMachine) twoRootReports).length = 1 := by decide
  have expected : ((reporters (fun _ => rootMachine) twoRootReports).filterMap
      (latestReport (fun _ => rootMachine) twoRootReports)).length = 2 := by decide
  have same := exact.length_eq
  rw [count, expected] at same
  cases same

end LinuxMonitor.Rpc
