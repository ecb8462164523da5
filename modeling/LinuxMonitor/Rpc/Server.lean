import LinuxMonitor.Library.KeyedStore
import LinuxMonitor.Proto

/-!
# `RpcServerImpl`: the store of reports

The server keeps one report for each name.  `SetMonitorInfo` overwrites the report
stored under the request's name, `GetMonitorInfo` copies all stored reports; each
call holds the lock while it touches the map, so calls are atomic and a run is a
sequence of calls.

* `run_monitorInfosMap` identifies the map after a run with the store of the submitted
  requests; what a run leaves under each name is then `lookup_storeAll`.
* `getMonitorInfo_spec`: **a read returns, under different names, the last request of every
  name that was submitted before, and changes nothing for later reads.**
-/

set_option autoImplicit false

namespace LinuxMonitor.Rpc

open Library

variable {R : Type}

/-- The server object; an unordered map is an association list without repeated keys. -/
structure RpcServerImpl (R : Type) where
  monitorInfosMap : AList (fun _ : Text => Proto.MonitorInfo R)

/-- A server that was just started. -/
def RpcServerImpl.initial : RpcServerImpl R := ⟨∅⟩

/-- `monitor_infos_map_[request->name()] = *request` -/
def setMonitorInfo (request : Proto.MonitorInfo R) (server : RpcServerImpl R) :
    RpcServerImpl R :=
  ⟨server.monitorInfosMap.insert request.name request⟩

/-- The response holds a copy of every stored report. -/
def getMonitorInfo (server : RpcServerImpl R) : List (Proto.MonitorInfo R) :=
  values server.monitorInfosMap

/-- A call of the service. -/
inductive Call (R : Type) where
  | setMonitorInfo (request : Proto.MonitorInfo R)
  | getMonitorInfo

/-- The server after a call. -/
def serve (server : RpcServerImpl R) : Call R → RpcServerImpl R
  | .setMonitorInfo request => setMonitorInfo request server
  | .getMonitorInfo => server

/-- The server after a sequence of calls. -/
def run (calls : List (Call R)) (server : RpcServerImpl R) : RpcServerImpl R :=
  calls.foldl serve server

/-- The submitted reports, in order. -/
def requests (calls : List (Call R)) : List (Proto.MonitorInfo R) :=
  calls.filterMap fun
    | .setMonitorInfo request => some request
    | .getMonitorInfo => none

/-- The map after a run is the store of the submitted reports under their names. -/
theorem run_monitorInfosMap (calls : List (Call R)) (server : RpcServerImpl R) :
    (run calls server).monitorInfosMap =
      storeAll Proto.MonitorInfo.name id (requests calls) server.monitorInfosMap := by
  induction calls generalizing server with
  | nil => rfl
  | cons call calls ih =>
      have step : run (call :: calls) server = run calls (serve server call) := rfl
      rw [step, ih]
      cases call with
      | setMonitorInfo request => rfl
      | getMonitorInfo => rfl

/-! ## Reads -/

/-- The responses of the reads of a run, in order. -/
def responses : List (Call R) → RpcServerImpl R → List (List (Proto.MonitorInfo R))
  | [], _ => []
  | .setMonitorInfo request :: calls, server => responses calls (setMonitorInfo request server)
  | .getMonitorInfo :: calls, server => getMonitorInfo server :: responses calls server

theorem responses_append (calls others : List (Call R)) (server : RpcServerImpl R) :
    responses (calls ++ others) server =
      responses calls server ++ responses others (run calls server) := by
  induction calls generalizing server with
  | nil => rfl
  | cons call calls ih =>
      cases call with
      | setMonitorInfo request => exact ih _
      | getMonitorInfo => exact congrArg (List.cons _) (ih _)

theorem mem_requests {calls : List (Call R)} {request : Proto.MonitorInfo R} :
    request ∈ requests calls ↔ .setMonitorInfo request ∈ calls := by
  rw [requests, List.mem_filterMap]
  constructor
  · rintro ⟨call, member, made⟩
    cases call with
    | setMonitorInfo request' =>
        cases made
        exact member
    | getMonitorInfo => cases made
  · exact fun member => ⟨_, member, rfl⟩

/-- A read after a run returns what the store of the requests holds. -/
theorem getMonitorInfo_run (calls : List (Call R)) :
    getMonitorInfo (run calls .initial) =
      values (storeAll Proto.MonitorInfo.name id (requests calls) ∅) := by
  rw [getMonitorInfo, run_monitorInfosMap]
  rfl

theorem names_getMonitorInfo (calls : List (Call R)) :
    (getMonitorInfo (run calls .initial)).map Proto.MonitorInfo.name =
      (storeAll Proto.MonitorInfo.name id (requests calls) ∅).keys := by
  rw [getMonitorInfo_run]
  exact map_values_storeAll _ _ _ fun _ => rfl

/-- **A read returns the last requests.**  In any sequence of calls, the response to a read
has different names; it has a record for a name exactly when a request with that name came
before; each record is the last request with its name; and the other responses are those of
the sequence without the read. -/
theorem getMonitorInfo_spec (before after : List (Call R)) :
    ∃ response later,
      responses (before ++ .getMonitorInfo :: after) .initial =
        responses before .initial ++ response :: later ∧
      responses (before ++ after) .initial = responses before .initial ++ later ∧
      (response.map Proto.MonitorInfo.name).Nodup ∧
      (∀ name, (∃ record ∈ response, record.name = name) ↔
        ∃ request, .setMonitorInfo request ∈ before ∧ request.name = name) ∧
      ∀ record ∈ response,
        latest Proto.MonitorInfo.name record.name (requests before) = some record := by
  refine ⟨getMonitorInfo (run before .initial), responses after (run before .initial),
    responses_append _ _ _, responses_append _ _ _, ?_, ?_, ?_⟩
  · rw [names_getMonitorInfo]
    exact AList.keys_nodup _
  · intro name
    rw [← List.mem_map, names_getMonitorInfo, mem_keys_storeAll, List.mem_map]
    simp only [mem_requests]
  · intro record member
    rw [getMonitorInfo_run] at member
    obtain ⟨request, rfl, last⟩ := latest_of_mem_values _ _ _ member
    exact last

end LinuxMonitor.Rpc
