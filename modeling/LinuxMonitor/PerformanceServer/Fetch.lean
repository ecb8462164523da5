import LinuxMonitor.PerformanceServer.Store
import LinuxMonitor.Rpc.Client

/-!
# Fetching the reports

`fetchMonitorData` takes every call that throws no exception for a success.  A call that
ends with a status other than OK throws none.

* `fetchMonitorData_iff`: **a fetch returns whether the call succeeded, and leaves the
  client as it was if not, exactly when the call does not end with such a status.**
* `storeToDatabase_empty`: storing nothing is a success.
-/

set_option autoImplicit false

namespace LinuxMonitor.PerformanceServer

open Library Proto Rpc

/-- The members of `PerformanceMonitorClient` that a fetch sets. -/
structure MonitorClient (R : Type) where
  currentData : List (MonitorInfo R)
  lastFetchTime : ℤ
deriving DecidableEq, Repr

section Fetch

variable {R : Type}

/-- `PerformanceMonitorClient::fetchMonitorData` -/
def fetchMonitorData (outcome : CallOutcome (List (MonitorInfo R))) (now : ℤ)
    (client : MonitorClient R) : Bool × MonitorClient R :=
  match RpcClient.getMonitorInfo outcome with
  | some response => (true, { currentData := response, lastFetchTime := now })
  | none => (false, client)

theorem fetchMonitorData_ok (response : List (MonitorInfo R)) (now : ℤ)
    (client : MonitorClient R) :
    fetchMonitorData (.ok response) now client = (true, ⟨response, now⟩) := rfl

theorem fetchMonitorData_failed (response : List (MonitorInfo R)) (now : ℤ)
    (client : MonitorClient R) :
    fetchMonitorData (.failed response) now client = (true, ⟨response, now⟩) := rfl

theorem fetchMonitorData_threw (now : ℤ) (client : MonitorClient R) :
    fetchMonitorData .threw now client = (false, client) := rfl

/-- **A fetch returns whether the call succeeded, and leaves the client as it was if not,
exactly when the call does not end with a status other than OK.** -/
theorem fetchMonitorData_iff (outcome : CallOutcome (List (MonitorInfo R))) (now : ℤ)
    (client : MonitorClient R) :
    (((fetchMonitorData outcome now client).1 = true ↔ outcome.Succeeded) ∧
        (¬ outcome.Succeeded → (fetchMonitorData outcome now client).2 = client)) ↔
      ∀ response, outcome ≠ .failed response := by
  cases outcome with
  | ok response =>
      refine iff_of_true ⟨?_, fun failed => absurd trivial failed⟩ fun _ same => by cases same
      rw [fetchMonitorData_ok]
      exact iff_of_true rfl trivial
  | failed response =>
      refine iff_of_false (fun kept => ?_) fun never => never response rfl
      rw [fetchMonitorData_failed] at kept
      exact kept.1.mp rfl
  | threw =>
      refine iff_of_true ⟨?_, fun _ => ?_⟩ fun _ same => by cases same
      · rw [fetchMonitorData_threw]
        exact iff_of_false Bool.false_ne_true id
      · rw [fetchMonitorData_threw]

end Fetch

section Store

variable {R : Type} [Field R] [LinearOrder R]

/-- Storing nothing is a success. -/
theorem storeToDatabase_empty (db : Database) (zone : ℤ → ℤ) (outcomes : ℕ → HostOutcomes)
    (s : HostState) :
    storeToDatabase (R := R) db zone true [] outcomes s = ⟨[], s, true⟩ := rfl

end Store

/-- A client that has fetched the report of one host. -/
def fetchedOnce : MonitorClient ℚ :=
  ⟨[⟨"alice".toList, [], none, [], none, [], []⟩], 100⟩

/-- A failed call counts as a fetch, loses the report, and makes storing nothing a success. -/
theorem fetchedOnce_lost :
    ¬ (((fetchMonitorData (.failed []) 160 fetchedOnce).1 = true ↔
          (CallOutcome.failed ([] : List (MonitorInfo ℚ))).Succeeded) ∧
        (¬ (CallOutcome.failed ([] : List (MonitorInfo ℚ))).Succeeded →
          (fetchMonitorData (.failed []) 160 fetchedOnce).2 = fetchedOnce)) ∧
      ∀ outcomes s, storeToDatabase .literal id true
        (fetchMonitorData (.failed []) 160 fetchedOnce).2.currentData outcomes s =
          ⟨[], s, true⟩ := by
  refine ⟨fun kept => ?_, fun outcomes s => storeToDatabase_empty .literal id outcomes s⟩
  exact kept.1.mp rfl

end LinuxMonitor.PerformanceServer
