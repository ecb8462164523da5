import LinuxMonitor.Library.CriticalSection
import LinuxMonitor.Rpc.Server

/-!
# The handlers of the server

Each call is handled in a thread of its own.  A handler of `SetMonitorInfo` takes the lock, finds
or creates the slot of the name, assigns the request and releases the lock; a handler of
`GetMonitorInfo` takes the lock, copies the stored reports one after the other and releases the
lock when it returns.

* `executes_set`, `executes_get`: a section that is not interrupted is the atomic call.
* `run_of_serial`, `responses_of_serial`: sections one after the other are a run of calls.
* `handlers_linearizable`: **under any interleaving of any number of handlers the finished calls
  have an order in which each answers as if they had been made one after the other.**
-/

set_option autoImplicit false

namespace LinuxMonitor.Rpc

open Library

variable {R : Type}

/-! ## The critical sections -/

/-- The variables of a handler: how far it is, and the response. -/
structure Handler (R : Type) where
  stage : ℕ
  response : List (Proto.MonitorInfo R)

def Handler.initial : Handler R := ⟨0, []⟩

/-- One operation of a handler while it holds the lock.  `monitor_infos_map_[request->name()]`
finds or creates the slot that is then assigned; the loop of `GetMonitorInfo` copies one report
in each turn. -/
def handle (call : Call R) (server : RpcServerImpl R) (handler : Handler R) :
    Option (RpcServerImpl R × Handler R) :=
  match call with
  | .setMonitorInfo request =>
      match handler.stage with
      | 0 =>
          if request.name ∈ server.monitorInfosMap then some (server, { handler with stage := 1 })
          else
            some (⟨server.monitorInfosMap.insert request.name (.named [])⟩,
              { handler with stage := 1 })
      | 1 => some (setMonitorInfo request server, { handler with stage := 2 })
      | _ => none
  | .getMonitorInfo =>
      match (values server.monitorInfosMap)[handler.stage]? with
      | some info => some (server, ⟨handler.stage + 1, handler.response ++ [info]⟩)
      | none => none

/-- A handler of a call that has not begun. -/
abbrev Arrives (t : Locking (Call R) (Handler R)) : Prop := t.Starts fun _ => .initial

/-- `SetMonitorInfo` without interruption. -/
theorem executes_set (request : Proto.MonitorInfo R) (server : RpcServerImpl R) :
    Executes handle (fun _ => .initial) (.setMonitorInfo request) server
      (setMonitorInfo request server) ⟨2, []⟩ := by
  refine ⟨?_, rfl⟩
  by_cases present : request.name ∈ server.monitorInfosMap
  · have found : handle (.setMonitorInfo request) server .initial = some (server, ⟨1, []⟩) :=
      if_pos present
    exact .head found (.single rfl)
  · have created : handle (.setMonitorInfo request) server .initial =
        some (⟨server.monitorInfosMap.insert request.name (.named [])⟩, ⟨1, []⟩) :=
      if_neg present
    refine .head created (.single ?_)
    simp only [handle, setMonitorInfo, AList.insert_insert]

/-- `GetMonitorInfo` without interruption. -/
theorem executes_get (server : RpcServerImpl R) :
    Executes handle (fun _ => .initial) .getMonitorInfo server server
      ⟨(values server.monitorInfosMap).length, getMonitorInfo server⟩ := by
  have copied : ∀ k ≤ (values server.monitorInfosMap).length,
      Runs handle .getMonitorInfo (server, .initial)
        (server, ⟨k, (values server.monitorInfosMap).take k⟩) := by
    intro k inside
    induction k with
    | zero => exact .refl
    | succ k ih =>
        have here : k < (values server.monitorInfosMap).length := inside
        refine (ih here.le).tail ?_
        simp only [handle, List.getElem?_eq_getElem here, List.take_succ_eq_append_getElem here]
  constructor
  · have all := copied _ le_rfl
    rw [List.take_length] at all
    exact all
  · simp [handle]

/-! ## Sections one after the other -/

/-- The calls of finished handlers. -/
def callsOf (log : List (Call R × Handler R)) : List (Call R) := log.map Prod.fst

/-- **Sections one after the other are a run of calls.** -/
theorem run_of_serial {log : List (Call R × Handler R)} {server : RpcServerImpl R}
    (serial : Serial handle (fun _ => .initial) .initial log server) :
    server = run (callsOf log) .initial := by
  induction serial with
  | nil => rfl
  | @snoc log s s' call handler _ last ih =>
      have step : s' = serve s call := by
        cases call with
        | setMonitorInfo request => exact (last.unique (executes_set request s)).1
        | getMonitorInfo => exact (last.unique (executes_get s)).1
      have calls : callsOf (log ++ [(call, handler)]) = callsOf log ++ [call] := by simp [callsOf]
      rw [step, ih, calls, run, run, List.foldl_append]
      rfl

/-! ## Any interleaving -/

/-- An order of the finished handlers in which each read answers what the calls before it leave,
and the server holds what all of them leave when nobody holds the lock. -/
structure Ordered (c : Configuration (Guarded (RpcServerImpl R)) (Locking (Call R) (Handler R)))
    (log : List (ℕ × Call R × Handler R)) : Prop where
  once : (log.map Prod.fst).Nodup
  finished : ∀ i call handler, (i, call, handler) ∈ log ↔ c.2[i]? = some ⟨call, .left, handler⟩
  answers : ∀ before i handler after, log = before ++ (i, .getMonitorInfo, handler) :: after →
    handler.response = getMonitorInfo (run (callsOf (before.map Prod.snd)) .initial)
  server : c.1.locked = false → c.1.shared = run (callsOf (log.map Prod.snd)) .initial
  progress : ∀ t ∈ c.2, t.place ≠ .left → ∃ u ∈ c.2, (lockedExec handle c.1 u).isSome

theorem ordered_of_serialized
    {c : Configuration (Guarded (RpcServerImpl R)) (Locking (Call R) (Handler R))}
    {log : List (ℕ × Call R × Handler R)} {s : RpcServerImpl R}
    (serialized : Serialized handle (fun _ => .initial) .initial c log s) : Ordered c log where
  once := serialized.nodup
  finished := serialized.logged
  answers before i handler after split := by
    have serial := serialized.serial
    rw [split, List.map_append, List.map_cons] at serial
    obtain ⟨s₁, s₂, earlier, read⟩ := serial.split
    rw [← run_of_serial earlier]
    exact congrArg Handler.response (read.unique (executes_get s₁)).2
  server free := ((serialized.free free).1).trans (run_of_serial serialized.serial)
  progress _ member unfinished := serialized.progress member unfinished

/-- **The service is linearizable.**  Take any interleaving of any number of handlers on a new
server.  The finished ones have an order in which every read has answered what the calls before
it leave, and in which the server holds what all of them leave when nobody holds the lock.
Whatever happens next only adds to the end of the order, so a call that has returned stands
before all that begin later.  While a handler has not finished, some handler can go on. -/
theorem handlers_linearizable
    {c : Configuration (Guarded (RpcServerImpl R)) (Locking (Call R) (Handler R))}
    (reached : Steps Arrives (lockedExec handle) (⟨false, .initial⟩, []) c) :
    ∃ log, Ordered c log ∧ ∀ c', Steps Arrives (lockedExec handle) c c' →
      ∃ log', log <+: log' ∧ Ordered c' log' := by
  obtain ⟨log, s, _, serialized⟩ := (Serialized.nothing handle _ .initial).steps reached
  refine ⟨log, ordered_of_serialized serialized, fun c' later => ?_⟩
  obtain ⟨log', s', more, serialized'⟩ := serialized.steps later
  exact ⟨log', more, ordered_of_serialized serialized'⟩

/-! ## A read beside a report -/

/-- A report comes in; while its handler holds the lock a read arrives, and it gets the lock when
the report has been stored. -/
def readMoves : List (Move (Locking (Call ℕ) (Handler ℕ))) :=
  [.spawn ⟨.setMonitorInfo (.named "web".toList), .outside, .initial⟩, .advance 0, .advance 0,
    .spawn ⟨.getMonitorInfo, .outside, .initial⟩, .advance 0, .advance 0, .advance 1, .advance 1,
    .advance 1]

/-- The configuration after `readMoves`. -/
def readEnd : Configuration (Guarded (RpcServerImpl ℕ)) (Locking (Call ℕ) (Handler ℕ)) :=
  (play (lockedExec handle) readMoves (⟨false, .initial⟩, [])).getD (⟨false, .initial⟩, [])

theorem handlers_linearizable_read : ∃ log, Ordered readEnd log ∧
    (1, .getMonitorInfo, ⟨1, [.named "web".toList]⟩) ∈ log := by
  have played : play (lockedExec handle) readMoves (⟨false, .initial⟩, []) = some readEnd := by
    rfl
  have starts : ∀ t, Move.spawn t ∈ readMoves → Arrives t := by
    intro t member
    simp [readMoves] at member
    rcases member with rfl | rfl
    · exact ⟨rfl, rfl⟩
    · exact ⟨rfl, rfl⟩
  obtain ⟨log, ordered, _⟩ := handlers_linearizable (Steps.of_play starts played)
  exact ⟨log, ordered, (ordered.finished _ _ _).mpr rfl⟩

end LinuxMonitor.Rpc
