import Mathlib.Logic.Relation
import LinuxMonitor.Library.Resource

/-!
# Starting and stopping the monitoring

`main` constructs a `PerformanceMonitorClient`, which connects to the database, fetches and
stores once, starts the monitoring thread, waits for a signal, stops the monitoring and destroys
the client, which stops the monitoring again and disconnects.  The monitoring thread shares the
connection, the RPC client and the fetched data with the main thread.  Storing, and starting the
thread, may throw: an exception in the main thread destroys the client, one in the monitoring
thread is caught and followed by another round.

The queries of a call of `storeToDatabase` are taken from any set of plans; the two threads and
signals are interleaved in any way.  A step is a call that returns; one that never does is not
followed.  `monitoring_active_` and `stop_flag` are plain variables, which `stopMonitoring` writes
while the other thread may be in a round: a read of one is taken to give what was written last.

* `Control`: what each thread may be doing in each state of the other.
* `Inv.step`, `Reached.inv`: the invariant of a step and of a run.
* `lifecycle_safe`: **the threads never use the connection, the RPC client or the fetched data at
  the same time, the connection is used only while it is open and closed as often as opened, and
  no round is cut short by stopping.**
* `Takes.left_le`: behind the flag every step leaves one step less.
* `stops_within`: **once the flag is cleared the process is never stuck and exits after a bounded
  number of steps.**
-/

set_option autoImplicit false

namespace LinuxMonitor.PerformanceServer.Lifecycle

open Library

/-! ## The two threads -/

/-- Where the main thread is.  `stopMonitoring` is called by `main` and again by the
destructor. -/
inductive MainPc (σ : Type) where
  | constructing
  | initializing
  | connecting
  | fetching
  | storing (rest : List σ)
  | starting
  | creating
  | waiting
  | stopping (destroying : Bool)
  | joining (destroying : Bool)
  | disconnecting
  | exited
deriving DecidableEq, Repr

/-- Where the monitoring thread is. -/
inductive WorkerPc (σ : Type) where
  | checking
  | fetching
  | storing (rest : List σ)
  | sleeping (seconds : ℕ)
  | recovering
  | ended
deriving DecidableEq, Repr

/-- What is acquired and released: `mysql_conn_` and `monitoring_thread_`. -/
inductive Resource where
  | connection
  | thread
deriving DecidableEq, Repr

/-- The process.  `ops` is what was done with the resources, `begun` the queries of each call of
`storeToDatabase` that has begun, `sent` the queries sent, and `cut` tells whether an exception
has ended such a call. -/
structure Process (σ : Type) where
  main : MainPc σ
  worker : Option (WorkerPc σ)
  monitoringActive : Bool
  stopFlag : Bool
  connected : Bool
  failed : Bool
  ops : List (Op Resource)
  begun : List (List σ)
  sent : List σ
  cut : Bool

variable {σ : Type}

/-- The process when `main` begins. -/
def Process.initial : Process σ :=
  ⟨.constructing, none, false, false, false, false, [], [], [], false⟩

/-- Where the main thread is behind a call of `stopMonitoring`. -/
def afterStop : Bool → MainPc σ
  | false => .stopping true
  | true => .disconnecting

/-- The main thread takes a step. -/
inductive MainStep (plans : List σ → Prop) : Process σ → Process σ → Prop where
  | construct {p : Process σ} (here : p.main = .constructing) :
      MainStep plans p { p with main := .initializing }
  | constructThrows {p : Process σ} (here : p.main = .constructing) :
      MainStep plans p { p with main := .exited, failed := true }
  | initFails {p : Process σ} (here : p.main = .initializing) :
      MainStep plans p { p with main := .fetching }
  | init {p : Process σ} (here : p.main = .initializing) :
      MainStep plans p
        { p with main := .connecting, connected := true, ops := p.ops ++ [.acquire .connection] }
  | connectFails {p : Process σ} (here : p.main = .connecting) :
      MainStep plans p
        { p with main := .fetching, connected := false, ops := p.ops ++ [.release .connection] }
  | connect {p : Process σ} (here : p.main = .connecting) :
      MainStep plans p { p with main := .fetching, ops := p.ops ++ [.use .connection] }
  | fetchFails {p : Process σ} (here : p.main = .fetching) :
      MainStep plans p { p with main := .starting }
  | storeUnconnected {p : Process σ} (here : p.main = .fetching) (closed : p.connected = false) :
      MainStep plans p { p with main := .starting }
  | store {p : Process σ} {queries : List σ} (here : p.main = .fetching)
      (opened : p.connected = true) (plan : plans queries) :
      MainStep plans p { p with main := .storing queries, begun := p.begun ++ [queries] }
  | query {p : Process σ} {q : σ} {rest : List σ} (here : p.main = .storing (q :: rest)) :
      MainStep plans p
        { p with main := .storing rest, ops := p.ops ++ [.use .connection], sent := p.sent ++ [q] }
  | stored {p : Process σ} (here : p.main = .storing []) :
      MainStep plans p { p with main := .starting }
  | storeThrows {p : Process σ} {rest : List σ} (here : p.main = .storing rest) :
      MainStep plans p { p with main := .stopping true, failed := true, cut := true }
  | startActive {p : Process σ} (here : p.main = .starting) (active : p.monitoringActive = true) :
      MainStep plans p { p with main := .waiting }
  | start {p : Process σ} (here : p.main = .starting) (idle : p.monitoringActive = false) :
      MainStep plans p { p with main := .creating, monitoringActive := true }
  | createThrows {p : Process σ} (here : p.main = .creating) :
      MainStep plans p { p with main := .stopping true, failed := true }
  | create {p : Process σ} (here : p.main = .creating) :
      MainStep plans p
        { p with main := .waiting, worker := some .checking, ops := p.ops ++ [.acquire .thread] }
  | wait {p : Process σ} (here : p.main = .waiting) (running : p.stopFlag = false) :
      MainStep plans p p
  | signalled {p : Process σ} (here : p.main = .waiting) (stop : p.stopFlag = true) :
      MainStep plans p { p with main := .stopping false }
  | stopIdle {p : Process σ} {destroying : Bool} (here : p.main = .stopping destroying)
      (idle : p.monitoringActive = false) : MainStep plans p { p with main := afterStop destroying }
  | stopUnjoinable {p : Process σ} {destroying : Bool} (here : p.main = .stopping destroying)
      (active : p.monitoringActive = true) (none : p.worker = none) :
      MainStep plans p { p with main := afterStop destroying, monitoringActive := false }
  | stop {p : Process σ} {destroying : Bool} (here : p.main = .stopping destroying)
      (active : p.monitoringActive = true) (joinable : p.worker.isSome) :
      MainStep plans p { p with main := .joining destroying, monitoringActive := false }
  | join {p : Process σ} {destroying : Bool} (here : p.main = .joining destroying)
      (ended : p.worker = some .ended) :
      MainStep plans p
        { p with main := afterStop destroying, worker := none, ops := p.ops ++ [.release .thread] }
  | disconnectNull {p : Process σ} (here : p.main = .disconnecting) (closed : p.connected = false) :
      MainStep plans p { p with main := .exited }
  | disconnect {p : Process σ} (here : p.main = .disconnecting) (opened : p.connected = true) :
      MainStep plans p
        { p with main := .exited, connected := false, ops := p.ops ++ [.release .connection] }

/-- The monitoring thread takes a step. -/
inductive WorkerStep (plans : List σ → Prop) (interval : ℕ) : Process σ → Process σ → Prop where
  | enter {p : Process σ} (here : p.worker = some .checking) (active : p.monitoringActive = true) :
      WorkerStep plans interval p { p with worker := some .fetching }
  | leave {p : Process σ} (here : p.worker = some .checking) (idle : p.monitoringActive = false) :
      WorkerStep plans interval p { p with worker := some .ended }
  | fetchFails {p : Process σ} (here : p.worker = some .fetching) :
      WorkerStep plans interval p { p with worker := some (.sleeping 0) }
  | storeUnconnected {p : Process σ} (here : p.worker = some .fetching)
      (closed : p.connected = false) :
      WorkerStep plans interval p { p with worker := some (.sleeping 0) }
  | store {p : Process σ} {queries : List σ} (here : p.worker = some .fetching)
      (opened : p.connected = true) (plan : plans queries) :
      WorkerStep plans interval p
        { p with worker := some (.storing queries), begun := p.begun ++ [queries] }
  | query {p : Process σ} {q : σ} {rest : List σ} (here : p.worker = some (.storing (q :: rest))) :
      WorkerStep plans interval p
        { p with
          worker := some (.storing rest), ops := p.ops ++ [.use .connection]
          sent := p.sent ++ [q] }
  | stored {p : Process σ} (here : p.worker = some (.storing [])) :
      WorkerStep plans interval p { p with worker := some (.sleeping 0) }
  | storeThrows {p : Process σ} {rest : List σ} (here : p.worker = some (.storing rest)) :
      WorkerStep plans interval p { p with worker := some .recovering, cut := true }
  | sleep {p : Process σ} {seconds : ℕ} (here : p.worker = some (.sleeping seconds))
      (more : seconds < interval) (active : p.monitoringActive = true) :
      WorkerStep plans interval p { p with worker := some (.sleeping (seconds + 1)) }
  | wake {p : Process σ} {seconds : ℕ} (here : p.worker = some (.sleeping seconds))
      (rested : ¬ (seconds < interval ∧ p.monitoringActive = true)) :
      WorkerStep plans interval p { p with worker := some .checking }
  | recover {p : Process σ} (here : p.worker = some .recovering) :
      WorkerStep plans interval p { p with worker := some .checking }

/-- One of the threads takes a step. -/
def ProgramStep (plans : List σ → Prop) (interval : ℕ) (p p' : Process σ) : Prop :=
  MainStep plans p p' ∨ WorkerStep plans interval p p'

/-- A step of the program, or a signal. -/
def Step (plans : List σ → Prop) (interval : ℕ) (p p' : Process σ) : Prop :=
  ProgramStep plans interval p p' ∨ p' = { p with stopFlag := true }

/-- What can come about from the beginning of `main`. -/
def Reached (plans : List σ → Prop) (interval : ℕ) (p : Process σ) : Prop :=
  Relation.ReflTransGen (Step plans interval) .initial p

/-! ## What each thread may do beside the other -/

/-- The monitoring thread is there, uses the connection only while it is open, and has not ended
unless it was told to. -/
def Working (p : Process σ) (active : Bool) : Prop :=
  p.monitoringActive = active ∧ ∃ w, p.worker = some w ∧
    (active = true → w ≠ .ended) ∧ ∀ rest, w = .storing rest → p.connected = true

/-- There is no monitoring thread. -/
def Alone (p : Process σ) (active : Bool) : Prop :=
  p.monitoringActive = active ∧ p.worker = none

/-- The state of the monitoring thread and of the connection, by the state of the main thread. -/
def Control (p : Process σ) : Prop :=
  match p.main with
  | .constructing => Alone p false ∧ p.connected = false
  | .initializing => Alone p false ∧ p.connected = false
  | .connecting => Alone p false ∧ p.connected = true
  | .fetching => Alone p false
  | .storing _ => Alone p false ∧ p.connected = true
  | .starting => Alone p false
  | .creating => Alone p true
  | .waiting => Working p true
  | .stopping false => Working p true
  | .stopping true => p.worker = none
  | .joining _ => Working p false
  | .disconnecting => Alone p false
  | .exited => Alone p false ∧ p.connected = false

/-- What the main thread still has to send. -/
def MainPc.rest : MainPc σ → List σ
  | .storing rest => rest
  | _ => []

/-- What the monitoring thread still has to send. -/
def WorkerPc.rest : WorkerPc σ → List σ
  | .storing rest => rest
  | _ => []

/-- The queries that the present call of `storeToDatabase` still has to send. -/
def pending (p : Process σ) : List σ := p.main.rest ++ p.worker.elim [] WorkerPc.rest

/-- What holds in every state of a run. -/
structure Inv (plans : List σ → Prop) (p : Process σ) : Prop where
  control : Control p
  connection : track .connection false p.ops = some p.connected
  thread : track .thread false p.ops = some p.worker.isSome
  complete : p.cut = false → p.sent ++ pending p = p.begun.flatten
  planned : pending p ≠ [] → ∃ queries, plans queries ∧ pending p <:+ queries

variable {plans : List σ → Prop} {interval : ℕ} {p p' : Process σ}

theorem inv_initial : Inv plans (Process.initial : Process σ) :=
  ⟨⟨⟨rfl, rfl⟩, rfl⟩, rfl, rfl, fun _ => rfl, fun some => absurd rfl some⟩

theorem afterStop_rest (destroying : Bool) : (afterStop destroying : MainPc σ).rest = [] := by
  cases destroying <;> rfl

/-! ## The main thread -/

theorem MainStep.control (step : MainStep plans p p') (control : Control p) : Control p' := by
  cases step with
  | @stop destroying here active joinable =>
      unfold Control at control ⊢
      cases destroying with
      | false =>
          rw [here] at control
          obtain ⟨_, w, found, _, stores⟩ := control
          exact ⟨rfl, w, found, nofun, stores⟩
      | true =>
          rw [here] at control
          simp_all
  | @stopIdle destroying here idle =>
      unfold Control at control ⊢
      cases destroying <;> simp_all [Alone, Working, afterStop]
  | @stopUnjoinable destroying here active none =>
      unfold Control at control ⊢
      cases destroying <;> simp_all [Alone, Working, afterStop]
  | @join destroying here ended =>
      unfold Control at control ⊢
      cases destroying <;> simp_all [Alone, Working, afterStop]
  | _ =>
      unfold Control at control ⊢
      simp_all [Alone, Working]

/-- The main thread opens the connection when it is closed, and uses and closes it when it is
open. -/
theorem MainStep.connection (step : MainStep plans p p') (control : Control p)
    (connection : track .connection false p.ops = some p.connected) :
    track .connection false p'.ops = some p'.connected := by
  unfold Control at control
  cases step with
  | init here | connectFails here | connect here | query here | create here | join here ended
  | disconnect here opened =>
      rw [track_append, connection]
      simp_all [Alone, Working, Op.step]
  | _ => exact connection

/-- The main thread starts the monitoring thread when there is none, and joins it when there
is one. -/
theorem MainStep.thread (step : MainStep plans p p') (control : Control p)
    (thread : track .thread false p.ops = some p.worker.isSome) :
    track .thread false p'.ops = some p'.worker.isSome := by
  unfold Control at control
  cases step with
  | init here | connectFails here | connect here | query here | create here | join here ended
  | disconnect here opened =>
      rw [track_append, thread]
      simp_all [Alone, Working, Op.step]
  | _ => exact thread

theorem MainStep.complete (step : MainStep plans p p') (control : Control p)
    (complete : p.cut = false → p.sent ++ pending p = p.begun.flatten) :
    p'.cut = false → p'.sent ++ pending p' = p'.begun.flatten := by
  intro whole
  unfold Control at control
  cases step with
  | stopIdle here idle =>
      rw [← complete whole]
      simp [pending, here, afterStop_rest, MainPc.rest.eq_2]
  | stopUnjoinable here active none =>
      rw [← complete whole]
      simp [pending, here, afterStop_rest, MainPc.rest.eq_2]
  | join here ended =>
      rw [← complete whole]
      simp [pending, here, ended, afterStop_rest, MainPc.rest.eq_2, WorkerPc.rest.eq_2]
  | _ => simp_all [pending, MainPc.rest, WorkerPc.rest, Alone]

/-- What is pending after a step of the main thread was pending before, unless a call of
`storeToDatabase` begins. -/
theorem MainStep.pending_suffix (step : MainStep plans p p') (control : Control p) :
    pending p' <:+ pending p ∨ plans (pending p') := by
  unfold Control at control
  cases step with
  | store here opened plan =>
      right
      rw [here] at control
      simpa [pending, MainPc.rest, control.2] using plan
  | query here => simp_all [pending, MainPc.rest, Alone]
  | stopIdle here idle => simp [pending, here, afterStop_rest, MainPc.rest.eq_2]
  | stopUnjoinable here active none => simp [pending, here, afterStop_rest, MainPc.rest.eq_2]
  | join here ended => simp [pending, here, afterStop_rest, MainPc.rest.eq_2]
  | _ => simp_all [pending, MainPc.rest, WorkerPc.rest, Alone]

/-! ## The monitoring thread -/

theorem WorkerStep.control (step : WorkerStep plans interval p p') (control : Control p) :
    Control p' := by
  cases step <;> unfold Control at control ⊢ <;> split at control <;> simp_all [Alone, Working]

/-- The monitoring thread uses the connection when it is open. -/
theorem WorkerStep.connection (step : WorkerStep plans interval p p') (control : Control p)
    (connection : track .connection false p.ops = some p.connected) :
    track .connection false p'.ops = some p'.connected := by
  cases step with
  | query here =>
      unfold Control at control
      rw [track_append, connection]
      split at control <;> simp_all [Alone, Working, Op.step]
  | _ => exact connection

theorem WorkerStep.thread (step : WorkerStep plans interval p p')
    (thread : track .thread false p.ops = some p.worker.isSome) :
    track .thread false p'.ops = some p'.worker.isSome := by
  cases step with
  | query here =>
      rw [track_append, thread]
      simp [here, Op.step]
  | _ => simp_all

/-- While the main thread sends queries there is no monitoring thread. -/
theorem Control.one_pending (control : Control p) : p.main.rest = [] ∨ p.worker = none := by
  unfold Control at control
  split at control <;> simp_all [MainPc.rest, Alone]

theorem WorkerStep.complete (step : WorkerStep plans interval p p') (control : Control p)
    (complete : p.cut = false → p.sent ++ pending p = p.begun.flatten) :
    p'.cut = false → p'.sent ++ pending p' = p'.begun.flatten := by
  intro whole
  have one := control.one_pending
  cases step <;> simp_all [pending, WorkerPc.rest]

theorem WorkerStep.pending_suffix (step : WorkerStep plans interval p p') (control : Control p) :
    pending p' <:+ pending p ∨ plans (pending p') := by
  have one := control.one_pending
  cases step <;> simp_all [pending, WorkerPc.rest]

/-! ## Whole runs -/

/-- What a step keeps of the queries' plans. -/
theorem planned_of_suffix (planned : pending p ≠ [] → ∃ queries, plans queries ∧
    pending p <:+ queries) (step : pending p' <:+ pending p ∨ plans (pending p')) :
    pending p' ≠ [] → ∃ queries, plans queries ∧ pending p' <:+ queries := by
  intro some
  rcases step with suffix | plan
  · have before : pending p ≠ [] := fun none => some (List.suffix_nil.mp (none ▸ suffix))
    obtain ⟨queries, plan, within⟩ := planned before
    exact ⟨queries, plan, suffix.trans within⟩
  · exact ⟨_, plan, List.suffix_refl _⟩

/-- **Every step keeps the invariant.** -/
theorem Inv.step (inv : Inv plans p) (step : Step plans interval p p') : Inv plans p' := by
  rcases step with (main | worker) | rfl
  · exact {
      control := main.control inv.control
      connection := main.connection inv.control inv.connection
      thread := main.thread inv.control inv.thread
      complete := main.complete inv.control inv.complete
      planned := planned_of_suffix inv.planned (main.pending_suffix inv.control) }
  · exact {
      control := worker.control inv.control
      connection := worker.connection inv.control inv.connection
      thread := worker.thread inv.thread
      complete := worker.complete inv.control inv.complete
      planned := planned_of_suffix inv.planned (worker.pending_suffix inv.control) }
  · exact ⟨inv.control, inv.connection, inv.thread, inv.complete, inv.planned⟩

theorem Reached.inv (reached : Reached plans interval p) : Inv plans p := by
  induction reached with
  | refl => exact inv_initial
  | tail _ step ih => exact ih.step step

/-- The main thread is where it uses the connection, the RPC client or the fetched data.  Starting
and stopping the monitoring uses none of them, only the flag and the thread. -/
def MainPc.usesShared : MainPc σ → Bool
  | .initializing | .connecting | .fetching | .storing _ | .disconnecting => true
  | _ => false

/-- The monitoring thread is where it uses them. -/
def WorkerPc.usesShared : WorkerPc σ → Bool
  | .fetching | .storing _ => true
  | _ => false

/-- While the main thread uses what the threads share there is no monitoring thread. -/
theorem Control.exclusive (control : Control p) (uses : p.main.usesShared = true) :
    p.worker = none := by
  unfold Control at control
  split at control <;> simp_all [MainPc.usesShared, Alone]

/-- **The two threads never use the connection, the RPC client or the fetched data at the same
time, the connection is used only while it is open, the monitoring thread is joined once, both are
gone when the process exits, and the queries of every round are sent completely and in order unless
an exception ends the round.** -/
theorem lifecycle_safe (reached : Reached plans interval p) :
    ¬ (p.main.usesShared = true ∧ ∃ w, p.worker = some w ∧ w.usesShared = true) ∧
    (∀ r, Disciplined r p.ops) ∧
    (p.main = .exited → ∀ r, acquisitions r p.ops = releases r p.ops) ∧
    (p.cut = false → p.sent <+: p.begun.flatten ∧
      (p.main = .exited → p.sent = p.begun.flatten)) := by
  have inv := reached.inv
  have tracked : ∀ r, ∃ held, track r false p.ops = some held ∧
      (p.main = .exited → held = false) := by
    have control := inv.control
    unfold Control at control
    intro r
    cases r with
    | connection => exact ⟨_, inv.connection, fun exited => by simp_all⟩
    | thread => exact ⟨_, inv.thread, fun exited => by simp_all [Alone]⟩
  refine ⟨?_, fun r => ?_, fun exited r => ?_, fun whole => ⟨⟨_, inv.complete whole⟩, ?_⟩⟩
  · rintro ⟨main, w, found, _⟩
    rw [inv.control.exclusive main] at found
    cases found
  · obtain ⟨held, follow, _⟩ := tracked r
    exact Option.isSome_iff_exists.mpr ⟨held, follow⟩
  · obtain ⟨held, follow, none⟩ := tracked r
    have balance := acquisitions_of_track follow
    rwa [none exited] at balance
  · intro exited
    have control := inv.control
    unfold Control at control
    rw [exited] at control
    rw [← inv.complete whole, pending, exited, control.1.2]
    exact (List.append_nil _).symm

/-- The process as `stopMonitoring` waits for a monitoring thread that has sent one of two
queries. -/
def joining : Process ℕ where
  main := .joining false
  worker := some (.storing [2])
  monitoringActive := false
  stopFlag := true
  connected := true
  failed := false
  ops := [.acquire .connection, .use .connection, .acquire .thread, .use .connection]
  begun := [[1, 2]]
  sent := [1]
  cut := false

theorem reached_joining : Reached (· = [1, 2]) 60 joining := by
  have started : Reached (· = [1, 2]) 60
      { joining with
        main := .waiting, worker := some .checking, monitoringActive := true, stopFlag := false
        ops := [.acquire .connection, .use .connection, .acquire .thread]
        begun := [], sent := [] } :=
    ((((((Relation.ReflTransGen.refl.tail (.inl (.inl (.construct rfl)))).tail
      (.inl (.inl (.init rfl)))).tail (.inl (.inl (.connect rfl)))).tail
      (.inl (.inl (.fetchFails rfl)))).tail (.inl (.inl (.start rfl rfl)))).tail
      (.inl (.inl (.create rfl))))
  exact (((((started.tail (.inl (.inr (.enter rfl rfl)))).tail
    (.inl (.inr (.store rfl rfl rfl)))).tail (.inl (.inr (.query rfl)))).tail (.inr rfl)).tail
    (.inl (.inl (.signalled rfl rfl)))).tail (.inl (.inl (.stop rfl rfl rfl)))

theorem lifecycle_safe_joining :
    (∀ r, Disciplined r joining.ops) ∧ joining.sent <+: joining.begun.flatten :=
  ⟨(lifecycle_safe reached_joining).2.1, ((lifecycle_safe reached_joining).2.2.2 rfl).1⟩

/-! ## Stopping -/

/-- The main thread has cleared the flag, or will destroy the client. -/
def MainPc.stopped : MainPc σ → Bool
  | .joining _ | .stopping true | .disconnecting | .exited => true
  | _ => false

/-- How many steps are left to the main thread. -/
def MainPc.left : MainPc σ → ℕ
  | .joining false => 3
  | .stopping true | .joining true => 2
  | .disconnecting => 1
  | _ => 0

/-- How many steps are left to the monitoring thread, if a round has at most `limit` queries. -/
def WorkerPc.left (limit : ℕ) : WorkerPc σ → ℕ
  | .ended => 0
  | .checking => 1
  | .sleeping _ | .recovering => 2
  | .storing rest => rest.length + 3
  | .fetching => limit + 4

/-- How many steps are left. -/
def Process.left (limit : ℕ) (p : Process σ) : ℕ := p.main.left + p.worker.elim 0 (·.left limit)

/-- A run in which the program takes `n` steps, among any number of signals. -/
inductive Takes (plans : List σ → Prop) (interval : ℕ) (p : Process σ) : ℕ → Process σ → Prop where
  | none : Takes plans interval p 0 p
  | step {n : ℕ} {p' p'' : Process σ} (run : Takes plans interval p n p')
      (step : ProgramStep plans interval p' p'') : Takes plans interval p (n + 1) p''
  | signal {n : ℕ} {p' : Process σ} (run : Takes plans interval p n p') :
      Takes plans interval p n { p' with stopFlag := true }

theorem Takes.reached {n : ℕ} (reached : Reached plans interval p)
    (run : Takes plans interval p n p') : Reached plans interval p' := by
  induction run with
  | none => exact reached
  | step _ step ih => exact ih.tail (.inl step)
  | signal _ ih => exact ih.tail (.inr rfl)

/-- Behind the flag a step of the main thread leaves one step less. -/
theorem MainStep.left_lt {limit : ℕ} (step : MainStep plans p p') (control : Control p)
    (stopped : p.main.stopped = true) :
    p'.main.stopped = true ∧ p'.left limit < p.left limit := by
  unfold Control at control
  cases step with
  | @join destroying here ended =>
      cases destroying <;>
        simp [Process.left, here, ended, afterStop, MainPc.stopped, MainPc.left, WorkerPc.left]
  | @stopIdle destroying here idle =>
      cases destroying <;> simp_all [Process.left, afterStop, MainPc.stopped, MainPc.left]
  | @stopUnjoinable destroying here active none =>
      cases destroying <;> simp_all [Process.left, afterStop, MainPc.stopped, MainPc.left]
  | @stop destroying here active joinable =>
      cases destroying <;> simp_all [MainPc.stopped]
  | _ => simp_all [Process.left, MainPc.stopped, MainPc.left]

/-- Behind the flag a step of the monitoring thread leaves one step less. -/
theorem WorkerStep.left_lt {limit : ℕ} (step : WorkerStep plans interval p p')
    (control : Control p) (stopped : p.main.stopped = true)
    (bounded : ∀ queries, plans queries → queries.length ≤ limit) :
    p'.main.stopped = true ∧ p'.left limit < p.left limit := by
  have idle : p.worker = none ∨ p.monitoringActive = false := by
    unfold Control at control
    split at control <;> simp_all [MainPc.stopped, Working, Alone]
  cases step with
  | @store queries here opened plan =>
      have short := bounded queries plan
      refine ⟨stopped, ?_⟩
      simp only [Process.left, here, Option.elim_some, WorkerPc.left]
      omega
  | _ => simp_all [Process.left, WorkerPc.left]

/-- A run from behind the flag stays there, and every step leaves one step less. -/
theorem Takes.left_le {n limit : ℕ} (reached : Reached plans interval p)
    (stopped : p.main.stopped = true)
    (bounded : ∀ queries, plans queries → queries.length ≤ limit)
    (run : Takes plans interval p n p') :
    p'.main.stopped = true ∧ n + p'.left limit ≤ p.left limit := by
  induction run with
  | none => exact ⟨stopped, (Nat.zero_add _).symm ▸ Nat.le_refl _⟩
  | @step n middle last run step ih =>
      have control := (run.reached reached).inv.control
      have less : last.main.stopped = true ∧ last.left limit < middle.left limit := by
        rcases step with main | worker
        · exact main.left_lt control ih.1
        · exact worker.left_lt control ih.1 bounded
      exact ⟨less.1, by omega⟩
  | signal _ ih => exact ih

/-- Behind the flag at most a fetch and the storing after it are left to the monitoring
thread. -/
theorem Reached.left_le {limit : ℕ} (reached : Reached plans interval p)
    (bounded : ∀ queries, plans queries → queries.length ≤ limit) : p.left limit ≤ limit + 7 := by
  have main : p.main.left ≤ 3 := by
    unfold MainPc.left
    split <;> omega
  have worker : p.worker.elim 0 (·.left limit) ≤ limit + 4 := by
    cases found : p.worker with
    | none => exact Nat.zero_le _
    | some w =>
        cases w with
        | storing rest =>
            have short : rest.length ≤ limit := by
              have inv := reached.inv
              have none : p.main.rest = [] :=
                inv.control.one_pending.resolve_right (by simp [found])
              have same : pending p = rest := by simp [pending, none, found, WorkerPc.rest]
              rcases eq_or_ne rest [] with rfl | some
              · exact Nat.zero_le _
              · obtain ⟨queries, plan, suffix⟩ := inv.planned (same ▸ some)
                exact Nat.le_trans (same ▸ suffix).length_le (bounded queries plan)
            simp only [Option.elim_some, WorkerPc.left]
            omega
        | _ => simp [WorkerPc.left]
  unfold Process.left
  omega

/-- Until the process exits one of the threads can take a step. -/
theorem Reached.progress (reached : Reached plans interval p) (running : p.main ≠ .exited) :
    ∃ p', ProgramStep plans interval p p' := by
  have control := reached.inv.control
  unfold Control at control
  cases here : p.main with
  | constructing => exact ⟨_, .inl (.construct here)⟩
  | initializing => exact ⟨_, .inl (.init here)⟩
  | connecting => exact ⟨_, .inl (.connect here)⟩
  | fetching => exact ⟨_, .inl (.fetchFails here)⟩
  | storing rest => exact ⟨_, .inl (.storeThrows here)⟩
  | starting =>
      rw [here] at control
      exact ⟨_, .inl (.start here control.1)⟩
  | creating => exact ⟨_, .inl (.create here)⟩
  | waiting =>
      cases stop : p.stopFlag with
      | false => exact ⟨_, .inl (.wait here stop)⟩
      | true => exact ⟨_, .inl (.signalled here stop)⟩
  | stopping destroying =>
      cases active : p.monitoringActive with
      | false => exact ⟨_, .inl (.stopIdle here active)⟩
      | true =>
          cases found : p.worker with
          | none => exact ⟨_, .inl (.stopUnjoinable here active found)⟩
          | some w => exact ⟨_, .inl (.stop here active (by simp [found]))⟩
  | joining destroying =>
      rw [here] at control
      obtain ⟨idle, w, found, -⟩ := control
      cases w with
      | checking => exact ⟨_, .inr (.leave found idle)⟩
      | fetching => exact ⟨_, .inr (.fetchFails found)⟩
      | storing rest => exact ⟨_, .inr (.storeThrows found)⟩
      | sleeping seconds => exact ⟨_, .inr (.wake found (by simp [idle]))⟩
      | recovering => exact ⟨_, .inr (.recover found)⟩
      | ended => exact ⟨_, .inl (.join here found)⟩
  | disconnecting =>
      cases opened : p.connected with
      | false => exact ⟨_, .inl (.disconnectNull here opened)⟩
      | true => exact ⟨_, .inl (.disconnect here opened)⟩
  | exited => exact absurd here running

/-- **Once `stopMonitoring` has cleared the flag, or an exception destroys the client, the
process is never stuck before it exits and takes at most seven steps more than a round has
queries.** -/
theorem stops_within {limit n : ℕ} (reached : Reached plans interval p)
    (stopped : p.main.stopped = true)
    (bounded : ∀ queries, plans queries → queries.length ≤ limit)
    (run : Takes plans interval p n p') :
    n ≤ limit + 7 ∧ (p'.main = .exited ∨ ∃ p'', ProgramStep plans interval p' p'') := by
  have left := run.left_le reached stopped bounded
  have most := reached.left_le bounded
  refine ⟨by omega, ?_⟩
  by_cases gone : p'.main = .exited
  · exact .inl gone
  · exact .inr ((run.reached reached).progress gone)

/-- The process in the end. -/
def joined : Process ℕ where
  main := .exited
  worker := none
  monitoringActive := false
  stopFlag := true
  connected := false
  failed := false
  ops := joining.ops ++ [.use .connection, .release .thread, .release .connection]
  begun := [[1, 2]]
  sent := [1, 2]
  cut := false

theorem takes_joined : Takes (· = [1, 2]) 60 joining 7 joined :=
  ((((((Takes.none.step (.inr (.query rfl))).step (.inr (.stored rfl))).step
    (.inr (.wake rfl (by decide)))).step (.inr (.leave rfl rfl))).step
    (.inl (.join rfl rfl))).step (.inl (.stopIdle rfl rfl))).step (.inl (.disconnect rfl rfl))

theorem stops_within_joining : (7 ≤ 2 + 7) ∧
    (joined.main = .exited ∨ ∃ p'', ProgramStep (· = [1, 2]) 60 joined p'') :=
  stops_within reached_joining rfl (fun queries plan => by simp [plan]) takes_joined

end LinuxMonitor.PerformanceServer.Lifecycle
