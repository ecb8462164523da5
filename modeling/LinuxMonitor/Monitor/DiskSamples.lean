import LinuxMonitor.Library.Baseline
import LinuxMonitor.Monitor.DiskMonitor

/-!
# The samples of one disk

Over a run of `updateOnce` a device is compared with its own previous sample, whatever other
devices stand in the files, although sample and time are kept in two maps.

* `reported_eq_alone`: what is reported for a device depends on its own samples alone.
* `lookup_run`: what is stored for a device is its last sample.
-/

set_option autoImplicit false

namespace LinuxMonitor.Monitor.DiskMonitor

open Library

/-! ## Runs -/

/-- What one call of `updateOnce` meets: the second that `::time` returns and the content of
`/proc/diskstats`. -/
structure Call where
  now : ℤ
  diskstats : Text

/-- The messages of each call of a run, and the state after it. -/
def run : List Call → State → List (List (Proto.DiskInfo ℚ)) × State
  | [], state => ([], state)
  | call :: calls, state =>
      let (messages, state) := updateOnce call.now call.diskstats state
      let (later, final) := run calls state
      (messages :: later, final)

/-- The messages about one device over a run of a new monitor. -/
def reported (name : Text) (calls : List Call) : List (Proto.DiskInfo ℚ) :=
  (run calls .initial).1.flatten.filter fun m => m.name = name

/-- The counters of a device and the second at which they were read. -/
structure Sample where
  now : ℤ
  info : DiskInfo
deriving DecidableEq, Repr

/-- The samples of the given lines. -/
def lineSamples (now : ℤ) (table : List Text) : List (Text × Sample) :=
  ((table.map parseLine).filter fun curr => !isVirtualDisk curr.name).map
    fun curr => (curr.name, ⟨now, curr⟩)

def Call.samples (call : Call) : List (Text × Sample) :=
  lineSamples call.now (lines call.diskstats)

/-- The samples of one device over a run. -/
def samplesOf (name : Text) (calls : List Call) : List Sample :=
  ofKey name (calls.flatMap Call.samples)

/-- The message of a sample, given the one before it. -/
def report (last : Option Sample) (current : Sample) : Proto.DiskInfo ℚ :=
  message current.info
    (match last with
    | some last =>
        let dt : ℚ := current.now - last.now
        if dt > 0 then ratesOver dt current.info last.info else .zero
    | none => .zero)

/-! ## The two maps -/

/-- Together the two maps hold the samples of the cache. -/
def State.Holds (state : State) (cache : AList fun _ : Text => Sample) : Prop :=
  ∀ name, state.previousDiskStats.lookup name = (cache.lookup name).map Sample.info ∧
    state.lastTime.lookup name = (cache.lookup name).map Sample.now

theorem State.holds_initial : State.initial.Holds ∅ := fun _ => ⟨rfl, rfl⟩

theorem State.Holds.store {state : State} {cache : AList fun _ : Text => Sample}
    (holds : state.Holds cache) (now : ℤ) (curr : DiskInfo) :
    (store now curr state).Holds (cache.insert curr.name ⟨now, curr⟩) := by
  intro name
  by_cases same : name = curr.name
  · subst same
    simp [DiskMonitor.store]
  · simpa [DiskMonitor.store, AList.lookup_insert_ne same] using holds name

theorem State.Holds.message_rates {state : State} {cache : AList fun _ : Text => Sample}
    (holds : state.Holds cache) (now : ℤ) (curr : DiskInfo) :
    message curr (rates now state curr) = report (cache.lookup curr.name) ⟨now, curr⟩ := by
  obtain ⟨stats, time⟩ := holds curr.name
  rw [rates, stats, time]
  cases cache.lookup curr.name <;> rfl

/-- The loop over the lines is a sweep over their samples. -/
theorem State.Holds.updateLines {state : State} {cache : AList fun _ : Text => Sample}
    (holds : state.Holds cache) (now : ℤ) (table : List Text) :
    (updateLines now table state).1 =
        (sweep report (lineSamples now table) cache).1.map Prod.snd ∧
      (updateLines now table state).2.Holds (sweep report (lineSamples now table) cache).2 := by
  induction table generalizing state cache with
  | nil => exact ⟨rfl, holds⟩
  | cons line others ih =>
      by_cases hidden : isVirtualDisk (parseLine line).name = true
      · have skipped : lineSamples now (line :: others) = lineSamples now others := by
          simp [lineSamples, hidden]
        rw [skipped, DiskMonitor.updateLines]
        simp only [hidden, if_true]
        exact ih holds
      · have visited : lineSamples now (line :: others) =
            ((parseLine line).name, ⟨now, parseLine line⟩) :: lineSamples now others := by
          simp [lineSamples, hidden]
        obtain ⟨messages, final⟩ := ih (holds.store now (parseLine line))
        rw [visited, sweep_cons, DiskMonitor.updateLines]
        simp only [hidden, Bool.false_eq_true, if_false]
        exact ⟨congrArg₂ _ (holds.message_rates now (parseLine line)) messages, final⟩

/-- A run is one sweep over the samples of its calls. -/
theorem State.Holds.run {calls : List Call} {state : State}
    {cache : AList fun _ : Text => Sample} (holds : state.Holds cache) :
    (run calls state).1.flatten =
        (sweep report (calls.flatMap Call.samples) cache).1.map Prod.snd ∧
      (run calls state).2.Holds (sweep report (calls.flatMap Call.samples) cache).2 := by
  induction calls generalizing state cache with
  | nil => exact ⟨rfl, holds⟩
  | cons call calls ih =>
      obtain ⟨messages, stored⟩ := holds.updateLines call.now (lines call.diskstats)
      obtain ⟨later, final⟩ := ih stored
      rw [List.flatMap_cons, sweep_append, List.map_append]
      exact ⟨congrArg₂ _ messages later, final⟩

/-! ## One device -/

/-- The samples of a file that the kernel has printed. -/
theorem samples_procDiskstats (now : ℤ) (table : List DiskstatsLine) :
    (Call.mk now (procDiskstats table)).samples =
      (visible table).map fun l => (l.name, ⟨now, l.firstNine⟩) := by
  have parsed : parseLine ∘ DiskstatsLine.render = DiskstatsLine.firstNine :=
    funext parseLine_render
  rw [Call.samples, lines_procDiskstats, lineSamples, List.map_map, parsed, List.filter_map,
    List.map_map]
  rfl

theorem name_of_mem_samples {call : Call} {sample : Text × Sample}
    (member : sample ∈ call.samples) : sample.2.info.name = sample.1 := by
  obtain ⟨curr, _, rfl⟩ := List.mem_map.mp member
  rfl

theorem now_of_mem_samples {call : Call} {sample : Text × Sample}
    (member : sample ∈ call.samples) : sample.2.now = call.now := by
  obtain ⟨curr, _, rfl⟩ := List.mem_map.mp member
  rfl

/-- **What is reported for a device depends on its own samples alone.** -/
theorem reported_eq_alone (name : Text) (calls : List Call) :
    reported name calls = alone report none (samplesOf name calls) := by
  have named : ∀ output ∈ (sweep report (calls.flatMap Call.samples) ∅).1,
      output.2.name = output.1 := by
    intro output member
    obtain ⟨sample, inside, previous, rfl⟩ := exists_of_mem_sweep member
    obtain ⟨call, _, here⟩ := List.mem_flatMap.mp inside
    exact name_of_mem_samples here
  rw [reported, State.holds_initial.run.1, ← ofKey_eq_filter named, ofKey_sweep, samplesOf]
  rfl

/-- **What is stored for a device is its last sample.** -/
theorem lookup_run (name : Text) (calls : List Call) :
    (run calls .initial).2.previousDiskStats.lookup name =
      (samplesOf name calls).getLast?.map Sample.info := by
  rw [(State.holds_initial.run.2 name).1, lookup_sweep, samplesOf]
  exact congrArg _ Option.or_none

/-- The samples of a device are read at times in the order of the calls. -/
theorem samplesOf_ordered (name : Text) {calls : List Call}
    (ordered : calls.Pairwise fun a b => a.now ≤ b.now) :
    (samplesOf name calls).Pairwise fun a b => a.now ≤ b.now := by
  induction calls with
  | nil => exact .nil
  | cons call calls ih =>
      obtain ⟨first, rest⟩ := List.pairwise_cons.mp ordered
      have split : samplesOf name (call :: calls) =
          ofKey name call.samples ++ samplesOf name calls := ofKey_append _ _ _
      have here : ∀ a ∈ ofKey name call.samples, a.now = call.now := by
        intro a member
        obtain ⟨sample, inside, rfl⟩ := List.mem_map.mp member
        exact now_of_mem_samples (List.mem_of_mem_filter inside)
      rw [split, List.pairwise_append]
      refine ⟨?_, ih rest, ?_⟩
      · apply List.pairwise_of_forall_mem_list
        intro a memberA b memberB
        rw [here a memberA, here b memberB]
      · intro a memberA b memberB
        obtain ⟨sample, inside, rfl⟩ := List.mem_map.mp memberB
        obtain ⟨later, member, found⟩ := List.mem_flatMap.mp (List.mem_of_mem_filter inside)
        rw [here a memberA, now_of_mem_samples found]
        exact first later member

end LinuxMonitor.Monitor.DiskMonitor
