import LinuxMonitor.Bpf.MapRead
import LinuxMonitor.Monitor.NetMonitor
import LinuxMonitor.Monitor.NetWalk

/-!
# The interface rates while packets are counted

`UpdateOnce` reads the eBPF map while the programs count into it: packets arrive, executions
go on and entries are created between any two of its system calls and between any two words
that these copy.

* `liveStats_meets`: **whatever happens during a walk, it ends and is the walk over some view
  with all keys of its beginning, each with a count between those at its beginning and its
  end.**
* `run_of_sightings`: a run of `UpdateOnce` beside the traffic is a run over such views.
* `traffic_reported`: **the rates of an interface, each times its time, add up to what was
  counted between the first and the last call.**
-/

set_option autoImplicit false

namespace LinuxMonitor.Monitor.NetMonitor

open Library Bpf

/-! ## The walk -/

section Walk

variable {Cpu : Type} [DecidableEq Cpu] (possible : PossibleCpus Cpu)
  (indexToName : Int32 → Text) (total : IfCounters)

/-- The body of the walk for one key, which copies the key's slots. -/
def visitEntry (key : Int32) (stats : EbpfStats) : Loads (Traffic Cpu) Unit EbpfStats := do
  let found ← lookupElem possible key
  return visitKey ⟨[], fun _ => found, indexToName⟩ key stats

/-- `NetMonitor::ebpf_get_net_stats` beside the traffic.  The loop is given one turn more than
the map takes keys. -/
def liveStats : Loads (Traffic Cpu) Unit (Option EbpfStats) :=
  walkKeys Traffic.keys () (visitEntry possible indexToName) (maxEntries + 1) 0 ⟨∅, total⟩

/-- What is copied for a key adds up to a count between two moments. -/
def ReadDuring (before after : Traffic Cpu) (key : Int32) (values : List IfCounters) : Prop :=
  ∀ f, ReadsBetween (before.counted key f) (after.counted key f)
    (values.map fun slot => slot.get f).sum

/-- A view of the map that a walk between two moments can have had. -/
structure SeenDuring (before after : Traffic Cpu) (map : IfStatsView) : Prop where
  initial : ∀ key, before.stats.Has key → key ∈ map.view.keys
  final : ∀ key ∈ map.view.keys, after.stats.Has key
  values : ∀ key ∈ map.view.keys, ∃ values,
    map.view.lookupElem key = some values ∧ ReadDuring before after key values

/-- The statistics after the visits of some keys. -/
def visitsOf (lookup : Int32 → Option (List IfCounters)) (visited : List Int32) : EbpfStats :=
  visited.foldl (fun stats key => visitKey ⟨[], lookup, indexToName⟩ key stats) ⟨∅, total⟩

/-- The statistics of a walk in progress are those of a view of what it has visited. -/
structure Visits (start : Traffic Cpu) (visited : List Int32) (now : Traffic Cpu)
    (stats : EbpfStats) : Prop where
  happened : Traffic.Happened start now
  seen : ∃ lookup, stats = visitsOf indexToName total lookup visited ∧
    ∀ key ∈ visited, ∃ values, lookup key = some values ∧ ReadDuring start now key values

variable {possible indexToName total}

/-- A visit depends on what is looked up and resolved for its key. -/
theorem visitKey_congr {view view' : MapView} {key : Int32}
    (values : view.lookupElem key = view'.lookupElem key)
    (names : view.indexToName = view'.indexToName) (stats : EbpfStats) :
    visitKey view key stats = visitKey view' key stats := by
  unfold visitKey
  rw [values, names]

theorem ReadDuring.later {before after after' : Traffic Cpu} {key : Int32}
    {values : List IfCounters} (read : ReadDuring before after key values)
    (later : Traffic.Happened after after') : ReadDuring before after' key values := by
  intro f
  obtain ⟨n, reads, low, high⟩ := read f
  exact ⟨n, reads, low, high.trans (Traffic.counted_mono later key f)⟩

theorem Visits.later {start now now' : Traffic Cpu} {visited : List Int32} {stats : EbpfStats}
    (visits : Visits indexToName total start visited now stats)
    (later : Traffic.Happened now now') : Visits indexToName total start visited now' stats := by
  obtain ⟨lookup, same, seen⟩ := visits.seen
  refine ⟨visits.happened.trans later, lookup, same, fun key member => ?_⟩
  obtain ⟨values, found, read⟩ := seen key member
  exact ⟨values, found, read.later later⟩

/-- One more key is visited. -/
theorem Visits.next {start now now' : Traffic Cpu} {visited : List Int32} {stats : EbpfStats}
    (visits : Visits indexToName total start visited now stats) {key : Int32}
    (fresh : key ∉ visited) (later : Traffic.Happened now now') {values : List IfCounters}
    (read : ReadDuring now now' key values) :
    Visits indexToName total start (visited ++ [key]) now'
      (visitKey ⟨[], fun _ => some values, indexToName⟩ key stats) := by
  obtain ⟨lookup, same, seen⟩ := (visits.later later).seen
  have others : ∀ k ∈ visited, Function.update lookup key (some values) k = lookup k := by
    intro k member
    have differs : k ≠ key := by
      rintro rfl
      exact fresh member
    exact Function.update_of_ne differs _ _
  refine ⟨visits.happened.trans later, Function.update lookup key (some values), ?_, ?_⟩
  · rw [visitsOf, List.foldl_append, List.foldl_cons, List.foldl_nil]
    have before : visited.foldl (fun stats k => visitKey
        ⟨[], Function.update lookup key (some values), indexToName⟩ k stats) ⟨∅, total⟩ =
          visitsOf indexToName total lookup visited := by
      apply List.foldl_ext
      intro stats k member
      apply visitKey_congr
      · exact others k member
      · rfl
    rw [before, same]
    apply visitKey_congr
    · simp only [Function.update_self]
    · rfl
  · intro k member
    rcases List.mem_append.mp member with old | new
    · rw [others k old]
      exact seen k old
    · obtain rfl := List.mem_singleton.mp new
      refine ⟨values, Function.update_self _ _ _, fun f => ?_⟩
      obtain ⟨n, reads, low, high⟩ := read f
      exact ⟨n, reads, (Traffic.counted_mono visits.happened k f).trans low, high⟩

/-- **A walk beside the traffic** ends, and its result is that of the walk over some view that
has every key of the beginning and for each of its keys counts between those of the beginning
and those of the end. -/
theorem liveStats_meets {m : Traffic Cpu} (reached : m.Reached) :
    Loads.Meets (fun _ => Traffic.Happens)
      (fun _ m' result => ∃ map : IfStatsView,
        result = some (ebpfGetNetStats (some map.view) total) ∧
          map.view.indexToName = indexToName ∧ SeenDuring m m' map)
      (liveStats possible indexToName total) () m := by
  have visits : ∀ visited key now stats, Traffic.Reached now → key ∈ now.keys →
      key ∉ visited → Visits indexToName total m visited now stats →
        Loads.Meets (fun _ => Traffic.Happens)
          (fun _ now' stats => Visits indexToName total m (visited ++ [key]) now' stats)
          (visitEntry possible indexToName key stats) () now := by
    intro visited key now stats sound member fresh visits
    have lookup := (lookupElem_meets key possible sound (now.mem_keys_iff.mp member)).keeps
      (Traffic.Happened now) (fun _ _ _ happens happened => happened.tail happens) .refl
    refine Loads.Meets.bind (lookup.mono fun _ now' found read => ?_)
    obtain ⟨later, values, rfl, between⟩ := read
    have next := visits.next fresh later between
    exact Loads.Meets.pure fun m' further => next.later further
  have begins : Walking Traffic.keys Traffic.Reached m.keys (Visits indexToName total m) [] m
      ⟨∅, total⟩ :=
    ⟨reached, List.Subset.refl _, .nothing _ _, .refl, fun _ => none, rfl, by simp⟩
  have walk := walkKeys_meets Traffic.growingKeys
    (fun _ _ _ _ _ happens _ visits => visits.later (.single happens)) visits
    (maxEntries + 1) [] ⟨∅, total⟩ () m (by simp) begins
  have sound := walk.keeps Traffic.Reached (fun _ _ _ happens reached => reached.tail happens)
    reached
  refine sound.mono fun _ m' result ended => ?_
  obtain ⟨reached', visited, stats, rfl, nodup, initial, final, visits⟩ := ended
  obtain ⟨lookup, rfl, seen⟩ := visits.seen
  have positive : ∀ key ∈ visited, 0 < key := fun key member =>
    reached'.positive.2 key (m'.mem_keys_iff.mp (final member))
  refine ⟨⟨⟨visited, lookup, indexToName⟩, nodup, positive⟩, ?_, rfl, ?_, ?_, ?_⟩
  · rw [ebpfGetNetStats_eq]
    rfl
  · exact fun key has => initial (m.mem_keys_iff.mpr has)
  · exact fun key member => m'.mem_keys_iff.mp (final member)
  · exact seen

/-- **A walk beside the traffic ends, visits every key that was there when it began, and none
twice.**  Whatever arrives, is counted and is inserted between its loads, its result is that of
the walk over a view of the map: the view has each of its keys once, all keys of the beginning
and only keys of the end, and for each key counts between what had been counted when the walk
began and what has been counted when it ends. -/
theorem liveStats_result {m m' : Traffic Cpu} (reached : m.Reached) {result : Option EbpfStats}
    (ended : Loads.Steps (fun _ => Traffic.Happens)
      ((), m, liveStats possible indexToName total) ((), m', .done result)) :
    ∃ map : IfStatsView, result = some (ebpfGetNetStats (some map.view) total) ∧
      map.view.indexToName = indexToName ∧ SeenDuring m m' map :=
  (liveStats_meets reached).result ended

end Walk

/-! ## The monitor -/

section Monitor

/-- What a call of `UpdateOnce` meets beside the map. -/
structure Surroundings where
  now : ℤ
  netDev : Option Text
  indexToName : Int32 → Text

/-- `UpdateOnce` behind its call of `ebpf_get_net_stats`. -/
def updateFrom (ebpf : EbpfStats) (now : ℤ) (netDev : Option Text) (state : State) :
    List (Proto.NetInfo ℚ) × State :=
  if ebpf.statesMap.entries = [] then ([], { state with total := ebpf.total })
  else
    let procStats := procGetNetErrDropStats netDev
    let currentStats := ebpf.statesMap.entries.map fun e => mergedStat procStats e.1 e.2
    let (messages, lastNetInfo) :=
      sweep message (currentStats.map fun stat => (stat.name, ⟨stat, now⟩)) state.lastNetInfo
    (messages.map Prod.snd, ⟨lastNetInfo, ebpf.total⟩)

theorem updateOnce_eq_updateFrom (call : Call) (state : State) :
    updateOnce call state =
      updateFrom (ebpfGetNetStats call.ifStats state.total) call.now call.netDev state := rfl

variable {Cpu : Type} [DecidableEq Cpu] (possible : PossibleCpus Cpu)

/-- `NetMonitor::UpdateOnce` beside the traffic. -/
def liveUpdate (around : Surroundings) (state : State) :
    Loads (Traffic Cpu) Unit (Option (List (Proto.NetInfo ℚ) × State)) := do
  let ebpf ← liveStats possible around.indexToName state.total
  return ebpf.map fun ebpf => updateFrom ebpf around.now around.netDev state

/-- A call that was made, with the traffic when it began and when it returned. -/
structure Sighting (Cpu : Type) where
  around : Surroundings
  before : Traffic Cpu
  after : Traffic Cpu
  messages : List (Proto.NetInfo ℚ)

/-- The calls of a monitor, one after the other, with any traffic during and between them. -/
inductive Sightings : Traffic Cpu → State → List (Sighting Cpu) → Prop where
  | nil {m : Traffic Cpu} {state : State} : Sightings m state []
  | cons {m : Traffic Cpu} {state state' : State} {s : Sighting Cpu} {rest : List (Sighting Cpu)}
      (between : Traffic.Happened m s.before)
      (runs : Loads.Steps (fun _ => Traffic.Happens)
        ((), s.before, liveUpdate possible s.around state)
        ((), s.after, .done (some (s.messages, state'))))
      (later : Sightings s.after state' rest) : Sightings m state (s :: rest)

/-- The call has the view of the map that the sighting had. -/
structure Matches (s : Sighting Cpu) (call : Call) : Prop where
  now : call.now = s.around.now
  netDev : call.netDev = s.around.netDev
  seen : ∃ map : IfStatsView, call.ifStats = some map.view ∧
    map.view.indexToName = s.around.indexToName ∧ SeenDuring s.before s.after map

variable {possible}

/-- **A call beside the traffic** is a call with some view of the map. -/
theorem exists_call {s : Sighting Cpu} {state state' : State} (reached : s.before.Reached)
    (runs : Loads.Steps (fun _ => Traffic.Happens)
      ((), s.before, liveUpdate possible s.around state)
      ((), s.after, .done (some (s.messages, state')))) :
    ∃ call, Matches s call ∧ updateOnce call state = (s.messages, state') := by
  have update : Loads.Meets (fun _ => Traffic.Happens)
      (fun _ m' result => ∃ map : IfStatsView, map.view.indexToName = s.around.indexToName ∧
        SeenDuring s.before m' map ∧ result = some (updateOnce
          ⟨s.around.now, some map.view, s.around.netDev⟩ state))
      (liveUpdate possible s.around state) () s.before := by
    refine Loads.Meets.bind ((liveStats_meets reached).mono fun _ m' result ended => ?_)
    obtain ⟨map, rfl, names, seen⟩ := ended
    refine Loads.Meets.pure fun m'' later => ⟨map, names, ?_, ?_⟩
    · refine ⟨seen.initial, fun key member => ?_, fun key member => ?_⟩
      · exact Traffic.has_later later (seen.final key member)
      · obtain ⟨values, found, read⟩ := seen.values key member
        exact ⟨values, found, read.later later⟩
    · rw [updateOnce_eq_updateFrom]
      rfl
  obtain ⟨map, names, seen, same⟩ := update.result runs
  exact ⟨⟨s.around.now, some map.view, s.around.netDev⟩, ⟨rfl, rfl, map, rfl, names, seen⟩,
    (Option.some.inj same).symm⟩

/-- **A run of the monitor beside the traffic** is a run over views of the map. -/
theorem run_of_sightings {m : Traffic Cpu} {state : State} {sightings : List (Sighting Cpu)}
    (reached : m.Reached) (made : Sightings possible m state sightings) :
    ∃ calls, List.Forall₂ Matches sightings calls ∧
      (run calls state).1 = sightings.map Sighting.messages := by
  induction made with
  | nil => exact ⟨[], .nil, rfl⟩
  | cons between runs later ih =>
      have begun := reached.trans between
      obtain ⟨call, matching, update⟩ := exists_call begun runs
      obtain ⟨calls, all, messages⟩ := ih (begun.trans runs.writes)
      refine ⟨call :: calls, .cons matching all, ?_⟩
      rw [run, update, List.map_cons]
      exact congrArg (List.cons _) messages

end Monitor

/-! ## One interface -/

section Interface

variable {Cpu : Type} [DecidableEq Cpu] {possible : PossibleCpus Cpu} {key : Int32}
  {ifname : Text} {f : Field}

/-- In every call the interface resolves to the name, and no other index does. -/
structure Resolves (key : Int32) (ifname : Text) (s : Sighting Cpu) : Prop where
  own : s.around.indexToName key = ifname
  sole : ∀ other, s.around.indexToName other = ifname → other = key

omit [DecidableEq Cpu] in
/-- An interface with an entry is seen under its name, with a count between those at the
beginning and at the end of the call. -/
theorem lookup_of_matches (visible : Visible ifname) {s : Sighting Cpu} {call : Call}
    (resolves : Resolves key ifname s) (matching : Matches s call) (has : s.before.stats.Has key) :
    ∃ data, call.ebpfStats.lookup ifname = some data ∧ ∀ f,
      ReadsBetween (s.before.counted key f) (s.after.counted key f) (data.get f) := by
  obtain ⟨map, view, names, seen⟩ := matching.seen
  obtain ⟨values, found, read⟩ := seen.values key (seen.initial key has)
  have named : map.view.indexToName key = ifname := by rw [names, resolves.own]
  have kept : ¬ (map.view.indexToName key = [] ∨
      isVirtualInterface (map.view.indexToName key) = true) := by
    rw [named, visible.2]
    simpa using visible.1
  have own : entry map.view key = some (ifname, sumModulo values) := by
    rw [entry, found]
    dsimp only
    rw [if_neg kept, named]
  have inside : (ifname, sumModulo values) ∈ entries map :=
    List.mem_filterMap.mpr ⟨key, seen.initial key has, own⟩
  obtain ⟨last, latest⟩ := exists_latest (List.mem_map_of_mem (f := Prod.fst) inside)
  have sole : last = (ifname, sumModulo values) := by
    obtain ⟨member, same⟩ := mem_of_latest latest
    obtain ⟨other, _, made⟩ := List.mem_filterMap.mp member
    obtain ⟨name, _⟩ := name_of_entry made
    have here : other = key := resolves.sole other (by rw [← names, ← name, same])
    rw [here, own] at made
    exact (Option.some.inj made).symm
  refine ⟨sumModulo values, ?_, fun f => ?_⟩
  · rw [Call.ebpfStats, view, ebpfGetNetStats_entries]
    dsimp only
    rw [lookup_storeAll, latest, sole]
    rfl
  · rw [← sumCpus_eq, sumCpus, get_foldl_addEach, IfCounters.get_zero, zero_add]
    exact read f

/-- What the calls of a run see of an interface: each sees it, at its time, with a count between
those at its beginning and its end. -/
theorem seen_of_sightings (visible : Visible ifname) (f : Field) {m : Traffic Cpu}
    {state : State} {sightings : List (Sighting Cpu)} {calls : List Call}
    (made : Sightings possible m state sightings)
    (matching : List.Forall₂ Matches sightings calls)
    (resolves : ∀ s ∈ sightings, Resolves key ifname s) (has : m.stats.Has key) :
    (seen ifname calls).map Prod.fst = sightings.map (fun s => s.around.now) ∧
      ∃ counts, List.Forall₂ ReadsResidue ((seen ifname calls).map fun s => s.2.get f) counts ∧
        List.Forall₂ (fun s n => s.before.counted key f ≤ n ∧ n ≤ s.after.counted key f)
          sightings counts := by
  induction made generalizing calls with
  | nil =>
      cases matching
      exact ⟨rfl, [], .nil, .nil⟩
  | cons between runs later ih =>
      obtain _ | @⟨_, call, _, calls, here, rest⟩ := matching
      have begun := Traffic.has_later between has
      obtain ⟨data, found, counts⟩ :=
        lookup_of_matches visible (resolves _ List.mem_cons_self) here begun
      obtain ⟨times, numbers, reads, bounds⟩ := ih rest
        (fun s member => resolves s (List.mem_cons_of_mem _ member))
        (Traffic.has_later runs.writes begun)
      obtain ⟨n, readsFirst, bound⟩ := counts f
      have split : seen ifname (call :: calls) = (call.now, data) :: seen ifname calls := by
        rw [seen, List.filterMap_cons, found]
        rfl
      rw [split]
      refine ⟨?_, n :: numbers, .cons readsFirst reads, .cons bound bounds⟩
      rw [List.map_cons, List.map_cons, times, here.now]

/-- Between two calls and during them the interface counts less than `2 ^ 64`. -/
def CountsSlowly (key : Int32) (f : Field) (sightings : List (Sighting Cpu)) : Prop :=
  sightings.IsChain fun earlier later =>
    later.after.counted key f < earlier.before.counted key f + 2 ^ 64

theorem growsSlowly_of_sightings {m : Traffic Cpu} {state : State}
    {sightings : List (Sighting Cpu)} (made : Sightings possible m state sightings)
    (slow : CountsSlowly key f sightings) {counts : List ℕ}
    (bounds : List.Forall₂ (fun s n => s.before.counted key f ≤ n ∧ n ≤ s.after.counted key f)
      sightings counts) : GrowsSlowly counts := by
  induction made generalizing counts with
  | nil =>
      cases bounds
      exact .nil
  | cons between runs later ih =>
      obtain _ | @⟨first, n, sightings, counts, here, rest⟩ := bounds
      cases later with
      | nil =>
          cases rest
          exact .singleton _
      | @cons _ _ _ second _ gap next _ =>
          obtain _ | @⟨_, k, _, counts, there, further⟩ := rest
          have steps := List.isChain_cons_cons.mp slow
          have tail := ih steps.2 (.cons there further)
          have order := Traffic.counted_mono gap key f
          exact List.isChain_cons_cons.mpr ⟨⟨by omega, by omega⟩, tail⟩

/-- The messages about an interface. -/
def reportsOf (ifname : Text) (sightings : List (Sighting Cpu)) : List (Proto.NetInfo ℚ) :=
  (sightings.flatMap Sighting.messages).filter fun report => report.name = ifname

/-- What the rates of a counter amount to, from the second report on. -/
def moved (f : Field) (ifname : Text) (sightings : List (Sighting Cpu)) : ℚ :=
  (List.zipWith (· * ·) ((reportsOf ifname sightings).tail.map (Counter.ofField f).rate)
    (gaps (sightings.map fun s => s.around.now))).sum * (Counter.ofField f).unit

omit [DecidableEq Cpu] in
theorem getLastD_bounds {first : Sighting Cpu} {rest : List (Sighting Cpu)} {n : ℕ}
    {counts : List ℕ} (bounds : List.Forall₂
      (fun s n => s.before.counted key f ≤ n ∧ n ≤ s.after.counted key f) (first :: rest)
        (n :: counts)) :
    (rest.getLastD first).before.counted key f ≤ counts.getLastD n ∧
      counts.getLastD n ≤ (rest.getLastD first).after.counted key f := by
  induction rest generalizing first n counts with
  | nil =>
      obtain _ | ⟨here, rest⟩ := bounds
      cases rest
      exact here
  | cons second rest ih =>
      obtain _ | ⟨_, further⟩ := bounds
      cases counts with
      | nil => cases further
      | cons k counts =>
          rw [List.getLastD_cons, List.getLastD_cons]
          exact ih further

/-- **What is reported is what was counted.**  Take any run of a new monitor beside any traffic,
at increasing times, and an interface with an entry and a name of its own that is not virtual,
of which less than `2 ^ 64` is counted between two calls.  Each call reports the interface
once, and its rates, each times the time since the report before, amount to at least what was
counted from the end of the first call to the beginning of the last one, and at most what was
counted from the beginning of the first call to the end of the last one. -/
theorem traffic_reported (visible : Visible ifname) (f : Field) {m : Traffic Cpu}
    (reached : m.Reached) {first : Sighting Cpu} {rest : List (Sighting Cpu)}
    (made : Sightings possible m .initial (first :: rest)) (has : m.stats.Has key)
    (resolves : ∀ s ∈ first :: rest, Resolves key ifname s)
    (increasing : (first :: rest).IsChain fun a b => a.around.now < b.around.now)
    (slow : CountsSlowly key f (first :: rest)) :
    (reportsOf ifname (first :: rest)).length = rest.length + 1 ∧
      ((rest.getLastD first).before.counted key f : ℚ) - first.after.counted key f ≤
        moved f ifname (first :: rest) ∧
      moved f ifname (first :: rest) ≤
        ((rest.getLastD first).after.counted key f : ℚ) - first.before.counted key f := by
  obtain ⟨calls, matching, messages⟩ := run_of_sightings reached made
  obtain ⟨times, counts, reads, bounds⟩ := seen_of_sightings visible f made matching resolves has
  have grows := growsSlowly_of_sightings made slow bounds
  have reports : reportsOf ifname (first :: rest) = reported ifname calls := by
    rw [reportsOf, reported, messages, List.flatMap_def]
  have rates := rates_reported f ifname calls
  cases counts with
  | nil => cases bounds
  | cons n counts =>
      cases appeared : seen ifname calls with
      | nil =>
          rw [appeared] at times
          cases times
      | cons sample samples =>
          rw [appeared] at times reads rates
          have chain : (sample :: samples).IsChain fun a b => a.1 < b.1 := by
            rw [← List.isChain_map Prod.fst (R := fun a b : ℤ => a < b), times, List.isChain_map]
            exact increasing
          have sum := sum_rates_gaps chain reads grows
          have unit := (Counter.ofField f).unit_pos
          have total : moved f ifname (first :: rest) = (counts.getLastD n : ℕ) - n := by
            rw [moved, reports, List.map_tail, rates, alone, List.tail_cons, ← times, sum,
              div_mul_cancel₀ _ unit.ne']
          obtain ⟨lowFirst, highFirst⟩ := (List.forall₂_cons.mp bounds).1
          obtain ⟨lowLast, highLast⟩ := getLastD_bounds bounds
          refine ⟨?_, ?_, ?_⟩
          · have lengths := congrArg List.length rates
            have seenTimes := congrArg List.length times
            rw [List.length_map, length_alone] at lengths
            rw [List.length_map, List.length_map] at seenTimes
            rw [reports, lengths, seenTimes, List.length_cons]
          · rw [total]
            gcongr
          · rw [total]
            gcongr

end Interface

/-! ## A run with two packets -/

def bothCpus : PossibleCpus (Fin 2) := ⟨List.finRange 2, List.nodup_finRange 2, List.mem_finRange⟩

/-- The interface with index 2 is `eth0`. -/
def ethName (key : Int32) : Text := if key = 2 then "eth0".toList else []

/-- Another packet of 40 bytes comes in after `nestedMoves`. -/
def laterMoves : List (Move (Execution (Fin 2))) :=
  .spawn (onIngress (Fin.last 1) 2 40) :: List.replicate 3 (.advance 2)

def laterEnd : Configuration (IfStats (Fin 2)) (Execution (Fin 2)) :=
  (play exec laterMoves nestedEnd).getD nestedEnd

/-- The traffic before and after the packet. -/
theorem exists_packets : ∃ m m' : Traffic (Fin 2), m.Reached ∧ Traffic.Happened m m' ∧
    m.stats.Has 2 ∧ m.counted 2 .rcvBytes = 60 ∧ m'.counted 2 .rcvBytes = 100 := by
  have starts : ∀ moves, moves = nestedMoves ∨ moves = laterMoves →
      ∀ e, Move.spawn e ∈ moves → Starts e ∧ 0 < e.ifindex := by
    rintro moves (rfl | rfl) e member
    · simp [nestedMoves] at member
      rcases member with rfl | rfl
      · exact ⟨Or.inr rfl, by decide⟩
      · exact ⟨Or.inl rfl, by decide⟩
    · simp [laterMoves] at member
      subst member
      exact ⟨Or.inl rfl, by decide⟩
  have first : play exec nestedMoves (IfStats.empty, []) = some nestedEnd := by rfl
  have second : play exec laterMoves nestedEnd = some laterEnd := by rfl
  obtain ⟨m, reached, same⟩ := Traffic.exists_happened (m := .loaded)
    (Steps.of_play (starts _ (Or.inl rfl)) first)
  rw [← same] at second
  obtain ⟨m', happened, same'⟩ := Traffic.exists_happened
    (Steps.of_play (starts _ (Or.inr rfl)) second)
  have stats : m.stats = nestedEnd.1 := congrArg Prod.fst same
  have executions : m.executions = nestedEnd.2 := congrArg Prod.snd same
  have executions' : m'.executions = laterEnd.2 := congrArg Prod.snd same'
  refine ⟨m, m', reached, happened, ?_, ?_, ?_⟩
  · rw [stats]
    decide
  · rw [Traffic.counted, executions]
    rfl
  · rw [Traffic.counted, executions']
    rfl

/-- The second packet comes in behind the first load of the walk. -/
theorem liveStats_result_packets : ∃ (m m' : Traffic (Fin 2)) (result : Option EbpfStats),
    Loads.Steps (fun _ => Traffic.Happens)
      ((), m, liveStats bothCpus ethName .zero) ((), m', .done result) ∧
      ∃ map : IfStatsView, result = some (ebpfGetNetStats (some map.view) .zero) ∧
        2 ∈ map.view.keys ∧ ∃ values, map.view.lookupElem 2 = some values ∧
          ReadsBetween 60 100 (values.map fun slot => slot.get .rcvBytes).sum := by
  obtain ⟨m, m', reached, happened, has, before, after⟩ := exists_packets
  obtain ⟨mark, next, program⟩ : ∃ mark next,
      liveStats bothCpus ethName .zero = .load mark next := ⟨_, _, rfl⟩
  have writes : Loads.Steps (fun _ => Traffic.Happens) (mark, m, next m) (mark, m', next m) :=
    Relation.ReflTransGen.lift (fun m' => (mark, m', next m))
      (fun _ _ happens => Loads.Step.write happens) _ _ happened
  obtain ⟨_, rest⟩ : ∃ w, Loads.Steps (fun _ => Traffic.Happens) (mark, m', next m)
      (w, m', .done ((next m).eval m')) := Loads.Steps.eval mark m' (next m)
  have steps : Loads.Steps (fun _ => Traffic.Happens)
      ((), m, liveStats bothCpus ethName .zero) ((), m', .done ((next m).eval m')) := by
    rw [program]
    exact .head .load (writes.trans rest)
  obtain ⟨map, same, _, seen⟩ := liveStats_result reached steps
  obtain ⟨values, found, read⟩ := seen.values 2 (seen.initial 2 has)
  have bytes := read .rcvBytes
  rw [before, after] at bytes
  exact ⟨m, m', _, steps, map, same, seen.initial 2 has, values, found, bytes⟩

/-- A call beside no traffic returns. -/
theorem exists_update {m : Traffic (Fin 2)} (reached : m.Reached) (around : Surroundings)
    (state : State) : ∃ messages state', Loads.Steps (fun _ => Traffic.Happens)
      ((), m, liveUpdate bothCpus around state) ((), m, .done (some (messages, state'))) := by
  have quiet : ∀ {α : Type} (p : Loads (Traffic (Fin 2)) Unit α),
      ∃ w, Loads.Steps (fun _ => Traffic.Happens) ((), m, p) (w, m, .done (p.eval m)) :=
    fun p => Loads.Steps.eval () m p
  obtain ⟨_, steps⟩ := quiet (liveUpdate bothCpus around state)
  obtain ⟨_, walk⟩ := quiet (liveStats bothCpus around.indexToName state.total)
  obtain ⟨map, same, _⟩ := liveStats_result reached walk
  rw [liveUpdate, Loads.eval_bind, same, Loads.eval_pure] at steps
  exact ⟨_, _, steps⟩

def ethAround (now : ℤ) : Surroundings := ⟨now, none, ethName⟩

/-- The packet between two calls, a second apart, is reported. -/
theorem traffic_reported_packets : ∃ first second : Sighting (Fin 2),
    (reportsOf "eth0".toList [first, second]).length = 2 ∧
      moved .rcvBytes "eth0".toList [first, second] = 40 := by
  obtain ⟨m, m', reached, happened, has, before, after⟩ := exists_packets
  obtain ⟨messages, state, firstCall⟩ := exists_update reached (ethAround 0) .initial
  obtain ⟨messages', state', secondCall⟩ :=
    exists_update (reached.trans happened) (ethAround 1000000000) state
  have visible : Visible "eth0".toList := ⟨by decide, by decide⟩
  have made : Sightings bothCpus m .initial
      [⟨ethAround 0, m, m, messages⟩, ⟨ethAround 1000000000, m', m', messages'⟩] :=
    .cons .refl firstCall (.cons happened secondCall .nil)
  have resolves : ∀ s ∈ [(⟨ethAround 0, m, m, messages⟩ : Sighting (Fin 2)),
      ⟨ethAround 1000000000, m', m', messages'⟩], Resolves 2 "eth0".toList s := by
    have name : ∀ other, ethName other = "eth0".toList → other = 2 := by
      intro other named
      by_contra differs
      rw [ethName, if_neg differs] at named
      cases named
    intro s member
    rcases List.mem_pair.mp member with rfl | rfl
    · exact ⟨rfl, name⟩
    · exact ⟨rfl, name⟩
  have increasing : [(⟨ethAround 0, m, m, messages⟩ : Sighting (Fin 2)),
      ⟨ethAround 1000000000, m', m', messages'⟩].IsChain
        fun a b => a.around.now < b.around.now := by
    simp [ethAround]
  have slow : CountsSlowly 2 .rcvBytes [(⟨ethAround 0, m, m, messages⟩ : Sighting (Fin 2)),
      ⟨ethAround 1000000000, m', m', messages'⟩] := by
    simp [CountsSlowly, before, after]
  obtain ⟨reports, low, high⟩ :=
    traffic_reported visible .rcvBytes reached made has resolves increasing slow
  simp only [List.getLastD_cons, List.getLastD_nil, before, after] at low high
  refine ⟨_, _, reports, le_antisymm (high.trans ?_) (le_trans ?_ low)⟩ <;> norm_num

end LinuxMonitor.Monitor.NetMonitor
