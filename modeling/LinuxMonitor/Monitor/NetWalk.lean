import LinuxMonitor.Library.KeyedStore
import LinuxMonitor.Library.Loop
import LinuxMonitor.Monitor.NetStats

/-!
# The walk over the eBPF map

`ebpf_get_net_stats` asks for the key behind the last one it has seen, beginning with 0,
which is no interface's index and so gives the first key.  The walk is run here as a loop
without a bound of its own that notes the keys it visits.

* `loop_walkTurn`: **the walk ends and has visited every key once, in the order of
  traversal.**
* `ebpfGetNetStats_walk`: **it returns one entry for each key that is looked up, resolves
  and is not virtual, with the sums over the CPUs modulo `2 ^ 64`.**
* `total_calls`: what a run of calls has added to `total`.
* `total_eq_returned_iff`: **after a call `total` is the sum of the entries returned exactly
  when the earlier calls have added nothing to it.**
-/

set_option autoImplicit false

namespace LinuxMonitor.Monitor.NetMonitor

open Library Bpf

/-! ## The walk -/

/-- A map with positive keys, each once in the order of traversal. -/
structure IfStatsView where
  view : MapView
  nodup : view.keys.Nodup
  positive : ∀ key ∈ view.keys, 0 < key

/-- The key last seen, the keys visited so far and the result under construction. -/
structure WalkState where
  key : Int32
  visited : List Int32
  stats : EbpfStats

/-- One turn of `while (bpf_map_get_next_key(map_fd, &key, &next_key) == 0)`. -/
def walkTurn (view : MapView) (s : WalkState) : Turn WalkState WalkState :=
  match view.getNextKey s.key with
  | none => .stop s
  | some nextKey => .next ⟨nextKey, s.visited ++ [nextKey], visitKey view nextKey s.stats⟩

section Turns

variable {view : MapView} {s : WalkState}

theorem walkTurn_stop (last : view.getNextKey s.key = none) : walkTurn view s = .stop s := by
  rw [walkTurn, last]

theorem walkTurn_next {nextKey : Int32} (next : view.getNextKey s.key = some nextKey) :
    walkTurn view s = .next ⟨nextKey, s.visited ++ [nextKey], visitKey view nextKey s.stats⟩ := by
  rw [walkTurn, next]

end Turns

/-- The key behind the ones visited, of which 0 is none. -/
theorem IfStatsView.getNextKey_split (map : IfStatsView) {before after : List Int32}
    (split : map.view.keys = before ++ after) :
    map.view.getNextKey (before.getLast?.getD 0) = after.head? := by
  have nodup := map.nodup
  have positive := map.positive
  rw [split] at nodup positive
  rw [MapView.getNextKey, split]
  rcases List.eq_nil_or_concat before with rfl | ⟨before, key, rfl⟩
  · have absent : ∀ k ∈ after, (fun k => decide (k ≠ (0 : Int32))) k = true := by
      intro k member
      have differs : k ≠ 0 := by
        rintro rfl
        exact Int32.lt_irrefl (positive 0 member)
      simpa using differs
    rw [List.getLast?_nil, Option.getD_none, List.nil_append,
      List.dropWhile_eq_nil_iff.mpr absent]
  · rw [List.concat_eq_append] at nodup ⊢
    have fresh : ∀ k ∈ before, (fun k => decide (k ≠ key)) k = true := by
      intro k member
      rw [List.append_assoc, List.nodup_append] at nodup
      simpa using nodup.2.2 k member key (by simp)
    have found : (before ++ key :: after).dropWhile (fun k => decide (k ≠ key)) = key :: after := by
      apply dropWhile_append_stop _ fresh
      intro k head
      cases head
      simp
    rw [List.getLast?_concat, Option.getD_some, List.append_assoc, List.singleton_append, found]

/-- **The walk ends and has visited every key once.**  The statistics are those of the
visits in the order of traversal. -/
theorem loop_walkTurn (map : IfStatsView) {before after : List Int32}
    (split : map.view.keys = before ++ after) (stats : EbpfStats) :
    loop (walkTurn map.view) (after.length + 1) ⟨before.getLast?.getD 0, before, stats⟩ =
      some ⟨map.view.keys.getLast?.getD 0, map.view.keys,
        after.foldl (fun stats key => visitKey map.view key stats) stats⟩ := by
  induction after generalizing before stats with
  | nil =>
      rw [List.append_nil] at split
      apply loop_stop
      rw [walkTurn, map.getNextKey_split (split.trans (List.append_nil before).symm), split]
      rfl
  | cons key after ih =>
      have next : walkTurn map.view ⟨before.getLast?.getD 0, before, stats⟩ =
          .next ⟨(before ++ [key]).getLast?.getD 0, before ++ [key],
            visitKey map.view key stats⟩ := by
        rw [walkTurn, map.getNextKey_split split, List.getLast?_concat]
        rfl
      have rest : map.view.keys = (before ++ [key]) ++ after := by
        rw [split, List.append_assoc, List.singleton_append]
      rw [List.length_cons, loop_next next, ih rest]
      rfl

/-- A walk that has ended took no more steps than `walk` allows. -/
theorem walk_of_loop {view : MapView} {steps : ℕ} {s last : WalkState}
    (ended : loop (walkTurn view) (steps + 1) s = some last) :
    walk view steps s.key s.stats = last.stats := by
  induction steps generalizing s with
  | zero =>
      cases next : view.getNextKey s.key with
      | none =>
          rw [loop_stop (walkTurn_stop next)] at ended
          cases ended
          rfl
      | some nextKey =>
          rw [loop_next (walkTurn_next next)] at ended
          cases ended
  | succ steps ih =>
      unfold walk
      cases next : view.getNextKey s.key with
      | none =>
          rw [loop_stop (walkTurn_stop next)] at ended
          cases ended
          rfl
      | some nextKey =>
          rw [loop_next (walkTurn_next next)] at ended
          exact ih ended

/-- The statistics of a call are those of the visits. -/
theorem ebpfGetNetStats_eq (map : IfStatsView) (total : IfCounters) :
    ebpfGetNetStats (some map.view) total =
      map.view.keys.foldl (fun stats key => visitKey map.view key stats) ⟨∅, total⟩ :=
  walk_of_loop (loop_walkTurn map (List.nil_append _).symm ⟨∅, total⟩)

/-! ## The sums over the CPUs -/

theorem get_addEach (a b : IfCounters) (f : Field) :
    (addEach a b).get f = a.get f + b.get f := by
  cases f <;> rfl

theorem counters_ext {a b : IfCounters} (same : ∀ f, a.get f = b.get f) : a = b := by
  obtain ⟨rcvBytes, rcvPackets, sndBytes, sndPackets⟩ := a
  have first := same .rcvBytes
  have second := same .rcvPackets
  have third := same .sndBytes
  have fourth := same .sndPackets
  simp only [IfCounters.get] at first second third fourth
  rw [first, second, third, fourth]

/-- What is added up stands in each counter. -/
theorem get_foldl_addEach (start : IfCounters) (values : List IfCounters) (f : Field) :
    (values.foldl addEach start).get f = start.get f + (values.map fun v => v.get f).sum := by
  induction values generalizing start with
  | nil => simp
  | cons value values ih =>
      rw [List.foldl_cons, ih, get_addEach, List.map_cons, List.sum_cons, add_assoc]

/-- The sums over the CPUs, modulo `2 ^ 64`. -/
def sumModulo (values : List IfCounters) : IfCounters :=
  ⟨UInt64.ofNat (values.map fun v => v.rcvBytes.toNat).sum,
    UInt64.ofNat (values.map fun v => v.rcvPackets.toNat).sum,
    UInt64.ofNat (values.map fun v => v.sndBytes.toNat).sum,
    UInt64.ofNat (values.map fun v => v.sndPackets.toNat).sum⟩

theorem get_sumModulo (values : List IfCounters) (f : Field) :
    (sumModulo values).get f = UInt64.ofNat (values.map fun v => (v.get f).toNat).sum := by
  cases f <;> rfl

theorem sumCpus_eq (values : List IfCounters) : sumCpus values = sumModulo values := by
  apply counters_ext
  intro f
  have sums := toNat_listSum_modEq (values.map fun v => v.get f)
  rw [List.map_map] at sums
  rw [sumCpus, get_foldl_addEach, IfCounters.get_zero, zero_add, get_sumModulo,
    ← UInt64.toNat_inj, UInt64.toNat_ofNat']
  have small := UInt64.toNat_lt (values.map fun v => v.get f).sum
  rw [Nat.ModEq, Nat.mod_eq_of_lt small] at sums
  exact sums

/-! ## What a key contributes -/

/-- The entry of a key that is looked up, resolves and is not virtual. -/
def entry (view : MapView) (key : Int32) : Option (Text × IfCounters) :=
  match view.lookupElem key with
  | none => none
  | some values =>
      if view.indexToName key = [] ∨ isVirtualInterface (view.indexToName key) = true then none
      else some (view.indexToName key, sumModulo values)

/-- Counters that are all zero add nothing. -/
theorem addEach_of_idle (total : IfCounters) {sum : IfCounters}
    (idle : ¬(sum.rcvBytes > 0 ∨ sum.rcvPackets > 0 ∨ sum.sndBytes > 0 ∨ sum.sndPackets > 0)) :
    addEach total sum = total := by
  have zero : ∀ n : UInt64, ¬n > 0 → n = 0 := by
    intro n still
    rw [gt_iff_lt, UInt64.lt_iff_toNat_lt] at still
    rw [← UInt64.toNat_inj]
    have none : (0 : UInt64).toNat = 0 := rfl
    omega
  rw [not_or, not_or, not_or] at idle
  apply counters_ext
  intro f
  have nothing : sum.get f = 0 := by
    cases f with
    | rcvBytes => exact zero _ idle.1
    | rcvPackets => exact zero _ idle.2.1
    | sndBytes => exact zero _ idle.2.2.1
    | sndPackets => exact zero _ idle.2.2.2
  rw [get_addEach, nothing, add_zero]

/-- A key without an entry changes nothing; the counters of one with an entry are stored and
added to `total`, also when they are all zero. -/
theorem visitKey_eq (view : MapView) (key : Int32) (stats : EbpfStats) :
    visitKey view key stats =
      match entry view key with
      | none => stats
      | some (ifname, sum) => ⟨stats.statesMap.insert ifname sum, addEach stats.total sum⟩ := by
  unfold visitKey entry
  cases view.lookupElem key with
  | none => rfl
  | some values =>
      dsimp only
      rw [sumCpus_eq]
      by_cases unnamed : view.indexToName key = []
      · rw [if_pos unnamed, if_pos (Or.inl unnamed)]
      · by_cases virtual : isVirtualInterface (view.indexToName key) = true
        · rw [if_neg unnamed, if_pos virtual, if_pos (Or.inr virtual)]
        · rw [if_neg unnamed, if_neg virtual, if_neg (not_or.mpr ⟨unnamed, virtual⟩)]
          split
          · rfl
          · next idle =>
              dsimp only
              rw [addEach_of_idle stats.total idle]

/-- The entries of a walk, in the order of traversal. -/
def entries (map : IfStatsView) : List (Text × IfCounters) :=
  map.view.keys.filterMap (entry map.view)

theorem foldl_visitKey (view : MapView) (keys : List Int32) (stats : EbpfStats) :
    keys.foldl (fun stats key => visitKey view key stats) stats =
      ⟨storeAll Prod.fst Prod.snd (keys.filterMap (entry view)) stats.statesMap,
        ((keys.filterMap (entry view)).map Prod.snd).foldl addEach stats.total⟩ := by
  induction keys generalizing stats with
  | nil => rfl
  | cons key keys ih =>
      rw [List.foldl_cons, ih, visitKey_eq, List.filterMap_cons]
      cases entry view key with
      | none => rfl
      | some made => rfl

/-- **What a call returns and adds to `total`.** -/
theorem ebpfGetNetStats_entries (map : IfStatsView) (total : IfCounters) :
    ebpfGetNetStats (some map.view) total =
      ⟨storeAll Prod.fst Prod.snd (entries map) ∅,
        ((entries map).map Prod.snd).foldl addEach total⟩ := by
  rw [ebpfGetNetStats_eq, foldl_visitKey]
  rfl

/-- An entry stands under the name of its key. -/
theorem name_of_entry {view : MapView} {key : Int32} {made : Text × IfCounters}
    (found : entry view key = some made) :
    made.1 = view.indexToName key ∧ view.indexToName key ≠ [] := by
  unfold entry at found
  split at found
  · cases found
  · split at found
    · cases found
    · next kept =>
        cases found
        exact ⟨rfl, fun unnamed => kept (Or.inl unnamed)⟩

/-- Keys that resolve to distinct names have entries of distinct names. -/
theorem nodup_names {map : IfStatsView}
    (distinct : ∀ key ∈ map.view.keys, ∀ other ∈ map.view.keys,
      map.view.indexToName key ≠ [] → map.view.indexToName key = map.view.indexToName other →
        key = other) :
    ((entries map).map Prod.fst).Nodup := by
  rw [entries, List.Nodup, List.pairwise_map, List.pairwise_filterMap]
  apply map.nodup.imp_of_mem
  intro key other member member' differ made found made' found' same
  obtain ⟨name, named⟩ := name_of_entry found
  obtain ⟨name', -⟩ := name_of_entry found'
  exact differ (distinct key member other member' named (name ▸ name' ▸ same))

/-- **A walk over any map ends after it has visited every key once, and returns one entry for
each key that is looked up, resolves and is not virtual, with the sums over the CPUs modulo
`2 ^ 64`.** -/
theorem ebpfGetNetStats_walk (map : IfStatsView) (total : IfCounters)
    (distinct : ∀ key ∈ map.view.keys, ∀ other ∈ map.view.keys,
      map.view.indexToName key ≠ [] → map.view.indexToName key = map.view.indexToName other →
        key = other) :
    (∃ turns last, loop (walkTurn map.view) turns ⟨0, [], ⟨∅, total⟩⟩ =
      some ⟨last, map.view.keys, ebpfGetNetStats (some map.view) total⟩) ∧
    (ebpfGetNetStats (some map.view) total).statesMap.entries.Perm
      ((map.view.keys.filterMap (entry map.view)).map fun made => ⟨made.1, made.2⟩) := by
  constructor
  · have ended := loop_walkTurn map (List.nil_append _).symm ⟨∅, total⟩
    rw [← ebpfGetNetStats_eq] at ended
    exact ⟨_, _, ended⟩
  · rw [ebpfGetNetStats_entries]
    exact entries_storeAll_of_nodup Prod.snd (nodup_names distinct)

/-- Three interfaces, one of which cannot be looked up and one of which is virtual. -/
def threeLinks : IfStatsView where
  view :=
    { keys := [3, 1, 7]
      lookupElem := fun key => if key = 1 then none else some [⟨1000, 8, 20, 1⟩, ⟨500, 4, 0, 0⟩]
      indexToName := fun key =>
        if key = 3 then "eth0".toList else if key = 1 then "eth1".toList else "docker0".toList }
  nodup := by decide
  positive := by
    intro key member
    simp only [List.mem_cons, List.not_mem_nil, or_false] at member
    rcases member with rfl | rfl | rfl <;> decide

theorem distinct_threeLinks : ∀ key ∈ threeLinks.view.keys, ∀ other ∈ threeLinks.view.keys,
    threeLinks.view.indexToName key ≠ [] →
      threeLinks.view.indexToName key = threeLinks.view.indexToName other → key = other := by
  intro key member other member'
  simp only [threeLinks, List.mem_cons, List.not_mem_nil, or_false] at member member'
  rcases member with rfl | rfl | rfl <;> rcases member' with rfl | rfl | rfl <;> decide

theorem ebpfGetNetStats_walk_threeLinks :
    (∃ turns last, loop (walkTurn threeLinks.view) turns ⟨0, [], ⟨∅, .zero⟩⟩ =
      some ⟨last, [3, 1, 7], ebpfGetNetStats (some threeLinks.view) .zero⟩) ∧
    (ebpfGetNetStats (some threeLinks.view) .zero).statesMap.entries.Perm
      [⟨"eth0".toList, ⟨1500, 12, 20, 1⟩⟩] :=
  ebpfGetNetStats_walk threeLinks .zero distinct_threeLinks

/-! ## The member `total` -/

/-- What a call contributes; there is no map when the buffer cannot be allocated. -/
def contributions (call : Option IfStatsView) : List (Text × IfCounters) := call.elim [] entries

/-- One call of `ebpf_get_net_stats` of a monitor whose program is loaded. -/
def ebpfCall (call : Option IfStatsView) (total : IfCounters) : EbpfStats :=
  ebpfGetNetStats (call.map IfStatsView.view) total

/-- The member `total` after a run of calls, from `struct if_counters total = {0}`. -/
def totalAfter (calls : List (Option IfStatsView)) : IfCounters :=
  calls.foldl (fun total call => (ebpfCall call total).total) .zero

theorem ebpfCall_eq (call : Option IfStatsView) (total : IfCounters) :
    ebpfCall call total =
      ⟨storeAll Prod.fst Prod.snd (contributions call) ∅,
        ((contributions call).map Prod.snd).foldl addEach total⟩ := by
  cases call with
  | none => rfl
  | some map => exact ebpfGetNetStats_entries map total

/-- **A run has added all that its calls contributed.** -/
theorem get_totalAfter (calls : List (Option IfStatsView)) (f : Field) :
    (totalAfter calls).get f =
      ((calls.flatMap contributions).map fun made => made.2.get f).sum := by
  induction calls using List.reverseRecOn with
  | nil => exact IfCounters.get_zero f
  | append_singleton calls call ih =>
      rw [totalAfter] at ih ⊢
      rw [List.foldl_concat, ebpfCall_eq, get_foldl_addEach, ih, List.flatMap_append,
        List.map_append, List.sum_append, List.map_map, List.flatMap_singleton]
      rfl

/-- The counters that a call returns, added up. -/
def returnedSum (call : Option IfStatsView) (total : IfCounters) (f : Field) : UInt64 :=
  ((values (ebpfCall call total).statesMap).map fun sum => sum.get f).sum

theorem returnedSum_add_replaced (call : Option IfStatsView) (total : IfCounters) (f : Field) :
    returnedSum call total f +
        ((replaced Prod.fst (contributions call)).map fun made => made.2.get f).sum =
      ((contributions call).map fun made => made.2.get f).sum := by
  have held := (values_storeAll_append_replaced Prod.fst Prod.snd (contributions call)).map
    fun sum => sum.get f
  have sums := held.sum_eq
  rw [List.map_append, List.sum_append, List.map_map, List.map_map] at sums
  rw [returnedSum, ebpfCall_eq]
  exact sums

/-- **After a call of any run `total` is the sum of the counters returned by that call, modulo
`2 ^ 64`, exactly when what the earlier calls have added is a multiple of `2 ^ 64` in each
counter**, together with the counters of the keys whose name belongs to a later key of the
call as well. -/
theorem total_eq_returned_iff (before : List (Option IfStatsView)) (call : Option IfStatsView) :
    (∀ f, (totalAfter (before ++ [call])).get f = returnedSum call (totalAfter before) f) ↔
      ∀ f, 2 ^ 64 ∣ ((before.flatMap contributions ++ replaced Prod.fst (contributions call)).map
        fun made => (made.2.get f).toNat).sum := by
  apply forall_congr'
  intro f
  have total : ∀ items : List (Text × IfCounters), (items.map fun made => made.2.get f).sum = 0 ↔
      2 ^ 64 ∣ (items.map fun made => (made.2.get f).toNat).sum := by
    intro items
    have sums := toNat_listSum_modEq (items.map fun made => made.2.get f)
    have small := UInt64.toNat_lt (items.map fun made => made.2.get f).sum
    rw [List.map_map, Nat.ModEq, Nat.mod_eq_of_lt small] at sums
    rw [← UInt64.toNat_inj, sums]
    exact Nat.dvd_iff_mod_eq_zero.symm
  rw [← total, get_totalAfter, List.flatMap_append, List.flatMap_singleton, List.map_append,
    List.sum_append, List.map_append, List.sum_append,
    ← returnedSum_add_replaced call (totalAfter before) f, add_left_comm, add_eq_left]

/-- The first call does not tell: the second one adds the cumulative counters once more. -/
theorem total_ne_returned_twice :
    ¬∀ f, (totalAfter ([some threeLinks] ++ [some threeLinks])).get f =
      returnedSum (some threeLinks) (totalAfter [some threeLinks]) f := by
  intro all
  have bytes := all .rcvBytes
  revert bytes
  decide

end LinuxMonitor.Monitor.NetMonitor
