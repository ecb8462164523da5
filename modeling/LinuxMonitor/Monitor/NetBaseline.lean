import LinuxMonitor.Monitor.NetMonitor

/-!
# When the rates of the interfaces are bounded

A rate of `NetMonitor` is computed from the newest value of a counter and the value in
the sample stored under the interface's name.  A rate that is not computed from a
wrapped difference is at most the newest value divided by the elapsed time
(`Bounded`).

The stored sample may be one of another interface that had the name before, and the
counters of `/proc/net/dev` are zero in a call that could not read them, so a counter
can go down although no interface's own counter ever does.

* `reports_bounded_iff`: the rates of a call are bounded exactly when no counter is below
  its value in the last call that listed the name.
* `rates_bounded_iff`: **the rates of a run are bounded exactly when no counter of any
  name goes down from one call that lists the name to the next.**
* `rates_recreated_wrap`: an interface that is re-created under its name violates this.
-/

set_option autoImplicit false

namespace LinuxMonitor.Monitor.NetMonitor

open Library Bpf

/-! ## Calls that list a name -/

/-- The name is in the eBPF statistics of the call. -/
def Call.Lists (call : Call) (ifname : Text) : Prop := ifname ∈ call.ebpfStats

instance (call : Call) (ifname : Text) : Decidable (call.Lists ifname) :=
  inferInstanceAs (Decidable (ifname ∈ call.ebpfStats))

/-- The calls that list a name. -/
def listing (ifname : Text) (calls : List Call) : List Call :=
  calls.filter fun call => call.Lists ifname

/-- The entry of a name in `/proc/net/dev`, zero in every counter if there is none. -/
def Call.procStat (call : Call) (ifname : Text) : NetStat :=
  ((procGetNetErrDropStats call.netDev).lookup ifname).getD (.named ifname)

/-- The entry of a name in the eBPF statistics. -/
def Call.ebpfData (call : Call) (ifname : Text) : IfCounters :=
  (call.ebpfStats.lookup ifname).getD .zero

/-- The newest value of a counter in a call: bytes and packets from the eBPF map, errors
and drops from `/proc/net/dev`. -/
def Call.newest (call : Call) (ifname : Text) : Counter → UInt64
  | .rcvBytes => (call.ebpfData ifname).rcvBytes
  | .rcvPackets => (call.ebpfData ifname).rcvPackets
  | .sndBytes => (call.ebpfData ifname).sndBytes
  | .sndPackets => (call.ebpfData ifname).sndPackets
  | .errIn => (call.procStat ifname).errIn
  | .errOut => (call.procStat ifname).errOut
  | .dropIn => (call.procStat ifname).dropIn
  | .dropOut => (call.procStat ifname).dropOut

/-- The rates of a message are zero in the first call that lists its name.  In a later
one they are not negative and at most the newest value in the rate's unit by the time
since the name was last listed. -/
def Bounded (before : List Call) (call : Call) (report : Proto.NetInfo ℚ) : Prop :=
  ∀ c : Counter,
    match (listing report.name before).getLast? with
    | none => c.rate report = 0
    | some last =>
        0 ≤ c.rate report ∧
          c.rate report ≤ (call.newest report.name c).toNat / c.unit / seconds last.now call.now

/-- No counter of the name is below its value in the earlier call. -/
def NotBelow (ifname : Text) (earlier later : Call) : Prop :=
  ∀ c : Counter, earlier.newest ifname c ≤ later.newest ifname c

theorem value_sampleOf (call : Call) (ifname : Text) (c : Counter) :
    c.value (call.sampleOf ifname (call.ebpfData ifname)).toNetStat = call.newest ifname c := by
  unfold Call.sampleOf mergedStat Call.newest Call.procStat
  cases (procGetNetErrDropStats call.netDev).lookup ifname <;> cases c <;> rfl

theorem sample_of_lists {call : Call} {ifname : Text} (lists : call.Lists ifname) :
    call.sample ifname = some (call.sampleOf ifname (call.ebpfData ifname)) := by
  obtain ⟨data, found⟩ := Option.isSome_iff_exists.mp (AList.lookup_isSome.mpr lists)
  rw [Call.sample, Call.ebpfData, found]
  rfl

theorem sample_of_not_lists {call : Call} {ifname : Text} (absent : ¬ call.Lists ifname) :
    call.sample ifname = none := by
  rw [Call.sample, AList.lookup_eq_none.mpr absent]
  rfl

/-- The samples of a name come from the calls that list it. -/
theorem appearances_eq (ifname : Text) (calls : List Call) :
    appearances ifname calls =
      (listing ifname calls).map fun call => call.sampleOf ifname (call.ebpfData ifname) := by
  induction calls with
  | nil => rfl
  | cons call calls ih =>
      rw [appearances] at ih
      rw [appearances, listing, List.filterMap_cons]
      by_cases lists : call.Lists ifname
      · rw [sample_of_lists lists, ih, List.filter_cons_of_pos (by simpa using lists),
          List.map_cons, listing]
      · rw [sample_of_not_lists lists, ih, List.filter_cons_of_neg (by simpa using lists), listing]

/-- What a call reports after a run. -/
theorem mem_updateOnce_iff {before : List Call} {call : Call} {report : Proto.NetInfo ℚ} :
    report ∈ (updateOnce call (run before .initial).2).1 ↔
      ∃ ifname, call.Lists ifname ∧
        report = message (appearances ifname before).getLast?
          (call.sampleOf ifname (call.ebpfData ifname)) := by
  have once : (call.samples.map Prod.fst).Nodup := by
    simpa [Call.samples, Function.comp_def, AList.keys, List.keys] using call.ebpfStats.keys_nodup
  rw [(updateOnce_eq _ _).1, sweep_of_nodup message once]
  constructor
  · intro member
    obtain ⟨_, made, rfl⟩ := List.mem_map.mp member
    obtain ⟨sample, inside, rfl⟩ := List.mem_map.mp made
    obtain ⟨e, entry, rfl⟩ := List.mem_map.mp inside
    have found : call.ebpfStats.lookup e.1 = some e.2 := AList.mem_lookup_iff.mpr entry
    refine ⟨e.1, AList.lookup_isSome.mp (by rw [found]; rfl), ?_⟩
    rw [lookup_run, Call.ebpfData, found]
    rfl
  · rintro ⟨ifname, lists, rfl⟩
    obtain ⟨data, found⟩ := Option.isSome_iff_exists.mp (AList.lookup_isSome.mpr lists)
    have entry : (⟨ifname, data⟩ : Sigma fun _ : Text => IfCounters) ∈ call.ebpfStats.entries :=
      AList.mem_lookup_iff.mp found
    rw [List.map_map]
    refine List.mem_map.mpr ⟨(ifname, call.sampleOf ifname data), ?_, ?_⟩
    · exact List.mem_map.mpr ⟨⟨ifname, data⟩, entry, rfl⟩
    · rw [Call.ebpfData, found]
      simp [lookup_run]

/-! ## Bounded rates -/

theorem rate_le_iff {last current : NetInfo} (later : last.timepoint < current.timepoint)
    (c : Counter) :
    c.rate (message (some last) current) ≤
        (c.value current.toNetStat).toNat / c.unit / seconds last.timepoint current.timepoint ↔
      c.value last.toNetStat ≤ c.value current.toNetStat := by
  have positive := seconds_pos later
  have unit := c.unit_pos
  rw [rate_message later, div_le_div_iff_of_pos_right positive, div_le_div_iff_of_pos_right unit,
    Nat.cast_le]
  exact toNat_sub_le_iff

theorem rate_nonneg {last current : NetInfo} (later : last.timepoint < current.timepoint)
    (c : Counter) : 0 ≤ c.rate (message (some last) current) := by
  have positive := seconds_pos later
  have unit := c.unit_pos
  rw [rate_message later]
  positivity

/-- The message of a name is bounded exactly when no counter went down. -/
theorem bounded_message_iff {before : List Call} {call : Call} {ifname : Text}
    (increasing : ∀ earlier ∈ before, earlier.now < call.now) :
    Bounded before call (message (appearances ifname before).getLast?
        (call.sampleOf ifname (call.ebpfData ifname))) ↔
      ∀ last ∈ (listing ifname before).getLast?, NotBelow ifname last call := by
  have name : ∀ previous : Option NetInfo,
      (message previous (call.sampleOf ifname (call.ebpfData ifname))).name = ifname :=
    fun _ => name_mergedStat _ _ _
  rw [appearances_eq, List.getLast?_map]
  unfold Bounded
  rw [name]
  cases stored : (listing ifname before).getLast? with
  | none => simp [rate_first]
  | some last =>
      have earlier : last.now < call.now :=
        increasing last (List.mem_of_mem_filter (List.mem_of_getLast? stored))
      simp only [Option.map_some, Option.mem_def, Option.some.injEq, forall_eq']
      apply forall_congr'
      intro c
      have later : (last.sampleOf ifname (last.ebpfData ifname)).timepoint <
          (call.sampleOf ifname (call.ebpfData ifname)).timepoint := earlier
      have bound := rate_le_iff later c
      have positive := rate_nonneg later c
      rw [value_sampleOf, value_sampleOf] at bound
      exact ⟨fun bounded => bound.mp bounded.2, fun kept => ⟨positive, bound.mpr kept⟩⟩

/-- **The rates of one call.** -/
theorem reports_bounded_iff {before : List Call} {call : Call}
    (increasing : ∀ earlier ∈ before, earlier.now < call.now) :
    (∀ report ∈ (updateOnce call (run before .initial).2).1, Bounded before call report) ↔
      ∀ ifname, call.Lists ifname →
        ∀ last ∈ (listing ifname before).getLast?, NotBelow ifname last call := by
  constructor
  · intro bounded ifname lists
    exact (bounded_message_iff increasing).mp
      (bounded _ (mem_updateOnce_iff.mpr ⟨ifname, lists, rfl⟩))
  · intro kept report member
    obtain ⟨ifname, lists, rfl⟩ := mem_updateOnce_iff.mp member
    exact (bounded_message_iff increasing).mpr (kept ifname lists)

/-- **The rates of a run are bounded exactly when no counter goes down.**  In every call of
a run at increasing times, every report is bounded if and only if, for every name, no
counter is lower in a call that lists the name than in the previous call that does. -/
theorem rates_bounded_iff {calls : List Call}
    (increasing : calls.Pairwise fun a b => a.now < b.now) :
    (∀ before call after, calls = before ++ call :: after →
        ∀ report ∈ (updateOnce call (run before .initial).2).1, Bounded before call report) ↔
      ∀ ifname, (listing ifname calls).IsChain (NotBelow ifname) := by
  have ordered : ∀ before call after, calls = before ++ call :: after →
      ∀ earlier ∈ before, earlier.now < call.now := by
    rintro before call after rfl earlier member
    exact (List.pairwise_append.mp increasing).2.2 earlier member call List.mem_cons_self
  constructor
  · intro bounded ifname
    apply isChain_filter_iff.mpr
    intro before call after split lists last stored
    exact (reports_bounded_iff (ordered before call after split)).mp
      (bounded before call after split) ifname (by simpa using lists) last stored
  · intro kept before call after split
    apply (reports_bounded_iff (ordered before call after split)).mpr
    intro ifname lists last stored
    exact isChain_filter_iff.mp (kept ifname) before call after split (by simpa using lists) last
      stored

/-- Two appearances whose counters do not go down. -/
def steadyCalls : List Call :=
  [soleCall 0 ⟨100, 2, 0, 0⟩, soleCall 1000000000 ⟨2148, 4, 0, 0⟩]

theorem rates_bounded_steady :
    (steadyCalls.Pairwise fun a b => a.now < b.now) ∧
      ∀ before call after, steadyCalls = before ++ call :: after →
        ∀ report ∈ (updateOnce call (run before .initial).2).1, Bounded before call report := by
  have increasing : steadyCalls.Pairwise fun a b => a.now < b.now := by decide
  refine ⟨increasing, (rates_bounded_iff increasing).mpr fun ifname => ?_⟩
  have lists : ∀ call ∈ steadyCalls, call.Lists ifname ↔ ifname = "eth0".toList := by
    intro call member
    have names : call.ebpfStats.keys = ["eth0".toList] := by
      rcases List.mem_pair.mp member with rfl | rfl
      · rfl
      · rfl
    rw [Call.Lists, AList.mem_keys, names, List.mem_singleton]
  by_cases same : ifname = "eth0".toList
  · subst same
    have both : listing "eth0".toList steadyCalls = steadyCalls :=
      List.filter_eq_self.mpr fun call member => by simpa using (lists call member).mpr rfl
    rw [both]
    apply List.isChain_pair.mpr
    intro c
    cases c <;> decide
  · have none : listing ifname steadyCalls = [] := by
      apply List.filter_eq_nil_iff.mpr
      intro call member
      simpa using (lists call member).not.mpr same
    rw [none]
    exact .nil

/-! ## The interfaces of a machine -/

/-- The sixteen columns of `/proc/net/dev`. -/
structure DevCounters where
  rcvBytes : UInt64
  rcvPackets : UInt64
  rcvErrs : UInt64
  rcvDrop : UInt64
  rcvFifo : UInt64
  rcvFrame : UInt64
  rcvCompressed : UInt64
  rcvMulticast : UInt64
  sndBytes : UInt64
  sndPackets : UInt64
  sndErrs : UInt64
  sndDrop : UInt64
  sndFifo : UInt64
  sndColls : UInt64
  sndCarrier : UInt64
  sndCompressed : UInt64
deriving DecidableEq, Repr

/-- The columns in the order of the line. -/
def DevCounters.columns (d : DevCounters) : List UInt64 :=
  [d.rcvBytes, d.rcvPackets, d.rcvErrs, d.rcvDrop, d.rcvFifo, d.rcvFrame, d.rcvCompressed,
    d.rcvMulticast, d.sndBytes, d.sndPackets, d.sndErrs, d.sndDrop, d.sndFifo, d.sndColls,
    d.sndCarrier, d.sndCompressed]

/-- An interface while it exists: its index, its name, the slots of its entry in the
eBPF map and its kernel counters. -/
structure Interface where
  ifindex : Int32
  name : Text
  traffic : List IfCounters
  device : DevCounters

/-- `%6s:` and the sixteen columns. -/
def Interface.devLine (i : Interface) : Text :=
  padLeft 6 i.name ++ ':' :: columns (i.device.columns.map UInt64.toNat)

/-- A machine at the time of a call.  Its file may be unreadable, or leave interfaces
out. -/
structure Machine where
  now : ℤ
  interfaces : List Interface
  readable : Bool
  listed : Interface → Bool
  indices : (interfaces.map Interface.ifindex).Nodup
  names : (interfaces.map Interface.name).Nodup

namespace Machine

/-- The content of `/proc/net/dev`, behind its two header lines. -/
def netDev (m : Machine) : Text :=
  "Inter-|   Receive\n face |bytes\n".toList ++
    (m.interfaces.filter m.listed).flatMap fun i => i.devLine ++ ['\n']

/-- What a call meets on the machine. -/
def call (m : Machine) : Call :=
  { now := m.now
    ifStats := some
      { keys := m.interfaces.map Interface.ifindex
        lookupElem := fun key =>
          (m.interfaces.find? fun i => i.ifindex = key).map Interface.traffic
        indexToName := fun key =>
          ((m.interfaces.find? fun i => i.ifindex = key).map Interface.name).getD [] }
    netDev := if m.readable then some m.netDev else none }

/-- The counters of an interface that exists at both times have not decreased. -/
def KeepsCounting (earlier later : Machine) : Prop :=
  ∀ i ∈ earlier.interfaces, ∀ j ∈ later.interfaces, i.ifindex = j.ifindex →
    List.Forall₂ (fun a b : IfCounters => ∀ f : Field, a.get f ≤ b.get f) i.traffic j.traffic ∧
      List.Forall₂ (· ≤ ·) i.device.columns j.device.columns

end Machine

/-- A machine with one interface, named `eth0`. -/
def oneInterface (now : ℤ) (ifindex : Int32) (rcvBytes rcvPackets : UInt64) : Machine :=
  { now := now
    interfaces := [
      { ifindex := ifindex
        name := "eth0".toList
        traffic := [⟨rcvBytes, rcvPackets, 0, 0⟩]
        device := ⟨rcvBytes, rcvPackets, 0, 0, 0, 0, 0, 0, 0, 0, 0, 0, 0, 0, 0, 0⟩ }]
    readable := true
    listed := fun _ => true
    indices := List.nodup_singleton _
    names := List.nodup_singleton _ }

/-- The interface with index 2 is removed, and one with index 3 is created under its
name. -/
def recreated : List Machine := [oneInterface 0 2 1000 8, oneInterface 1000000000 3 10 1]

/-- No counter of an interface decreases, and yet a rate is computed from a wrapped
difference. -/
theorem rates_recreated_wrap :
    (recreated.Pairwise fun a b => a.now < b.now) ∧ recreated.Pairwise Machine.KeepsCounting ∧
      ¬ ∀ before call after, recreated.map Machine.call = before ++ call :: after →
        ∀ report ∈ (updateOnce call (run before .initial).2).1, Bounded before call report := by
  refine ⟨by decide, ?_, ?_⟩
  · apply List.pairwise_pair.mpr
    intro i first j second same
    rw [List.mem_singleton.mp first, List.mem_singleton.mp second] at same
    exact absurd same (by decide)
  · intro bounded
    have reports := bounded [(oneInterface 0 2 1000 8).call]
      (oneInterface 1000000000 3 10 1).call [] rfl
    have kept := (reports_bounded_iff (by decide)).mp reports "eth0".toList (by decide)
      (oneInterface 0 2 1000 8).call (by rfl)
    exact absurd (kept .rcvBytes) (by decide)

end LinuxMonitor.Monitor.NetMonitor
