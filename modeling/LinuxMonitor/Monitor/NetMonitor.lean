import Mathlib.Algebra.Order.Field.Rat
import Mathlib.Algebra.BigOperators.Group.List.Basic
import Mathlib.Tactic.FieldSimp
import Mathlib.Tactic.Ring
import Mathlib.Tactic.Positivity
import LinuxMonitor.Library.Baseline
import LinuxMonitor.Monitor.NetStats
import LinuxMonitor.Proto

/-!
# `NetMonitor`: the rates of the interfaces

`updateOnce` merges the eBPF statistics with those of `/proc/net/dev`, where an
interface that `/proc` does not list gets zeros, and computes eight rates for each
interface against the sample stored under its name.  It returns early, and stores
nothing, when the eBPF statistics are empty.

* `rate_message`: each of the eight rates is the difference of its counter divided by
  the counter's unit and the elapsed time.
* `reported_eq_alone`: what is reported for a name depends on the appearances of that
  name alone.
* `traffic_conserved`: **over any run the rates of an interface, each times the time it
  covers, add up to the growth of the true count between the first and the last
  appearance.**
-/

set_option autoImplicit false

namespace LinuxMonitor.Monitor.NetMonitor

open Library Bpf

/-! ## The monitor -/

/-- `struct NetInfo`: a sample and the reading of the steady clock, in nanoseconds. -/
structure NetInfo extends NetStat where
  timepoint : ℤ
deriving DecidableEq, Repr

/-- The members of `NetMonitor` that `updateOnce` uses. -/
structure State where
  lastNetInfo : AList (fun _ : Text => NetInfo)
  total : IfCounters

/-- A new monitor. -/
def State.initial : State := ⟨∅, .zero⟩

/-- What one call of `updateOnce` meets: the clock, the eBPF map and the content of
`/proc/net/dev`. -/
structure Call where
  now : ℤ
  ifStats : Option MapView
  netDev : Option Text

/-- `std::chrono::duration<double>(now - last.timepoint).count()` -/
def seconds (earlier later : ℤ) : ℚ := (later - earlier : ℤ) / 10 ^ 9

/-- One entry of `current_stats`: the eBPF counters, and the counters of `/proc` or
zeros. -/
def mergedStat (procStats : AList fun _ : Text => NetStat) (ifname : Text)
    (ebpfData : IfCounters) : NetStat :=
  let s : NetStat := { NetStat.named ifname with
    rcvBytes := ebpfData.rcvBytes
    rcvPackets := ebpfData.rcvPackets
    sndBytes := ebpfData.sndBytes
    sndPackets := ebpfData.sndPackets }
  match procStats.lookup ifname with
  | some proc => { s with
      errIn := proc.errIn
      dropIn := proc.dropIn
      errOut := proc.errOut
      dropOut := proc.dropOut }
  | none => { s with errIn := 0, dropIn := 0, errOut := 0, dropOut := 0 }

/-- The eight rates of a message. -/
structure Rates where
  rcvRate : ℚ
  rcvPacketsRate : ℚ
  sendRate : ℚ
  sendPacketsRate : ℚ
  errInRate : ℚ
  errOutRate : ℚ
  dropInRate : ℚ
  dropOutRate : ℚ
deriving DecidableEq, Repr

def Rates.zero : Rates := ⟨0, 0, 0, 0, 0, 0, 0, 0⟩

/-- The rates over `dt` seconds.  The differences are taken in `uint64_t`. -/
def ratesOver (dt : ℚ) (stat last : NetStat) : Rates :=
  { rcvRate := (stat.rcvBytes - last.rcvBytes).toNat / 1024 / dt
    rcvPacketsRate := (stat.rcvPackets - last.rcvPackets).toNat / dt
    sendRate := (stat.sndBytes - last.sndBytes).toNat / 1024 / dt
    sendPacketsRate := (stat.sndPackets - last.sndPackets).toNat / dt
    errInRate := (stat.errIn - last.errIn).toNat / dt
    errOutRate := (stat.errOut - last.errOut).toNat / dt
    dropInRate := (stat.dropIn - last.dropIn).toNat / dt
    dropOutRate := (stat.dropOut - last.dropOut).toNat / dt }

/-- The rates against the stored sample, zero when there is none or no time has
passed. -/
def rates (last : Option NetInfo) (current : NetInfo) : Rates :=
  match last with
  | some last =>
      let dt := seconds last.timepoint current.timepoint
      if dt > 0 then ratesOver dt current.toNetStat last.toNetStat else .zero
  | none => .zero

/-- The message of one interface. -/
def message (last : Option NetInfo) (current : NetInfo) : Proto.NetInfo ℚ :=
  let r := rates last current
  { name := current.name
    sendRate := r.sendRate
    rcvRate := r.rcvRate
    sendPacketsRate := r.sendPacketsRate
    rcvPacketsRate := r.rcvPacketsRate
    errIn := current.errIn.toNat
    errOut := current.errOut.toNat
    dropIn := current.dropIn.toNat
    dropOut := current.dropOut.toNat
    errInRate := r.errInRate
    errOutRate := r.errOutRate
    dropInRate := r.dropInRate
    dropOutRate := r.dropOutRate }

/-- The result of `ebpf_get_net_stats()` in a call. -/
def Call.ebpfStats (call : Call) : AList (fun _ : Text => IfCounters) :=
  (ebpfGetNetStats call.ifStats .zero).statesMap

/-- `NetMonitor::UpdateOnce`: the loop looks up, reports and stores the samples one after
the other. -/
def updateOnce (call : Call) (state : State) : List (Proto.NetInfo ℚ) × State :=
  let ebpf := ebpfGetNetStats call.ifStats state.total
  if ebpf.statesMap.entries = [] then ([], { state with total := ebpf.total })
  else
    let procStats := procGetNetErrDropStats call.netDev
    let currentStats := ebpf.statesMap.entries.map fun e => mergedStat procStats e.1 e.2
    let (messages, lastNetInfo) :=
      sweep message (currentStats.map fun stat => (stat.name, ⟨stat, call.now⟩)) state.lastNetInfo
    (messages.map Prod.snd, ⟨lastNetInfo, ebpf.total⟩)

/-- The messages of each call of a run, and the state after it. -/
def run : List Call → State → List (List (Proto.NetInfo ℚ)) × State
  | [], state => ([], state)
  | call :: calls, state =>
      let (messages, state) := updateOnce call state
      let (later, final) := run calls state
      (messages :: later, final)

/-! ## The eight counters -/

/-- The counters of `struct NetStat`. -/
inductive Counter where
  | rcvBytes
  | rcvPackets
  | sndBytes
  | sndPackets
  | errIn
  | errOut
  | dropIn
  | dropOut
deriving DecidableEq, Repr

/-- The value of a counter in a sample. -/
def Counter.value : Counter → NetStat → UInt64
  | .rcvBytes => NetStat.rcvBytes
  | .rcvPackets => NetStat.rcvPackets
  | .sndBytes => NetStat.sndBytes
  | .sndPackets => NetStat.sndPackets
  | .errIn => NetStat.errIn
  | .errOut => NetStat.errOut
  | .dropIn => NetStat.dropIn
  | .dropOut => NetStat.dropOut

/-- The rate of a counter in a message. -/
def Counter.rate : Counter → Proto.NetInfo ℚ → ℚ
  | .rcvBytes => Proto.NetInfo.rcvRate
  | .rcvPackets => Proto.NetInfo.rcvPacketsRate
  | .sndBytes => Proto.NetInfo.sendRate
  | .sndPackets => Proto.NetInfo.sendPacketsRate
  | .errIn => Proto.NetInfo.errInRate
  | .errOut => Proto.NetInfo.errOutRate
  | .dropIn => Proto.NetInfo.dropInRate
  | .dropOut => Proto.NetInfo.dropOutRate

/-- What the rate of a counter is given in: bytes in KB, the others each by one. -/
def Counter.unit : Counter → ℚ
  | .rcvBytes => 1024
  | .sndBytes => 1024
  | _ => 1

theorem Counter.unit_pos (c : Counter) : 0 < c.unit := by
  cases c <;> simp [unit]

theorem seconds_pos {earlier later : ℤ} (passed : earlier < later) : 0 < seconds earlier later := by
  have gap : (0 : ℚ) < (later - earlier : ℤ) := Int.cast_pos.mpr (Int.sub_pos.mpr passed)
  unfold seconds
  positivity

theorem rate_first (current : NetInfo) (c : Counter) : c.rate (message none current) = 0 := by
  cases c <;> rfl

/-- **The rate of a counter.** -/
theorem rate_message {last current : NetInfo} (later : last.timepoint < current.timepoint)
    (c : Counter) :
    c.rate (message (some last) current) =
      (c.value current.toNetStat - c.value last.toNetStat).toNat / c.unit /
        seconds last.timepoint current.timepoint := by
  have positive := seconds_pos later
  cases c <;>
    simp [Counter.rate, Counter.value, Counter.unit, message, rates, positive, ratesOver]

/-! ## The appearances of one interface -/

theorem name_mergedStat (procStats : AList fun _ : Text => NetStat) (ifname : Text)
    (ebpfData : IfCounters) : (mergedStat procStats ifname ebpfData).name = ifname := by
  unfold mergedStat
  cases procStats.lookup ifname <;> rfl

/-- The sample of an interface with its eBPF counters. -/
def Call.sampleOf (call : Call) (ifname : Text) (ebpfData : IfCounters) : NetInfo :=
  ⟨mergedStat (procGetNetErrDropStats call.netDev) ifname ebpfData, call.now⟩

/-- The samples of a call, in the order of the loop. -/
def Call.samples (call : Call) : List (Text × NetInfo) :=
  call.ebpfStats.entries.map fun e => (e.1, call.sampleOf e.1 e.2)

/-- The sample of one interface, if the call has one. -/
def Call.sample (call : Call) (ifname : Text) : Option NetInfo :=
  (call.ebpfStats.lookup ifname).map (call.sampleOf ifname)

/-- The samples of one interface over a run. -/
def appearances (ifname : Text) (calls : List Call) : List NetInfo :=
  calls.filterMap fun call => call.sample ifname

/-- The messages about one interface over a run of a new monitor. -/
def reported (ifname : Text) (calls : List Call) : List (Proto.NetInfo ℚ) :=
  (run calls .initial).1.flatten.filter fun report => report.name = ifname

/-- A call is a sweep over its samples. -/
theorem updateOnce_eq (call : Call) (state : State) :
    (updateOnce call state).1 = (sweep message call.samples state.lastNetInfo).1.map Prod.snd ∧
      (updateOnce call state).2.lastNetInfo =
        (sweep message call.samples state.lastNetInfo).2 := by
  have same := statesMap_total call.ifStats state.total .zero
  have samples : (call.ebpfStats.entries.map fun e =>
      mergedStat (procGetNetErrDropStats call.netDev) e.1 e.2).map
        (fun stat => (stat.name, (⟨stat, call.now⟩ : NetInfo))) = call.samples := by
    simp only [List.map_map, Call.samples, Call.sampleOf]
    apply List.map_congr_left
    intro e _
    simp [name_mergedStat]
  unfold updateOnce
  simp only [same]
  by_cases nothing : (ebpfGetNetStats call.ifStats .zero).statesMap.entries = []
  · have none : call.samples = [] := by simp [Call.samples, Call.ebpfStats, nothing]
    rw [if_pos nothing, none]
    exact ⟨rfl, rfl⟩
  · rw [if_neg nothing]
    rw [Call.ebpfStats] at samples
    rw [samples]
    exact ⟨rfl, rfl⟩

/-- A run is one sweep over the samples of its calls. -/
theorem run_eq (calls : List Call) (state : State) :
    (run calls state).1.flatten =
        (sweep message (calls.flatMap Call.samples) state.lastNetInfo).1.map Prod.snd ∧
      (run calls state).2.lastNetInfo =
        (sweep message (calls.flatMap Call.samples) state.lastNetInfo).2 := by
  induction calls generalizing state with
  | nil => exact ⟨rfl, rfl⟩
  | cons call calls ih =>
      obtain ⟨messages, stored⟩ := updateOnce_eq call state
      obtain ⟨later, final⟩ := ih (updateOnce call state).2
      rw [stored] at later final
      rw [List.flatMap_cons, sweep_append]
      constructor
      · simp only [run, List.flatten_cons, messages, later, List.map_append]
      · exact final

theorem ofKey_samples (ifname : Text) (call : Call) :
    ofKey ifname call.samples = (call.sample ifname).toList :=
  ofKey_entries ifname call.sampleOf call.ebpfStats

theorem ofKey_flatMap_samples (ifname : Text) (calls : List Call) :
    ofKey ifname (calls.flatMap Call.samples) = appearances ifname calls := by
  rw [ofKey_flatMap]
  induction calls with
  | nil => rfl
  | cons call calls ih =>
      rw [List.flatMap_cons, ofKey_samples, ih, appearances, appearances, List.filterMap_cons]
      cases call.sample ifname <;> rfl

theorem name_of_mem_samples {call : Call} {sample : Text × NetInfo}
    (member : sample ∈ call.samples) : sample.2.name = sample.1 := by
  obtain ⟨e, _, rfl⟩ := List.mem_map.mp member
  exact name_mergedStat _ _ _

/-- What the monitor has stored for a name is the name's last sample. -/
theorem lookup_run (ifname : Text) (calls : List Call) :
    (run calls .initial).2.lastNetInfo.lookup ifname = (appearances ifname calls).getLast? := by
  rw [(run_eq calls .initial).2, lookup_sweep, ofKey_flatMap_samples]
  exact Option.or_none

/-- **What is reported for a name depends on its appearances alone.** -/
theorem reported_eq_alone (ifname : Text) (calls : List Call) :
    reported ifname calls = alone message none (appearances ifname calls) := by
  have named : ∀ output ∈ (sweep message (calls.flatMap Call.samples) State.initial.lastNetInfo).1,
      output.2.name = output.1 := by
    intro output member
    obtain ⟨sample, inside, previous, rfl⟩ := exists_of_mem_sweep member
    obtain ⟨call, _, here⟩ := List.mem_flatMap.mp inside
    exact name_of_mem_samples here
  rw [reported, (run_eq calls .initial).1, ← ofKey_eq_filter named, ofKey_sweep,
    ofKey_flatMap_samples]
  rfl

/-! ## Conservation of the traffic -/

/-- The counter that a field of the eBPF map feeds. -/
def Counter.ofField : Field → Counter
  | .rcvBytes => .rcvBytes
  | .rcvPackets => .rcvPackets
  | .sndBytes => .sndBytes
  | .sndPackets => .sndPackets

/-- When an interface is seen in the eBPF statistics, and with which counters. -/
def seen (ifname : Text) (calls : List Call) : List (ℤ × IfCounters) :=
  calls.filterMap fun call => (call.ebpfStats.lookup ifname).map fun data => (call.now, data)

/-- The seconds between consecutive times. -/
def gaps : List ℤ → List ℚ
  | first :: second :: times => seconds first second :: gaps (second :: times)
  | _ => []

/-- The rate of a field from what is seen in the eBPF statistics. -/
def trafficRate (f : Field) : Option (ℤ × IfCounters) → ℤ × IfCounters → ℚ
  | none, _ => 0
  | some last, current =>
      if seconds last.1 current.1 > 0 then
        (current.2.get f - last.2.get f).toNat / (Counter.ofField f).unit /
          seconds last.1 current.1
      else 0

/-- What a sample holds of the eBPF statistics. -/
def NetInfo.ebpf (sample : NetInfo) : ℤ × IfCounters :=
  (sample.timepoint,
    ⟨sample.rcvBytes, sample.rcvPackets, sample.sndBytes, sample.sndPackets⟩)

theorem ebpf_sampleOf (call : Call) (ifname : Text) (data : IfCounters) :
    (call.sampleOf ifname data).ebpf = (call.now, data) := by
  unfold Call.sampleOf mergedStat
  cases (procGetNetErrDropStats call.netDev).lookup ifname <;> rfl

theorem map_ebpf_appearances (ifname : Text) (calls : List Call) :
    (appearances ifname calls).map NetInfo.ebpf = seen ifname calls := by
  rw [appearances, seen, List.map_filterMap]
  apply List.filterMap_congr
  intro call _
  rw [Call.sample, Option.map_map]
  apply Option.map_congr
  intro data _
  exact ebpf_sampleOf call ifname data

theorem rate_message_ebpf (f : Field) (last : Option NetInfo) (current : NetInfo) :
    (Counter.ofField f).rate (message last current) =
      trafficRate f (last.map NetInfo.ebpf) current.ebpf := by
  cases last with
  | none => exact rate_first current _
  | some last =>
      by_cases passed : seconds last.timepoint current.timepoint > 0
      · cases f <;>
          simp [Counter.ofField, Counter.rate, message, rates, passed, ratesOver, trafficRate,
            NetInfo.ebpf, IfCounters.get, Counter.unit]
      · cases f <;>
          simp [Counter.ofField, Counter.rate, message, rates, passed, Rates.zero, trafficRate,
            NetInfo.ebpf]

/-- The rates of an interface follow from when and with which counters it is seen. -/
theorem rates_reported (f : Field) (ifname : Text) (calls : List Call) :
    (reported ifname calls).map (Counter.ofField f).rate =
      alone (trafficRate f) none (seen ifname calls) := by
  rw [reported_eq_alone, map_alone (rate_message_ebpf f), map_ebpf_appearances]
  rfl

theorem trafficRate_nonneg (f : Field) (last : Option (ℤ × IfCounters)) (current : ℤ × IfCounters) :
    0 ≤ trafficRate f last current := by
  cases last with
  | none => exact le_rfl
  | some last =>
      have unit := (Counter.ofField f).unit_pos
      rw [trafficRate]
      split
      · positivity
      · exact le_rfl

theorem nonneg_of_mem_alone {f : Field} {last : Option (ℤ × IfCounters)}
    {samples : List (ℤ × IfCounters)} : ∀ r ∈ alone (trafficRate f) last samples, 0 ≤ r := by
  induction samples generalizing last with
  | nil => exact fun r member => by cases member
  | cons sample samples ih =>
      intro r member
      rcases List.mem_cons.mp member with rfl | later
      · exact trafficRate_nonneg f last sample
      · exact ih r later

/-- From one sample on, the rates times the gaps add up to the growth of the count. -/
theorem sum_rates_gaps {f : Field} {last : ℤ × IfCounters} {samples : List (ℤ × IfCounters)}
    {count : ℕ} {counts : List ℕ} (increasing : (last :: samples).IsChain fun a b => a.1 < b.1)
    (reads : List.Forall₂ ReadsResidue ((last :: samples).map fun s => s.2.get f) (count :: counts))
    (slow : GrowsSlowly (count :: counts)) :
    (List.zipWith (· * ·) (alone (trafficRate f) (some last) samples)
        (gaps ((last :: samples).map Prod.fst))).sum =
      (((counts.getLastD count : ℕ) : ℚ) - count) / (Counter.ofField f).unit := by
  induction samples generalizing last count counts with
  | nil =>
      cases reads with
      | cons _ rest =>
          cases rest
          simp [alone, gaps]
  | cons sample samples ih =>
      obtain _ | ⟨readsLast, rest⟩ := reads
      obtain _ | @⟨_, next, _, counts, readsNext, further⟩ := rest
      have first := List.isChain_cons_cons.mp increasing
      have step := List.isChain_cons_cons.mp slow
      have tail := ih first.2 (.cons readsNext further) step.2
      have passed : seconds last.1 sample.1 > 0 := seconds_pos first.1
      have unit := (Counter.ofField f).unit_pos
      have growth := toNat_sub_of_residue readsLast readsNext step.1.1 step.1.2
      rw [alone]
      simp only [List.map_cons, gaps, List.zipWith_cons_cons, List.sum_cons] at tail ⊢
      rw [tail, trafficRate, if_pos passed, growth, Nat.cast_sub step.1.1, List.getLastD_cons]
      field_simp
      ring

/-- A name is seen at increasing times. -/
theorem seen_increasing (ifname : Text) {calls : List Call}
    (increasing : calls.Pairwise fun a b => a.now < b.now) :
    (seen ifname calls).IsChain fun a b => a.1 < b.1 := by
  refine (increasing.filterMap _ ?_).isChain
  intro a b before x fromA y fromB
  obtain ⟨_, _, rfl⟩ := Option.map_eq_some_iff.mp fromA
  obtain ⟨_, _, rfl⟩ := Option.map_eq_some_iff.mp fromB
  exact before

/-- **No traffic is lost and none is invented.**  Take any run at increasing times and a
field whose values under a name are the residues of slowly growing counts.  Each
appearance of the name is reported once, the first with rate zero and the others with a
rate that is not negative.  The rates of the later appearances, each times the time since
the previous appearance, add up to the growth of the count in the rate's unit, and all
these rates are the same in every run in which the name is seen in the same way. -/
theorem traffic_conserved (ifname : Text) (f : Field) {calls : List Call} {counts : List ℕ}
    (increasing : calls.Pairwise fun a b => a.now < b.now)
    (reads : List.Forall₂ ReadsResidue ((seen ifname calls).map fun s => s.2.get f) counts)
    (slow : GrowsSlowly counts) :
    (reported ifname calls).length = (seen ifname calls).length ∧
      (∀ report ∈ (reported ifname calls).head?, (Counter.ofField f).rate report = 0) ∧
      (∀ report ∈ (reported ifname calls).tail, 0 ≤ (Counter.ofField f).rate report) ∧
      (List.zipWith (· * ·) ((reported ifname calls).tail.map (Counter.ofField f).rate)
          (gaps ((seen ifname calls).map Prod.fst))).sum =
        (((counts.getLastD 0 : ℕ) : ℚ) - (counts.headD 0 : ℕ)) / (Counter.ofField f).unit ∧
      ∀ others, seen ifname others = seen ifname calls →
        (reported ifname others).map (Counter.ofField f).rate =
          (reported ifname calls).map (Counter.ofField f).rate := by
  have rates := rates_reported f ifname calls
  have lengths := congrArg List.length rates
  rw [List.length_map, length_alone] at lengths
  refine ⟨lengths, ?_, ?_, ?_, ?_⟩
  · intro report first
    rw [reported_eq_alone] at first
    cases appeared : appearances ifname calls with
    | nil =>
        rw [appeared] at first
        cases first
    | cons sample samples =>
        rw [appeared] at first
        cases first
        exact rate_first sample _
  · intro report member
    have inside : (Counter.ofField f).rate report ∈
        alone (trafficRate f) none (seen ifname calls) := by
      rw [← rates]
      exact List.mem_map_of_mem (List.mem_of_mem_tail member)
    exact nonneg_of_mem_alone _ inside
  · have chain := seen_increasing ifname increasing
    rw [List.map_tail, rates]
    cases appeared : seen ifname calls with
    | nil =>
        rw [appeared] at reads
        cases reads
        simp [alone, gaps]
    | cons sample samples =>
        rw [appeared] at reads chain
        obtain _ | @⟨_, count, _, counts, readsFirst, further⟩ := reads
        have sum := sum_rates_gaps chain (.cons readsFirst further) slow
        rw [alone, List.tail_cons, sum, List.getLastD_cons, List.headD_cons]
  · intro others same
    rw [rates, rates_reported, same]

/-- An interface that is seen alone, with the given counters. -/
def soleCall (now : ℤ) (counters : IfCounters) : Call :=
  { now := now
    ifStats := some ⟨[2], fun _ => some [counters], fun _ => "eth0".toList⟩
    netDev := none }

/-- Two appearances of an interface with an early return between them; its received bytes
wrap around after 24 bytes. -/
def wrapCalls : List Call :=
  [soleCall 0 ⟨18446744073709551592, 7, 0, 0⟩, ⟨1000000000, none, none⟩,
    soleCall 3000000000 ⟨1000, 9, 0, 0⟩]

theorem traffic_conserved_wrap :
    (List.zipWith (· * ·) ((reported "eth0".toList wrapCalls).tail.map Counter.rcvBytes.rate)
      (gaps ((seen "eth0".toList wrapCalls).map Prod.fst))).sum = 1 := by
  have increasing : wrapCalls.Pairwise fun a b => a.now < b.now := by decide
  have readings : (seen "eth0".toList wrapCalls).map (fun s => s.2.get .rcvBytes) =
      [18446744073709551592, 1000] := by decide
  have reads : List.Forall₂ ReadsResidue
      ((seen "eth0".toList wrapCalls).map fun s => s.2.get .rcvBytes)
      [2 ^ 64 - 24, 2 ^ 64 + 1000] := by
    rw [readings]
    simp [ReadsResidue]
  have slow : GrowsSlowly [2 ^ 64 - 24, 2 ^ 64 + 1000] := by
    simp [GrowsSlowly]
  have conserved := traffic_conserved "eth0".toList .rcvBytes increasing reads slow
  rw [Counter.ofField] at conserved
  rw [conserved.2.2.2.1]
  norm_num [Counter.unit]

end LinuxMonitor.Monitor.NetMonitor
