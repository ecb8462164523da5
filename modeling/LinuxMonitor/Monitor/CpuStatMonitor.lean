import Mathlib.Algebra.Order.Field.Rat
import Mathlib.Data.List.Chain
import Mathlib.Tactic.FieldSimp
import Mathlib.Tactic.Linarith
import Mathlib.Tactic.Positivity
import Mathlib.Tactic.Ring
import LinuxMonitor.Library.Baseline
import LinuxMonitor.PerformanceServer.Metrics

/-!
# `CpuStatMonitor`: the shares of each CPU's time

`updateOnce` maps the kernel module's array of per-CPU samples and visits its entries up
to the first one without a name.  An entry is compared with the sample stored under the
same CPU name and then stored.  The totals and the busy times are sums in `u64` that are
converted to `float`; the model takes that conversion as a parameter, and `unrounded` is
the conversion without rounding.

* `reported_eq_alone`: what is reported for a CPU depends on its own samples alone.
* `accounts_of_counting`: the shares of two samples of one CPU describe one partition of
  the time between them.
* `shares_partition_time`: **so do the entries of every run that have a baseline and a
  larger total, whatever other CPUs appear or vanish.**
-/

set_option autoImplicit false

namespace LinuxMonitor.Monitor.CpuStatMonitor

open Library PerformanceServer

/-! ## The monitor -/

/-- The members of `struct cpu_stat` that the monitor reads. -/
structure CpuStat where
  cpuName : Text
  user : UInt64
  system : UInt64
  idle : UInt64
  nice : UInt64
  ioWait : UInt64
  irq : UInt64
  softIrq : UInt64
  steal : UInt64
deriving DecidableEq, Repr

/-- `cpu_total_time`, a sum in `u64`. -/
def CpuStat.totalTime (s : CpuStat) : UInt64 :=
  s.user + s.system + s.idle + s.nice + s.ioWait + s.irq + s.softIrq + s.steal

/-- `cpu_busy_time`, a sum in `u64`. -/
def CpuStat.busyTime (s : CpuStat) : UInt64 :=
  s.user + s.system + s.nice + s.irq + s.softIrq + s.steal

/-- An entry whose percentages are all zero. -/
def zeroEntry (cpuName : Text) : Proto.CpuStat ℚ := ⟨cpuName, 0, 0, 0, 0, 0, 0, 0, 0⟩

/-- The entry of one CPU.  `float` converts a `u64`. -/
def entry (float : UInt64 → ℚ) (last : Option CpuStat) (stat : CpuStat) : Proto.CpuStat ℚ :=
  match last with
  | none => zeroEntry stat.cpuName
  | some old =>
      let newCpuTotalTime := float stat.totalTime
      let oldCpuTotalTime := float old.totalTime
      let newCpuBusyTime := float stat.busyTime
      let oldCpuBusyTime := float old.busyTime
      let total := newCpuTotalTime - oldCpuTotalTime
      if total > 0 then
        { cpuName := stat.cpuName
          cpuPercent := (newCpuBusyTime - oldCpuBusyTime) / total * 100
          usrPercent := float (stat.user - old.user) / total * 100
          systemPercent := float (stat.system - old.system) / total * 100
          nicePercent := float (stat.nice - old.nice) / total * 100
          idlePercent := float (stat.idle - old.idle) / total * 100
          ioWaitPercent := float (stat.ioWait - old.ioWait) / total * 100
          irqPercent := float (stat.irq - old.irq) / total * 100
          softIrqPercent := float (stat.softIrq - old.softIrq) / total * 100 }
      else zeroEntry stat.cpuName

/-- What `open` and `mmap` give: the number of online CPUs and the mapped array. -/
structure Device where
  statCount : ℕ
  stats : List CpuStat

/-- The entries the loop visits, with the keys under which it looks them up. -/
def Device.samples (device : Device) : List (Text × CpuStat) :=
  ((device.stats.take device.statCount).takeWhile fun s => s.cpuName ≠ []).map
    fun s => (s.cpuName, s)

/-- The member `cpu_stat_map_`. -/
abbrev CpuStatMap := AList (fun _ : Text => CpuStat)

/-- `CpuStatMonitor::UpdateOnce`; the device may not open or not map. -/
def updateOnce (float : UInt64 → ℚ) (device : Option Device) (cpuStatMap : CpuStatMap) :
    List (Proto.CpuStat ℚ) × CpuStatMap :=
  match device with
  | none => ([], cpuStatMap)
  | some device =>
      let (entries, cpuStatMap) := sweep (entry float) device.samples cpuStatMap
      (entries.map Prod.snd, cpuStatMap)

/-- The entries of each call of a run, and the samples stored after it. -/
def run (float : UInt64 → ℚ) : List (Option Device) → CpuStatMap →
    List (List (Proto.CpuStat ℚ)) × CpuStatMap
  | [], cpuStatMap => ([], cpuStatMap)
  | device :: devices, cpuStatMap =>
      let (entries, cpuStatMap) := updateOnce float device cpuStatMap
      let (later, final) := run float devices cpuStatMap
      (entries :: later, final)

/-! ## The samples of one CPU -/

/-- The samples of a call, none when the device is not there. -/
def callSamples (device : Option Device) : List (Text × CpuStat) :=
  (device.map Device.samples).getD []

/-- The samples of one CPU over a run. -/
def samplesOf (cpuName : Text) (devices : List (Option Device)) : List CpuStat :=
  ofKey cpuName (devices.flatMap callSamples)

/-- The entries about one CPU over a run of a new monitor. -/
def reported (float : UInt64 → ℚ) (cpuName : Text) (devices : List (Option Device)) :
    List (Proto.CpuStat ℚ) :=
  (run float devices ∅).1.flatten.filter fun e => e.cpuName = cpuName

theorem updateOnce_eq (float : UInt64 → ℚ) (device : Option Device) (cpuStatMap : CpuStatMap) :
    updateOnce float device cpuStatMap =
      ((sweep (entry float) (callSamples device) cpuStatMap).1.map Prod.snd,
        (sweep (entry float) (callSamples device) cpuStatMap).2) := by
  cases device <;> rfl

/-- A run is one sweep over the samples of its calls. -/
theorem run_eq (float : UInt64 → ℚ) (devices : List (Option Device)) (cpuStatMap : CpuStatMap) :
    (run float devices cpuStatMap).1.flatten =
      (sweep (entry float) (devices.flatMap callSamples) cpuStatMap).1.map Prod.snd := by
  induction devices generalizing cpuStatMap with
  | nil => rfl
  | cons device devices ih =>
      rw [List.flatMap_cons, sweep_append, List.map_append, run, updateOnce_eq, List.flatten_cons,
        ih]

theorem cpuName_entry (float : UInt64 → ℚ) (last : Option CpuStat) (stat : CpuStat) :
    (entry float last stat).cpuName = stat.cpuName := by
  cases last with
  | none => rfl
  | some old =>
      unfold entry
      dsimp only
      split <;> rfl

theorem cpuName_of_mem_callSamples {device : Option Device} {sample : Text × CpuStat}
    (member : sample ∈ callSamples device) : sample.2.cpuName = sample.1 := by
  cases device with
  | none => cases member
  | some device =>
      obtain ⟨stat, _, rfl⟩ := List.mem_map.mp member
      rfl

/-- **What is reported for a CPU depends on its own samples alone.** -/
theorem reported_eq_alone (float : UInt64 → ℚ) (cpuName : Text) (devices : List (Option Device)) :
    reported float cpuName devices = alone (entry float) none (samplesOf cpuName devices) := by
  have named : ∀ output ∈ (sweep (entry float) (devices.flatMap callSamples) ∅).1,
      output.2.cpuName = output.1 := by
    intro output member
    obtain ⟨sample, inside, previous, rfl⟩ := exists_of_mem_sweep member
    obtain ⟨device, _, here⟩ := List.mem_flatMap.mp inside
    exact (cpuName_entry _ _ _).trans (cpuName_of_mem_callSamples here)
  rw [reported, run_eq, ← ofKey_eq_filter named, ofKey_sweep, samplesOf]
  rfl

/-! ## The partition of a CPU's time -/

/-- The conversion of a `u64` without rounding. -/
def unrounded (n : UInt64) : ℚ := n.toNat

/-- The time counted in all eight classes. -/
def CpuStat.counted (s : CpuStat) : ℕ :=
  s.user.toNat + s.system.toNat + s.idle.toNat + s.nice.toNat + s.ioWait.toNat + s.irq.toNat +
    s.softIrq.toNat + s.steal.toNat

/-- The later sample of a CPU none of whose counters has decreased. -/
structure Counting (old new : CpuStat) : Prop where
  user : old.user ≤ new.user
  system : old.system ≤ new.system
  idle : old.idle ≤ new.idle
  nice : old.nice ≤ new.nice
  ioWait : old.ioWait ≤ new.ioWait
  irq : old.irq ≤ new.irq
  softIrq : old.softIrq ≤ new.softIrq
  steal : old.steal ≤ new.steal

/-- What a counter has gained, in percent of the time counted between the samples. -/
def gained (old new : CpuStat) (counter : CpuStat → UInt64) : ℚ :=
  100 * ((counter new).toNat - (counter old).toNat) / (new.counted - old.counted)

/-- The eight percentages of an entry. -/
def percentages (e : Proto.CpuStat ℚ) : List ℚ :=
  [e.cpuPercent, e.usrPercent, e.systemPercent, e.nicePercent, e.idlePercent, e.ioWaitPercent,
    e.irqPercent, e.softIrqPercent]

/-- An entry describes one partition of the time between two samples. -/
structure Accounts (old new : CpuStat) (e : Proto.CpuStat ℚ) : Prop where
  inRange : ∀ p ∈ percentages e, 0 ≤ p ∧ p ≤ 100
  whole : e.cpuPercent + e.idlePercent + e.ioWaitPercent = 100
  busy : e.usrPercent + e.systemPercent + e.nicePercent + e.irqPercent + e.softIrqPercent +
    gained old new CpuStat.steal = e.cpuPercent
  steal : calculateCPUStealPercent e = gained old new CpuStat.steal
  classes : [e.usrPercent, e.systemPercent, e.nicePercent, e.idlePercent, e.ioWaitPercent,
      e.irqPercent, e.softIrqPercent] =
    [CpuStat.user, CpuStat.system, CpuStat.nice, CpuStat.idle, CpuStat.ioWait, CpuStat.irq,
      CpuStat.softIrq].map (gained old new)

theorem toNat_totalTime {s : CpuStat} (small : s.counted < 2 ^ 64) :
    s.totalTime.toNat = s.counted := by
  unfold CpuStat.counted at small ⊢
  simp only [CpuStat.totalTime, UInt64.toNat_add]
  omega

theorem toNat_busyTime {s : CpuStat} (small : s.counted < 2 ^ 64) :
    s.busyTime.toNat + s.idle.toNat + s.ioWait.toNat = s.counted := by
  unfold CpuStat.counted at small ⊢
  simp only [CpuStat.busyTime, UInt64.toNat_add]
  omega

theorem unrounded_sub {a b : UInt64} (le : a ≤ b) : unrounded (b - a) = b.toNat - a.toNat := by
  rw [unrounded, UInt64.toNat_sub_of_le _ _ le, Nat.cast_sub (UInt64.le_iff_toNat_le.mp le)]

theorem gained_nonneg {old new : CpuStat} {counter : CpuStat → UInt64}
    (counts : counter old ≤ counter new) (more : old.counted < new.counted) :
    0 ≤ gained old new counter := by
  have total : (0 : ℚ) < new.counted - old.counted := sub_pos.mpr (Nat.cast_lt.mpr more)
  have numerator : (0 : ℚ) ≤ (counter new).toNat - (counter old).toNat :=
    sub_nonneg.mpr (Nat.cast_le.mpr (UInt64.le_iff_toNat_le.mp counts))
  rw [gained]
  positivity

/-- The classes share the time between two samples. -/
theorem gained_sum {old new : CpuStat} (more : old.counted < new.counted) :
    gained old new CpuStat.user + gained old new CpuStat.system + gained old new CpuStat.idle +
      gained old new CpuStat.nice + gained old new CpuStat.ioWait + gained old new CpuStat.irq +
      gained old new CpuStat.softIrq + gained old new CpuStat.steal = 100 := by
  have total : (new.counted : ℚ) - old.counted ≠ 0 :=
    (sub_pos.mpr (Nat.cast_lt.mpr more)).ne'
  unfold gained
  field_simp
  push_cast [CpuStat.counted]
  ring

/-- The total of the earlier sample is the smaller one. -/
theorem Counting.counted_le {old new : CpuStat} (counting : Counting old new) :
    old.counted ≤ new.counted := by
  obtain ⟨user, system, idle, nice, ioWait, irq, softIrq, steal⟩ := counting
  simp only [UInt64.le_iff_toNat_le] at user system idle nice ioWait irq softIrq steal
  unfold CpuStat.counted
  omega

/-- The entry of two samples in terms of the gains. -/
theorem entry_eq {old new : CpuStat} (counting : Counting old new) (small : new.counted < 2 ^ 64)
    (more : old.counted < new.counted) :
    entry unrounded (some old) new =
      { cpuName := new.cpuName
        cpuPercent := 100 - gained old new CpuStat.idle - gained old new CpuStat.ioWait
        usrPercent := gained old new CpuStat.user
        systemPercent := gained old new CpuStat.system
        nicePercent := gained old new CpuStat.nice
        idlePercent := gained old new CpuStat.idle
        ioWaitPercent := gained old new CpuStat.ioWait
        irqPercent := gained old new CpuStat.irq
        softIrqPercent := gained old new CpuStat.softIrq } := by
  have smallOld : old.counted < 2 ^ 64 := counting.counted_le.trans_lt small
  have total : unrounded new.totalTime - unrounded old.totalTime = new.counted - old.counted := by
    rw [unrounded, unrounded, toNat_totalTime small, toNat_totalTime smallOld]
  have positive : (0 : ℚ) < new.counted - old.counted := sub_pos.mpr (Nat.cast_lt.mpr more)
  have share : ∀ counter : CpuStat → UInt64, counter old ≤ counter new →
      unrounded (counter new - counter old) / (new.counted - old.counted) * 100 =
        gained old new counter := by
    intro counter le
    rw [unrounded_sub le, gained]
    ring
  have busyNew : unrounded new.busyTime = new.counted - new.idle.toNat - new.ioWait.toNat := by
    rw [unrounded, ← toNat_busyTime small]
    push_cast
    ring
  have busyOld : unrounded old.busyTime = old.counted - old.idle.toNat - old.ioWait.toNat := by
    rw [unrounded, ← toNat_busyTime smallOld]
    push_cast
    ring
  have busy : (unrounded new.busyTime - unrounded old.busyTime) /
      (new.counted - old.counted) * 100 =
      100 - gained old new CpuStat.idle - gained old new CpuStat.ioWait := by
    rw [busyNew, busyOld, gained, gained]
    field_simp
    ring
  simp only [entry, total, gt_iff_lt, if_pos positive, busy, share _ counting.user,
    share _ counting.system, share _ counting.nice, share _ counting.idle, share _ counting.ioWait,
    share _ counting.irq, share _ counting.softIrq]

/-- **Two samples of one CPU.** -/
theorem accounts_of_counting {old new : CpuStat} (counting : Counting old new)
    (small : new.counted < 2 ^ 64) (more : old.counted < new.counted) :
    Accounts old new (entry unrounded (some old) new) := by
  rw [entry_eq counting small more]
  have sum := gained_sum more
  have user := gained_nonneg counting.user more
  have system := gained_nonneg counting.system more
  have idle := gained_nonneg counting.idle more
  have nice := gained_nonneg counting.nice more
  have ioWait := gained_nonneg counting.ioWait more
  have irq := gained_nonneg counting.irq more
  have softIrq := gained_nonneg counting.softIrq more
  have steal := gained_nonneg counting.steal more
  refine ⟨?_, ?_, ?_, ?_, rfl⟩
  · simp only [percentages, List.forall_mem_cons, List.not_mem_nil, false_implies, implies_true,
      and_true]
    refine ⟨⟨?_, ?_⟩, ⟨user, ?_⟩, ⟨system, ?_⟩, ⟨nice, ?_⟩, ⟨idle, ?_⟩, ⟨ioWait, ?_⟩, ⟨irq, ?_⟩,
      ⟨softIrq, ?_⟩⟩ <;> linarith
  · ring
  · dsimp only
    linarith
  · simp only [calculateCPUStealPercent]
    linarith

/-! ## Runs -/

/-- **The entries of a run.**  When no counter of a CPU decreases from one of its samples to
the next and the times of each sample stay below `2 ^ 64` in all, each sample of the CPU is
reported once, and the entry of every sample but the first whose total has grown describes
the partition of the time since the CPU's own previous sample. -/
theorem shares_partition_time {cpuName : Text} {devices : List (Option Device)}
    (counting : (samplesOf cpuName devices).IsChain Counting)
    (small : ∀ s ∈ samplesOf cpuName devices, s.counted < 2 ^ 64) :
    (reported unrounded cpuName devices).length = (samplesOf cpuName devices).length ∧
      ∀ (i : ℕ) (old new : CpuStat) (e : Proto.CpuStat ℚ),
        (samplesOf cpuName devices)[i]? = some old →
        (samplesOf cpuName devices)[i + 1]? = some new →
        (reported unrounded cpuName devices)[i + 1]? = some e →
        old.counted < new.counted → Accounts old new e := by
  rw [reported_eq_alone]
  refine ⟨length_alone _ _ _, fun i old new e atOld atNew atEntry more => ?_⟩
  rw [getElem?_alone_succ atOld atNew, Option.some.injEq] at atEntry
  subst atEntry
  refine accounts_of_counting ?_ (small new (List.mem_of_getElem? atNew)) more
  obtain ⟨inside, rfl⟩ := List.getElem?_eq_some_iff.mp atOld
  obtain ⟨inside', rfl⟩ := List.getElem?_eq_some_iff.mp atNew
  exact List.isChain_iff_getElem.mp counting i inside'

/-- Two calls on a machine with two CPUs, of which the first has gone in between. -/
def hotplugDevices : List (Option Device) :=
  [some ⟨2, [⟨"CPU0".toList, 5, 5, 80, 0, 0, 0, 0, 10⟩, ⟨"CPU1".toList, 10, 5, 70, 1, 2, 3, 4, 5⟩]⟩,
    none, some ⟨1, [⟨"CPU1".toList, 30, 15, 140, 1, 4, 3, 6, 21⟩]⟩]

theorem shares_partition_hotplug :
    ∃ e, (reported unrounded "CPU1".toList hotplugDevices)[1]? = some e ∧
      e.cpuPercent + e.idlePercent + e.ioWaitPercent = 100 := by
  have samples : samplesOf "CPU1".toList hotplugDevices =
      [⟨"CPU1".toList, 10, 5, 70, 1, 2, 3, 4, 5⟩,
        ⟨"CPU1".toList, 30, 15, 140, 1, 4, 3, 6, 21⟩] := by
    decide
  have counting : (samplesOf "CPU1".toList hotplugDevices).IsChain Counting := by
    rw [samples]
    apply List.isChain_pair.mpr
    constructor <;> decide
  have small : ∀ s ∈ samplesOf "CPU1".toList hotplugDevices, s.counted < 2 ^ 64 := by
    rw [samples]
    decide
  obtain ⟨length, accounts⟩ := shares_partition_time counting small
  have inside : 1 < (reported unrounded "CPU1".toList hotplugDevices).length := by
    rw [length, samples]
    decide
  refine ⟨_, List.getElem?_eq_getElem inside, ?_⟩
  exact (accounts 0 _ _ _ (by rw [samples]; rfl) (by rw [samples]; rfl)
    (List.getElem?_eq_getElem inside) (by decide)).whole

end LinuxMonitor.Monitor.CpuStatMonitor
