import LinuxMonitor.Library.Significand
import LinuxMonitor.Monitor.CpuStatMonitor

/-!
# The shares of a CPU's time with rounding

The total and the busy time since boot become `float` before they are subtracted, while the
times of the single classes are subtracted in `u64`.  The conversion rounds to a significand
of 24 bits, so the two totals bring their rounding errors into every share.

* `entry_in_range_iff`: the shares of two samples are in range exactly when the rounding
  errors leave them there.
* `RoomForRounding.harmless`: they do when the times between the samples are longer than the
  units that the numbers are rounded to.
* `roomForRounding_of_representable`: numbers that a `float` holds need no room.
* `shares_in_range_of_room`: **with that room the shares are in range in every run.**
-/

set_option autoImplicit false

namespace LinuxMonitor.Monitor.CpuStatMonitor

open Library

/-! ## Rounding errors -/

/-- The conversion of a `u64` to `float`. -/
def rounded (n : UInt64) : ℚ := roundTo 24 n.toNat

/-- What the conversion adds. -/
def roundingError (n : ℕ) : ℤ := roundTo 24 n - n

theorem rounded_eq (n : UInt64) : rounded n = ((n.toNat + roundingError n.toNat : ℤ) : ℚ) := by
  rw [rounded, roundingError]
  push_cast
  ring

/-- What the conversions of the totals add to the time between two samples. -/
def drift (old new : CpuStat) : ℤ := roundingError new.counted - roundingError old.counted

/-- The time between two samples. -/
def CpuStat.since (new old : CpuStat) : ℤ := new.counted - old.counted

/-- What a class has gained. -/
def gain (old new : CpuStat) (counter : CpuStat → UInt64) : ℤ :=
  (counter new).toNat - (counter old).toNat

/-- The classes that have a share of their own. -/
def classes : List (CpuStat → UInt64) :=
  [CpuStat.user, CpuStat.system, CpuStat.nice, CpuStat.idle, CpuStat.ioWait, CpuStat.irq,
    CpuStat.softIrq]

/-- The rounding errors leave the time between the samples positive, and no class and not the
busy time longer than it. -/
structure RoundingHarmless (old new : CpuStat) : Prop where
  time : 0 < new.since old + drift old new
  classes : ∀ counter ∈ classes,
    roundingError (gain old new counter).toNat ≤
      new.since old - gain old new counter + drift old new
  busy : roundingError new.busyTime.toNat - roundingError old.busyTime.toNat ≤
    gain old new CpuStat.idle + gain old new CpuStat.ioWait + drift old new

/-! ## Two samples -/

theorem rounded_mono {a b : UInt64} (le : a ≤ b) : rounded a ≤ rounded b :=
  Nat.cast_le.mpr (roundTo_mono (by decide) (UInt64.le_iff_toNat_le.mp le))

/-- The total that the shares are divided by. -/
theorem rounded_totalTime_sub {old new : CpuStat} (counting : Counting old new)
    (small : new.counted < 2 ^ 64) :
    rounded new.totalTime - rounded old.totalTime = ((new.since old + drift old new : ℤ) : ℚ) := by
  have smallOld : old.counted < 2 ^ 64 := counting.counted_le.trans_lt small
  rw [rounded_eq, rounded_eq, toNat_totalTime small, toNat_totalTime smallOld, CpuStat.since, drift]
  push_cast
  ring

theorem rounded_sub {old new : CpuStat} {counter : CpuStat → UInt64}
    (counts : counter old ≤ counter new) :
    rounded (counter new - counter old) =
      ((gain old new counter + roundingError (gain old new counter).toNat : ℤ) : ℚ) := by
  have le := UInt64.le_iff_toNat_le.mp counts
  have difference : ((counter new - counter old).toNat : ℤ) = gain old new counter := by
    rw [UInt64.toNat_sub_of_le _ _ counts, gain]
    omega
  rw [rounded_eq, ← difference, Int.toNat_natCast]

/-- The time that is neither idle nor waiting. -/
theorem busyTime_sub {old new : CpuStat} (counting : Counting old new)
    (small : new.counted < 2 ^ 64) :
    (new.busyTime.toNat : ℤ) - old.busyTime.toNat =
      new.since old - gain old new CpuStat.idle - gain old new CpuStat.ioWait := by
  have busyNew := toNat_busyTime small
  have busyOld := toNat_busyTime (counting.counted_le.trans_lt small)
  unfold CpuStat.since gain
  omega

theorem busyTime_le {old new : CpuStat} (counting : Counting old new)
    (small : new.counted < 2 ^ 64) : old.busyTime ≤ new.busyTime := by
  have busyNew := toNat_busyTime small
  have busyOld := toNat_busyTime (counting.counted_le.trans_lt small)
  obtain ⟨user, system, idle, nice, ioWait, irq, softIrq, steal⟩ := counting
  simp only [UInt64.le_iff_toNat_le] at *
  unfold CpuStat.counted at busyNew busyOld
  omega

/-- A share is in range when its time is no longer than the whole. -/
theorem share_in_range_iff {time total : ℚ} (positive : 0 < total) :
    (0 ≤ time / total * 100 ∧ time / total * 100 ≤ 100) ↔ 0 ≤ time ∧ time ≤ total := by
  have hundred : time / total * 100 ≤ 100 ↔ time / total ≤ 1 := by
    constructor
    · intro bounded
      linarith
    · intro bounded
      linarith
  rw [hundred, div_le_one positive, mul_nonneg_iff_of_pos_right (by norm_num),
    le_div_iff₀ positive, zero_mul]

/-- The percentages of the branch that computes them. -/
theorem percentages_entry {old new : CpuStat}
    (positive : 0 < rounded new.totalTime - rounded old.totalTime) :
    percentages (entry rounded (some old) new) =
      (rounded new.busyTime - rounded old.busyTime) /
          (rounded new.totalTime - rounded old.totalTime) * 100 ::
        classes.map fun counter => rounded (counter new - counter old) /
          (rounded new.totalTime - rounded old.totalTime) * 100 := by
  simp only [entry, gt_iff_lt, if_pos positive]
  rfl

theorem Counting.of_mem_classes {old new : CpuStat} (counting : Counting old new) :
    ∀ counter ∈ classes, counter old ≤ counter new := by
  obtain ⟨user, system, idle, nice, ioWait, irq, softIrq, -⟩ := counting
  simp [classes, user, system, idle, nice, ioWait, irq, softIrq]

/-- **The shares of two samples.** -/
theorem entry_in_range_iff {old new : CpuStat} (counting : Counting old new)
    (small : new.counted < 2 ^ 64) :
    (rounded old.totalTime < rounded new.totalTime ∧
        ∀ p ∈ percentages (entry rounded (some old) new), 0 ≤ p ∧ p ≤ 100) ↔
      RoundingHarmless old new := by
  have total := rounded_totalTime_sub counting small
  have counts := counting.of_mem_classes
  have time : rounded old.totalTime < rounded new.totalTime ↔
      0 < new.since old + drift old new := by
    rw [← sub_pos, total, Int.cast_pos]
  have share : 0 < rounded new.totalTime - rounded old.totalTime → ∀ counter ∈ classes,
      ((0 ≤ rounded (counter new - counter old) /
            (rounded new.totalTime - rounded old.totalTime) * 100 ∧
          rounded (counter new - counter old) /
            (rounded new.totalTime - rounded old.totalTime) * 100 ≤ 100) ↔
        roundingError (gain old new counter).toNat ≤
          new.since old - gain old new counter + drift old new) := by
    intro positive counter member
    have nonneg : 0 ≤ rounded (counter new - counter old) := Nat.cast_nonneg _
    rw [share_in_range_iff positive, and_iff_right nonneg, total,
      rounded_sub (counts counter member), Int.cast_le]
    omega
  have busy : 0 < rounded new.totalTime - rounded old.totalTime →
      ((0 ≤ (rounded new.busyTime - rounded old.busyTime) /
            (rounded new.totalTime - rounded old.totalTime) * 100 ∧
          (rounded new.busyTime - rounded old.busyTime) /
            (rounded new.totalTime - rounded old.totalTime) * 100 ≤ 100) ↔
        roundingError new.busyTime.toNat - roundingError old.busyTime.toNat ≤
          gain old new CpuStat.idle + gain old new CpuStat.ioWait + drift old new) := by
    intro positive
    have nonneg : 0 ≤ rounded new.busyTime - rounded old.busyTime :=
      sub_nonneg.mpr (rounded_mono (busyTime_le counting small))
    have difference := busyTime_sub counting small
    rw [share_in_range_iff positive, and_iff_right nonneg, total, rounded_eq, rounded_eq,
      ← Int.cast_sub, Int.cast_le]
    omega
  constructor
  · rintro ⟨larger, inRange⟩
    have positive := sub_pos.mpr larger
    rw [percentages_entry positive, List.forall_mem_cons, List.forall_mem_map] at inRange
    refine ⟨time.mp larger, fun counter member => ?_, (busy positive).mp inRange.1⟩
    exact (share positive counter member).mp (inRange.2 counter member)
  · rintro ⟨timely, shares, whole⟩
    have larger := time.mpr timely
    have positive := sub_pos.mpr larger
    refine ⟨larger, ?_⟩
    rw [percentages_entry positive, List.forall_mem_cons, List.forall_mem_map]
    exact ⟨(busy positive).mpr whole, fun counter member =>
      (share positive counter member).mpr (shares counter member)⟩

/-- No class has gained more than all together. -/
theorem gain_le_since {old new : CpuStat} (counting : Counting old new) :
    ∀ counter ∈ classes, gain old new counter ≤ new.since old := by
  obtain ⟨user, system, idle, nice, ioWait, irq, softIrq, steal⟩ := counting
  simp only [UInt64.le_iff_toNat_le] at user system idle nice ioWait irq softIrq steal
  simp only [classes, List.forall_mem_cons, List.not_mem_nil, false_implies, implies_true, and_true,
    gain, CpuStat.since, CpuStat.counted]
  omega

/-! ## Room for the rounding -/

/-- The time of one of two samples' totals that rounding may shift. -/
def slack (old new : CpuStat) : ℕ := errorBound 24 old.counted + errorBound 24 new.counted

/-- The times between two samples against the units that the numbers are rounded to: the whole
time is longer than half the units of the two totals, what the other classes have gained is at
least as long as these and half the unit of the class's own gain, and what the CPU was idle or
waiting is at least as long as these and half the units of the two busy times.  A number that
is a multiple of its unit counts with nothing. -/
structure RoomForRounding (old new : CpuStat) : Prop where
  time : old.counted + slack old new < new.counted
  classes : ∀ counter ∈ classes,
    gain old new counter + errorBound 24 (gain old new counter).toNat + slack old new ≤
      new.since old
  busy : (errorBound 24 old.busyTime.toNat + errorBound 24 new.busyTime.toNat + slack old new : ℤ) ≤
    gain old new CpuStat.idle + gain old new CpuStat.ioWait

instance (old new : CpuStat) : Decidable (RoomForRounding old new) :=
  decidable_of_iff _ ⟨fun ⟨time, classes, busy⟩ => ⟨time, classes, busy⟩,
    fun room => And.intro room.time (And.intro room.classes room.busy)⟩

/-- The error of a conversion against its bound. -/
theorem roundingError_bounds (n : ℕ) :
    -(errorBound 24 n : ℤ) ≤ roundingError n ∧ roundingError n ≤ errorBound 24 n := by
  have bound := dist_roundTo_le_errorBound 24 n
  rw [Nat.dist] at bound
  rw [roundingError]
  omega

/-- **Room for the rounding is enough.** -/
theorem RoomForRounding.harmless {old new : CpuStat} (room : RoomForRounding old new) :
    RoundingHarmless old new := by
  obtain ⟨time, shares, busy⟩ := room
  have oldTotal := roundingError_bounds old.counted
  have newTotal := roundingError_bounds new.counted
  simp only [slack, Nat.cast_add] at time shares busy
  constructor
  case time =>
    rw [CpuStat.since, drift]
    omega
  case classes =>
    intro counter member
    have enough := shares counter member
    have own := roundingError_bounds (gain old new counter).toNat
    rw [drift]
    omega
  case busy =>
    have oldBusy := roundingError_bounds old.busyTime.toNat
    have newBusy := roundingError_bounds new.busyTime.toNat
    rw [drift]
    omega

/-- **Numbers that a `float` holds need no room.** -/
theorem roomForRounding_of_representable {old new : CpuStat} (counting : Counting old new)
    (more : old.counted < new.counted)
    (totals : Representable 24 old.counted ∧ Representable 24 new.counted)
    (busy : Representable 24 old.busyTime.toNat ∧ Representable 24 new.busyTime.toNat)
    (gains : ∀ counter ∈ classes, Representable 24 (gain old new counter).toNat) :
    RoomForRounding old new := by
  have exact : ∀ {n : ℕ}, Representable 24 n → errorBound 24 n = 0 :=
    errorBound_of_representable (by decide)
  have still : slack old new = 0 := by rw [slack, exact totals.1, exact totals.2]
  constructor
  case time =>
    rw [still]
    exact more
  case classes =>
    intro counter member
    have bound := gain_le_since counting counter member
    rw [still, exact (gains counter member)]
    omega
  case busy =>
    have idle := UInt64.le_iff_toNat_le.mp counting.idle
    have ioWait := UInt64.le_iff_toNat_le.mp counting.ioWait
    rw [still, exact busy.1, exact busy.2]
    unfold gain
    omega

/-! ## Runs -/

/-- **The shares of a run.**  Two consecutive samples of a CPU in any run, whose counters have
not decreased and whose times stay below `2 ^ 64` in all: where there is room for the rounding
the rounded totals still differ and all eight percentages are between 0 and 100. -/
theorem shares_in_range_of_room {cpuName : Text} {devices : List (Option Device)} {i : ℕ}
    {old new : CpuStat} {e : Proto.CpuStat ℚ} (atOld : (samplesOf cpuName devices)[i]? = some old)
    (atNew : (samplesOf cpuName devices)[i + 1]? = some new)
    (atEntry : (reported rounded cpuName devices)[i + 1]? = some e)
    (counting : Counting old new) (small : new.counted < 2 ^ 64)
    (room : RoomForRounding old new) :
    rounded old.totalTime < rounded new.totalTime ∧ ∀ p ∈ percentages e, 0 ≤ p ∧ p ≤ 100 := by
  rw [reported_eq_alone, getElem?_alone_succ atOld atNew, Option.some.injEq] at atEntry
  rw [← atEntry]
  exact (entry_in_range_iff counting small).mpr room.harmless

/-- Two calls on a machine with one CPU. -/
def soleCpu (old new : CpuStat) : List (Option Device) := [some ⟨1, [old]⟩, some ⟨1, [new]⟩]

theorem samplesOf_soleCpu {cpuName : Text} (named : cpuName ≠ []) {old new : CpuStat}
    (nameOld : old.cpuName = cpuName) (nameNew : new.cpuName = cpuName) :
    samplesOf cpuName (soleCpu old new) = [old, new] := by
  simp [samplesOf, soleCpu, callSamples, Device.samples, nameOld, nameNew, named, ofKey]

/-- A CPU soon after the start of the machine, and a second later. -/
def freshCpu : CpuStat := ⟨"CPU0".toList, 3000000007, 1000000000, 6000000000, 0, 0, 0, 0, 0⟩

def freshCpuLater : CpuStat := ⟨"CPU0".toList, 3500000011, 1000000000, 6500000000, 0, 0, 0, 0, 0⟩

theorem shares_in_range_fresh :
    ∃ e, (reported rounded "CPU0".toList (soleCpu freshCpu freshCpuLater))[1]? = some e ∧
      ∀ p ∈ percentages e, 0 ≤ p ∧ p ≤ 100 := by
  have samples : samplesOf "CPU0".toList (soleCpu freshCpu freshCpuLater) =
      [freshCpu, freshCpuLater] := samplesOf_soleCpu (by decide) rfl rfl
  have entry : (reported rounded "CPU0".toList (soleCpu freshCpu freshCpuLater))[1]? =
      some (entry rounded (some freshCpu) freshCpuLater) := by
    rw [reported_eq_alone, samples]
    rfl
  have room : RoomForRounding freshCpu freshCpuLater := by decide +kernel
  refine ⟨_, entry, ?_⟩
  exact (shares_in_range_of_room (by rw [samples]; rfl) (by rw [samples]; rfl) entry
    (by constructor <;> decide) (by decide) room).2

/-- A CPU after eleven and a half days, and after a second in which it was busy. -/
def agedCpu : CpuStat := ⟨"CPU0".toList, 1000000090000000, 0, 0, 0, 0, 0, 0, 0⟩

def agedCpuLater : CpuStat := ⟨"CPU0".toList, 1000001090000000, 0, 0, 0, 0, 0, 0, 0⟩

/-- More than 100 percent are reported. -/
theorem shares_aged_exceed :
    Counting agedCpu agedCpuLater ∧ agedCpuLater.counted < 2 ^ 64 ∧
      agedCpu.counted < agedCpuLater.counted ∧
      ∃ e, (reported rounded "CPU0".toList (soleCpu agedCpu agedCpuLater))[1]? = some e ∧
        106 < e.usrPercent := by
  have samples : samplesOf "CPU0".toList (soleCpu agedCpu agedCpuLater) =
      [agedCpu, agedCpuLater] := samplesOf_soleCpu (by decide) rfl rfl
  refine ⟨by constructor <;> decide, by decide, by decide,
    entry rounded (some agedCpu) agedCpuLater, ?_, by decide +kernel⟩
  rw [reported_eq_alone, samples]
  rfl

end LinuxMonitor.Monitor.CpuStatMonitor
