import Mathlib.Algebra.BigOperators.Group.List.Basic
import Mathlib.Tactic.Ring
import LinuxMonitor.Monitor.DiskIncrements

/-!
# What the rates of a disk leave out

The clock of `DiskMonitor` shows whole seconds.  A sample that is read in the second of the
sample before it has no rates and yet takes its place, so what was counted between the two is
in no rate; and a time of I/O in milliseconds is divided by whole seconds.

* `conserved_iff`: **over any run the rates, each times the time it covers, and what is
  pending add up to the growth of the counters exactly when no counter grows between two
  samples of one second.**
* `util_in_range_iff`: **the utilisation is between 0 and 100 exactly when the disk was idle
  for what the truncated clock leaves out, or no second has begun.**
-/

set_option autoImplicit false

namespace LinuxMonitor.Monitor.DiskMonitor

open Library

/-! ## Flows -/

/-- The rates that are a growth divided by the elapsed time. -/
inductive Flow where
  | readBytes
  | writeBytes
  | readIos
  | writeIos
deriving DecidableEq, Repr

/-- The counter whose growth is reported. -/
def Flow.counter : Flow → Counter
  | .readBytes => .sectorsRead
  | .writeBytes => .sectorsWritten
  | .readIos => .reads
  | .writeIos => .writes

/-- What one count stands for: 512 bytes, or one request. -/
def Flow.unit : Flow → ℚ
  | .readBytes => 512
  | .writeBytes => 512
  | .readIos => 1
  | .writeIos => 1

def Flow.rate : Flow → Proto.DiskInfo ℚ → ℚ
  | .readBytes => Proto.DiskInfo.readBytesPerSec
  | .writeBytes => Proto.DiskInfo.writeBytesPerSec
  | .readIos => Proto.DiskInfo.readIops
  | .writeIos => Proto.DiskInfo.writeIops

/-- What a flow has counted at a sample. -/
def Flow.count (f : Flow) (s : Sample) : UInt64 := f.counter.value s.info

/-- The growth between two samples in the unit of the rate. -/
def Flow.growth (f : Flow) (earlier later : Sample) : ℚ :=
  f.unit * ((f.count later).toNat - (f.count earlier).toNat)

/-- No flow is counted less than before. -/
def NotBelow (earlier later : Sample) : Prop := ∀ f : Flow, f.count earlier ≤ f.count later

/-- The seconds between consecutive samples. -/
def elapsed : List Sample → List ℚ
  | first :: second :: samples => (second.now - first.now : ℚ) :: elapsed (second :: samples)
  | _ => []

/-- The rates of a run, each times the seconds since the previous sample, added up. -/
def volume (f : Flow) (name : Text) (calls : List Call) : ℚ :=
  (List.zipWith (· * ·) ((reported name calls).tail.map f.rate)
    (elapsed (samplesOf name calls))).sum

/-- What the last sample has beyond the stored one. -/
def pending (f : Flow) (name : Text) (calls : List Call) : ℚ :=
  match (samplesOf name calls).getLast?,
    (run calls .initial).2.previousDiskStats.lookup name with
  | some current, some stored => f.growth ⟨current.now, stored⟩ current
  | _, _ => 0

/-- The growth from the first sample to the last. -/
def totalGrowth (f : Flow) (samples : List Sample) : ℚ :=
  match samples.head?, samples.getLast? with
  | some first, some last => f.growth first last
  | _, _ => 0

/-- No sample is read in the second of the one before it with a flow that has grown. -/
def SameSecondIdle (earlier later : Sample) : Prop :=
  earlier.now = later.now → ∀ f : Flow, f.count earlier = f.count later

/-! ## What is lost -/

/-- The growth between samples of one second. -/
def lost (f : Flow) : List Sample → ℚ
  | first :: second :: samples =>
      (if first.now = second.now then f.growth first second else 0) + lost f (second :: samples)
  | _ => 0

theorem Flow.unit_pos (f : Flow) : 0 < f.unit := by
  cases f <;> simp [unit]

theorem Flow.growth_nonneg {earlier later : Sample} (notBelow : NotBelow earlier later)
    (f : Flow) : 0 ≤ f.growth earlier later := by
  have counts : ((f.count earlier).toNat : ℚ) ≤ (f.count later).toNat :=
    Nat.cast_le.mpr (UInt64.le_iff_toNat_le.mp (notBelow f))
  exact mul_nonneg f.unit_pos.le (sub_nonneg.mpr counts)

theorem Flow.growth_eq_zero_iff {earlier later : Sample} (f : Flow) :
    f.growth earlier later = 0 ↔ f.count earlier = f.count later := by
  rw [growth, mul_eq_zero, or_iff_right f.unit_pos.ne', sub_eq_zero, Nat.cast_inj,
    UInt64.toNat_inj, eq_comm]

/-- The rate of a flow times the time it covers. -/
theorem Flow.rate_report {last current : Sample} (ordered : last.now ≤ current.now)
    (notBelow : NotBelow last current) (f : Flow) :
    f.rate (report (some last) current) * (current.now - last.now) =
      if last.now = current.now then 0 else f.growth last current := by
  split
  · next same => rw [same, sub_self, mul_zero]
  · next apart =>
      have later : last.now < current.now := lt_of_le_of_ne ordered apart
      have positive : (0 : ℚ) < current.now - last.now := sub_pos.mpr (Int.cast_lt.mpr later)
      have rates := rates_report later
      have difference : ((f.count current - f.count last).toNat : ℚ) =
          (f.count current).toNat - (f.count last).toNat := by
        rw [UInt64.toNat_sub_of_le _ _ (notBelow f),
          Nat.cast_sub (UInt64.le_iff_toNat_le.mp (notBelow f))]
      have rate : f.rate (report (some last) current) =
          f.unit * (f.count current - f.count last).toNat / (current.now - last.now) := by
        cases f with
        | readBytes =>
            apply (congrArg Rates.readBytesPerSec rates).trans
            rw [mul_comm]
            rfl
        | writeBytes =>
            apply (congrArg Rates.writeBytesPerSec rates).trans
            rw [mul_comm]
            rfl
        | readIos =>
            apply (congrArg Rates.readIops rates).trans
            rw [Flow.unit, one_mul]
            rfl
        | writeIos =>
            apply (congrArg Rates.writeIops rates).trans
            rw [Flow.unit, one_mul]
            rfl
      rw [rate, div_mul_cancel₀ _ positive.ne', difference, growth]

theorem lost_nonneg (f : Flow) {samples : List Sample} (growing : samples.IsChain NotBelow) :
    0 ≤ lost f samples := by
  induction growing with
  | nil => exact le_rfl
  | singleton _ => exact le_rfl
  | @cons_cons first second samples notBelow _ ih =>
      have step := f.growth_nonneg notBelow
      rw [lost]
      split
      · exact add_nonneg step ih
      · exact add_nonneg le_rfl ih

/-- **Nothing is lost exactly when no flow grows within a second.** -/
theorem lost_eq_zero_iff {samples : List Sample} (growing : samples.IsChain NotBelow) :
    (∀ f, lost f samples = 0) ↔ samples.IsChain SameSecondIdle := by
  induction growing with
  | nil => simp [lost]
  | singleton _ => simp [lost]
  | @cons_cons first second samples notBelow rest ih =>
      have split : ∀ f, lost f (first :: second :: samples) = 0 ↔
          (first.now = second.now → f.count first = f.count second) ∧
            lost f (second :: samples) = 0 := by
        intro f
        have step := f.growth_nonneg notBelow
        have others := lost_nonneg f rest
        rw [lost]
        by_cases same : first.now = second.now
        · rw [if_pos same, add_eq_zero_iff_of_nonneg step others, f.growth_eq_zero_iff]
          simp [same]
        · simp [same]
      simp only [split, List.isChain_cons_cons, ← ih, SameSecondIdle, forall_and]
      exact and_congr_left fun _ => forall_comm

/-! ## Conservation -/

theorem Flow.growth_add (f : Flow) (first second third : Sample) :
    f.growth first second + f.growth second third = f.growth first third := by
  unfold growth
  ring

/-- From one sample on, what is reported and what is lost add up to the growth. -/
theorem volume_add_lost (f : Flow) {last : Sample} {samples : List Sample}
    (ordered : (last :: samples).IsChain fun a b => a.now ≤ b.now)
    (growing : (last :: samples).IsChain NotBelow) :
    (List.zipWith (· * ·) ((alone report (some last) samples).map f.rate)
        (elapsed (last :: samples))).sum + lost f (last :: samples) =
      f.growth last (samples.getLastD last) := by
  induction samples generalizing last with
  | nil => simp [alone, lost, Flow.growth]
  | cons sample samples ih =>
      obtain ⟨first, laterOrdered⟩ := List.isChain_cons_cons.mp ordered
      obtain ⟨notBelow, laterGrowing⟩ := List.isChain_cons_cons.mp growing
      have tail := ih laterOrdered laterGrowing
      have here := f.rate_report first notBelow
      rw [alone, List.map_cons, elapsed, List.zipWith_cons_cons, List.sum_cons, here, lost,
        List.getLastD_cons, ← f.growth_add last sample (samples.getLastD sample), ← tail]
      split
      · ring
      · ring

/-- Nothing is ever pending: each sample is stored. -/
theorem pending_eq_zero (f : Flow) (name : Text) (calls : List Call) :
    pending f name calls = 0 := by
  rw [pending, lookup_run]
  cases (samplesOf name calls).getLast? with
  | none => rfl
  | some current => exact f.growth_eq_zero_iff.mpr rfl

/-- **The flows of a run.**  Take any run at seconds that do not decrease and a name whose
counters do not decrease.  For each of the four flows, what is reported and what is pending
add up to the growth of the counter, exactly when no flow has grown between two consecutive
samples of one second. -/
theorem conserved_iff {name : Text} {calls : List Call}
    (ordered : calls.Pairwise fun a b => a.now ≤ b.now)
    (growing : (samplesOf name calls).IsChain NotBelow) :
    (∀ f, volume f name calls + pending f name calls = totalGrowth f (samplesOf name calls)) ↔
      (samplesOf name calls).IsChain SameSecondIdle := by
  have times := (samplesOf_ordered name ordered).isChain
  have balance : ∀ f, volume f name calls + lost f (samplesOf name calls) =
      totalGrowth f (samplesOf name calls) := by
    intro f
    rw [volume, reported_eq_alone]
    cases sampled : samplesOf name calls with
    | nil => simp [alone, lost, totalGrowth]
    | cons first samples =>
        rw [sampled] at times growing
        have whole := volume_add_lost f times growing
        rw [alone, List.tail_cons, whole, totalGrowth, List.head?_cons, List.getLast?_cons,
          List.getLastD_eq_getLast?]
  rw [← lost_eq_zero_iff growing]
  apply forall_congr'
  intro f
  rw [pending_eq_zero, ← balance f, add_right_inj, eq_comm]

/-- The sample disk is read twice in one second, before and after four reads. -/
theorem conserved_busy_second :
    ¬ ∀ f, volume f "sda".toList (soleCalls [(0, sampleLine), (0, busyLine)]) +
        pending f "sda".toList (soleCalls [(0, sampleLine), (0, busyLine)]) =
      totalGrowth f (samplesOf "sda".toList (soleCalls [(0, sampleLine), (0, busyLine)])) := by
  have samples : samplesOf "sda".toList (soleCalls [(0, sampleLine), (0, busyLine)]) =
      [⟨0, sampleLine.firstNine⟩, ⟨0, busyLine.firstNine⟩] :=
    samplesOf_soleCalls (by decide) (by simp [sampleLine, busyLine])
  intro conserved
  have reads := conserved .readIos
  rw [pending_eq_zero, volume, reported_eq_alone, samples] at reads
  revert reads
  decide +kernel

/-- The same reads a second later are all in the rate. -/
theorem conserved_later :
    volume .readIos "sda".toList (soleCalls [(0, sampleLine), (1, busyLine)]) = 4 := by
  have samples : samplesOf "sda".toList (soleCalls [(0, sampleLine), (1, busyLine)]) =
      [⟨0, sampleLine.firstNine⟩, ⟨1, busyLine.firstNine⟩] :=
    samplesOf_soleCalls (by decide) (by simp [sampleLine, busyLine])
  have growing : (samplesOf "sda".toList
      (soleCalls [(0, sampleLine), (1, busyLine)])).IsChain NotBelow := by
    rw [samples]
    apply List.isChain_pair.mpr
    intro f
    cases f <;> decide
  have conserved := (conserved_iff (by decide) growing).mpr (by
    rw [samples]
    exact List.isChain_pair.mpr fun same => absurd same (by decide)) .readIos
  rw [pending_eq_zero, add_zero, samples] at conserved
  exact conserved.trans (by decide +kernel)

/-! ## Utilisation -/

/-- The utilisation of two samples. -/
theorem utilPercent_report {last current : Sample}
    (grows : last.info.ioTimeMs ≤ current.info.ioTimeMs) (ordered : last.now ≤ current.now) :
    (report (some last) current).utilPercent =
      if last.now = current.now then 0
      else ((current.info.ioTimeMs.toNat - last.info.ioTimeMs.toNat : ℕ) : ℚ) /
        ((current.now - last.now) * 10) := by
  split
  · next same => simp [report, message, same, Rates.zero]
  · next apart =>
      refine (congrArg Rates.utilPercent
        (rates_report (lt_of_le_of_ne ordered apart))).trans ?_
      simp only [ratesFrom, Counter.value, UInt64.toNat_sub_of_le _ _ grows]

/-- What the time of I/O has grown by. -/
def ioGrowth (earlier later : Sample) : ℕ :=
  later.info.ioTimeMs.toNat - earlier.info.ioTimeMs.toNat

/-- Whole seconds cover what the disk was busy exactly when it was idle for as long as the
second reading is later within its second than the first one. -/
theorem busy_le_seconds_iff {t₁ t₂ busy : ℕ} (later : t₁ < t₂) (possible : busy ≤ t₂ - t₁) :
    busy ≤ 1000 * (t₂ / 1000 - t₁ / 1000) ↔ t₂ % 1000 ≤ t₁ % 1000 + (t₂ - t₁ - busy) := by
  omega

/-- **The utilisation of a run.**  Two consecutive samples of a device are read at the times
`t₁ < t₂` in milliseconds by a clock of whole seconds, and the time of I/O has grown by at
most `t₂ - t₁`.  The utilisation is between 0 and 100 exactly when the samples are of one
second, or the disk was idle for as long as the second reading is later within its second
than the first one. -/
theorem util_in_range_iff {name : Text} {calls : List Call} {i t₁ t₂ : ℕ} {last current : Sample}
    {m : Proto.DiskInfo ℚ} (atLast : (samplesOf name calls)[i]? = some last)
    (atCurrent : (samplesOf name calls)[i + 1]? = some current)
    (atMessage : (reported name calls)[i + 1]? = some m) (later : t₁ < t₂)
    (nowLast : last.now = (t₁ / 1000 : ℕ)) (nowCurrent : current.now = (t₂ / 1000 : ℕ))
    (grows : last.info.ioTimeMs ≤ current.info.ioTimeMs)
    (possible : ioGrowth last current ≤ t₂ - t₁) :
    (0 ≤ m.utilPercent ∧ m.utilPercent ≤ 100) ↔
      t₁ / 1000 = t₂ / 1000 ∨
        t₂ % 1000 ≤ t₁ % 1000 + (t₂ - t₁ - ioGrowth last current) := by
  have seconds : t₁ / 1000 ≤ t₂ / 1000 := Nat.div_le_div_right later.le
  have ordered : last.now ≤ current.now := by
    rw [nowLast, nowCurrent]
    exact Int.ofNat_le.mpr seconds
  rw [reported_eq_alone, getElem?_alone_succ atLast atCurrent, Option.some.injEq] at atMessage
  rw [← atMessage, utilPercent_report grows ordered, ← ioGrowth, nowLast, nowCurrent,
    ← busy_le_seconds_iff later possible]
  split
  · next same => simp [Nat.cast_inj.mp same]
  · next different =>
      have apart : t₁ / 1000 ≠ t₂ / 1000 := fun same => different (congrArg Nat.cast same)
      have passed : t₁ / 1000 < t₂ / 1000 := lt_of_le_of_ne seconds apart
      have duration : (((t₂ / 1000 : ℕ) : ℤ) : ℚ) - ((t₁ / 1000 : ℕ) : ℤ) =
          ((t₂ / 1000 - t₁ / 1000 : ℕ) : ℚ) := by
        rw [Int.cast_natCast, Int.cast_natCast, Nat.cast_sub seconds]
      have positive : (0 : ℚ) < ((t₂ / 1000 - t₁ / 1000 : ℕ) : ℚ) * 10 := by
        have gap : 0 < t₂ / 1000 - t₁ / 1000 := Nat.sub_pos_of_lt passed
        positivity
      have scaled : (100 : ℚ) * (((t₂ / 1000 - t₁ / 1000 : ℕ) : ℚ) * 10) =
          ((1000 * (t₂ / 1000 - t₁ / 1000) : ℕ) : ℚ) := by
        push_cast
        ring
      rw [duration, or_iff_right apart, div_le_iff₀ positive, scaled, Nat.cast_le]
      exact and_iff_right (by positivity)

/-- The sample disk after 1999 milliseconds of I/O. -/
def saturatedLine : DiskstatsLine := { sampleLine with msWriting := 2008 }

theorem samplesOf_saturated (now : ℤ) :
    samplesOf "sda".toList (soleCalls [(1, sampleLine), (now, saturatedLine)]) =
      [⟨1, sampleLine.firstNine⟩, ⟨now, saturatedLine.firstNine⟩] :=
  samplesOf_soleCalls (by decide) (by simp [sampleLine, saturatedLine])

/-- Between 1000 and 2999 milliseconds, one whole second passes and the disk is busy for
1999 milliseconds. -/
theorem util_saturated_exceeds :
    ioGrowth ⟨1, sampleLine.firstNine⟩ ⟨2, saturatedLine.firstNine⟩ = 2999 - 1000 ∧
      ∃ m, (reported "sda".toList (soleCalls [((1000 / 1000 : ℕ), sampleLine),
          ((2999 / 1000 : ℕ), saturatedLine)]))[1]? = some m ∧ ¬ m.utilPercent ≤ 100 := by
  refine ⟨by decide, report (some ⟨1, sampleLine.firstNine⟩) ⟨2, saturatedLine.firstNine⟩, ?_, ?_⟩
  · rw [reported_eq_alone]
    exact congrArg (fun samples => (alone report none samples)[1]?) (samplesOf_saturated 2)
  · decide +kernel

/-- Between 1001 and 3000 milliseconds, two whole seconds pass. -/
theorem util_saturated_in_range :
    ∃ m, (reported "sda".toList (soleCalls [(1, sampleLine), (3, saturatedLine)]))[1]? = some m ∧
      m.utilPercent ≤ 100 := by
  have message : (reported "sda".toList (soleCalls [(1, sampleLine), (3, saturatedLine)]))[1]? =
      some (report (some ⟨1, sampleLine.firstNine⟩) ⟨3, saturatedLine.firstNine⟩) := by
    rw [reported_eq_alone, samplesOf_saturated]
    rfl
  refine ⟨_, message, ?_⟩
  have start : (1 : ℤ) = (1001 / 1000 : ℕ) := by decide
  have stop : (3 : ℤ) = (3000 / 1000 : ℕ) := by decide
  have later : 1001 < 3000 := by decide
  exact ((util_in_range_iff (by rw [samplesOf_saturated]; rfl) (by rw [samplesOf_saturated]; rfl)
    message later start stop (by decide) (by decide)).mpr (Or.inr (by decide))).2

end LinuxMonitor.Monitor.DiskMonitor
