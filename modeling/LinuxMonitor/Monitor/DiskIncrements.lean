import Mathlib.Algebra.Order.Field.Rat
import Mathlib.Tactic.FieldSimp
import Mathlib.Tactic.Positivity
import LinuxMonitor.Library.Counter
import LinuxMonitor.Monitor.DiskSamples

/-!
# The increments behind the rates of a disk

The kernel counts for each device and prints the times with 32 bits.  The rates are computed
from seven differences in `uint64_t`, whatever device has the name and however many bits its
counters have.

* `sub_eq_increment_iff`: which differences are the increments.
* `rates_true_iff`: **in every run the rates of two consecutive samples follow from the true
  increments exactly when no time has started again and, after a replacement, the old
  device had counted nothing.**
-/

set_option autoImplicit false

namespace LinuxMonitor.Monitor.DiskMonitor

open Library

/-! ## What the kernel counts -/

/-- The counters whose differences are taken. -/
inductive Counter where
  | reads
  | writes
  | sectorsRead
  | sectorsWritten
  | readTimeMs
  | writeTimeMs
  | ioTimeMs
deriving DecidableEq, Repr

/-- The value of a counter in a sample. -/
def Counter.value : Counter → DiskInfo → UInt64
  | .reads => DiskInfo.reads
  | .writes => DiskInfo.writes
  | .sectorsRead => DiskInfo.sectorsRead
  | .sectorsWritten => DiskInfo.sectorsWritten
  | .readTimeMs => DiskInfo.readTimeMs
  | .writeTimeMs => DiskInfo.writeTimeMs
  | .ioTimeMs => DiskInfo.ioTimeMs

/-- The number of values after which a counter starts again. -/
def Counter.modulus : Counter → ℕ
  | .readTimeMs => 2 ^ 32
  | .writeTimeMs => 2 ^ 32
  | .ioTimeMs => 2 ^ 32
  | _ => 2 ^ 64

/-- The device that has a name, and what the kernel has counted for it. -/
structure DeviceCounts where
  device : ℕ
  count : Counter → ℕ

/-- The sample holds the counts as the kernel prints them. -/
def DeviceCounts.Printed (counts : DeviceCounts) (info : DiskInfo) : Prop :=
  ∀ c : Counter, (c.value info).toNat = counts.count c % c.modulus

/-- The counts of one device do not decrease, and none goes through all values. -/
def Continues (old new : DeviceCounts) : Prop :=
  old.device = new.device →
    ∀ c, old.count c ≤ new.count c ∧ new.count c < old.count c + c.modulus

/-- What a counter has gained: its growth, or the newest value after a replacement. -/
def increment (old new : DeviceCounts) (c : Counter) : ℕ :=
  if old.device = new.device then new.count c - old.count c else new.count c % c.modulus

/-- A time has not started again; a counter of the replaced device was zero. -/
def Steady (old new : DeviceCounts) (c : Counter) : Prop :=
  if old.device = new.device then
    c.modulus = 2 ^ 64 ∨ old.count c / c.modulus = new.count c / c.modulus
  else old.count c % c.modulus = 0

instance decidableSteady (old new : DeviceCounts) (c : Counter) : Decidable (Steady old new c) :=
  inferInstanceAs (Decidable (if old.device = new.device then _ else _))

/-- All counters that the rates use are steady; the time of requests is not used when there
were none. -/
structure Undisturbed (old new : DeviceCounts) : Prop where
  reads : Steady old new .reads
  writes : Steady old new .writes
  sectorsRead : Steady old new .sectorsRead
  sectorsWritten : Steady old new .sectorsWritten
  ioTimeMs : Steady old new .ioTimeMs
  readTimeMs : increment old new .reads ≠ 0 → Steady old new .readTimeMs
  writeTimeMs : increment old new .writes ≠ 0 → Steady old new .writeTimeMs

/-- **The difference of two readings.** -/
theorem sub_eq_increment_iff {old new : DeviceCounts} {last current : DiskInfo}
    (printedOld : old.Printed last) (printedNew : new.Printed current)
    (continues : Continues old new) (c : Counter) :
    (c.value current - c.value last).toNat = increment old new c ↔ Steady old new c := by
  have readsOld := printedOld c
  have readsNew := printedNew c
  unfold increment Steady
  split
  · next same =>
      obtain ⟨grows, slowly⟩ := continues same c
      have modulus : c.modulus = 2 ^ 64 ∨ c.modulus = 2 ^ 32 := by
        cases c <;> simp [Counter.modulus]
      rcases modulus with wide | narrow
      · rw [wide] at readsOld readsNew slowly ⊢
        have equal := toNat_sub_of_residue readsOld readsNew grows slowly
        exact ⟨fun _ => Or.inl rfl, fun _ => equal⟩
      · rw [narrow] at readsOld readsNew slowly ⊢
        rw [toNat_sub_of_narrow readsOld readsNew grows slowly]
        simp
  · rw [← readsOld, ← readsNew]
    exact toNat_sub_eq_self_iff

/-! ## Rates -/

/-- The rates over `dt` seconds in which the counters have gained what is given. -/
def ratesFrom (dt : ℚ) (gain : Counter → ℕ) : Rates where
  readBytesPerSec := gain .sectorsRead * 512 / dt
  writeBytesPerSec := gain .sectorsWritten * 512 / dt
  readIops := gain .reads / dt
  writeIops := gain .writes / dt
  avgReadLatencyMs := if gain .reads = 0 then 0 else (gain .readTimeMs : ℚ) / gain .reads
  avgWriteLatencyMs := if gain .writes = 0 then 0 else (gain .writeTimeMs : ℚ) / gain .writes
  utilPercent := gain .ioTimeMs / (dt * 10)

/-- The rates of a message. -/
def ratesOf (m : Proto.DiskInfo ℚ) : Rates where
  readBytesPerSec := m.readBytesPerSec
  writeBytesPerSec := m.writeBytesPerSec
  readIops := m.readIops
  writeIops := m.writeIops
  avgReadLatencyMs := m.avgReadLatencyMs
  avgWriteLatencyMs := m.avgWriteLatencyMs
  utilPercent := m.utilPercent

@[simp] theorem ratesOf_message (curr : DiskInfo) (r : Rates) : ratesOf (message curr r) = r := rfl

theorem ratesOver_eq (dt : ℚ) (curr last : DiskInfo) :
    ratesOver dt curr last = ratesFrom dt fun c => (c.value curr - c.value last).toNat := by
  have latency : ∀ requests time : UInt64,
      (if (requests.toNat : ℚ) > 0 then (time.toNat : ℚ) / requests.toNat else 0) =
        if requests.toNat = 0 then 0 else (time.toNat : ℚ) / requests.toNat := by
    intro requests time
    rcases Nat.eq_zero_or_pos requests.toNat with none | some
    · simp [none]
    · rw [if_pos (Nat.cast_pos.mpr some), if_neg some.ne']
  simp only [ratesOver, latency]
  rfl

theorem rates_report {last current : Sample} (later : last.now < current.now) :
    ratesOf (report (some last) current) =
      ratesFrom (current.now - last.now)
        fun c => (c.value current.info - c.value last.info).toNat := by
  have positive : (current.now : ℚ) - last.now > 0 := sub_pos.mpr (Int.cast_lt.mpr later)
  simp only [report, ratesOf_message, if_pos positive, ratesOver_eq]

/-- An average is kept exactly when it is of the same time, if there were requests. -/
theorem latency_eq_iff {requests time time' : ℕ} :
    (if requests = 0 then 0 else (time : ℚ) / requests) =
        (if requests = 0 then 0 else (time' : ℚ) / requests) ↔ (requests ≠ 0 → time = time') := by
  by_cases none : requests = 0
  · simp [none]
  · simp [none]

/-- Rates are the same exactly when the gains that they use are. -/
theorem ratesFrom_eq_iff {dt : ℚ} (positive : 0 < dt) {gain gain' : Counter → ℕ} :
    ratesFrom dt gain = ratesFrom dt gain' ↔
      gain .reads = gain' .reads ∧ gain .writes = gain' .writes ∧
        gain .sectorsRead = gain' .sectorsRead ∧ gain .sectorsWritten = gain' .sectorsWritten ∧
        gain .ioTimeMs = gain' .ioTimeMs ∧
        (gain' .reads ≠ 0 → gain .readTimeMs = gain' .readTimeMs) ∧
        (gain' .writes ≠ 0 → gain .writeTimeMs = gain' .writeTimeMs) := by
  have scaled : dt * 10 ≠ 0 := by positivity
  simp only [ratesFrom, Rates.mk.injEq, div_left_inj' positive.ne', div_left_inj' scaled,
    mul_left_inj' (by decide : (512 : ℚ) ≠ 0), Nat.cast_inj]
  constructor
  · rintro ⟨sectorsRead, sectorsWritten, reads, writes, readLatency, writeLatency, ioTime⟩
    rw [reads] at readLatency
    rw [writes] at writeLatency
    exact ⟨reads, writes, sectorsRead, sectorsWritten, ioTime, latency_eq_iff.mp readLatency,
      latency_eq_iff.mp writeLatency⟩
  · rintro ⟨reads, writes, sectorsRead, sectorsWritten, ioTime, readTime, writeTime⟩
    rw [reads, writes]
    exact ⟨sectorsRead, sectorsWritten, rfl, rfl, latency_eq_iff.mpr readTime,
      latency_eq_iff.mpr writeTime, ioTime⟩

/-- **Two samples of one name.** -/
theorem rates_report_iff {old new : DeviceCounts} {last current : Sample}
    (printedOld : old.Printed last.info) (printedNew : new.Printed current.info)
    (continues : Continues old new) (later : last.now < current.now) :
    ratesOf (report (some last) current) =
        ratesFrom (current.now - last.now) (increment old new) ↔ Undisturbed old new := by
  have positive : (0 : ℚ) < current.now - last.now := sub_pos.mpr (Int.cast_lt.mpr later)
  have steady := sub_eq_increment_iff printedOld printedNew continues
  rw [rates_report later, ratesFrom_eq_iff positive]
  simp only [steady]
  constructor
  · rintro ⟨reads, writes, sectorsRead, sectorsWritten, ioTime, readTime, writeTime⟩
    exact ⟨reads, writes, sectorsRead, sectorsWritten, ioTime, readTime, writeTime⟩
  · rintro ⟨reads, writes, sectorsRead, sectorsWritten, ioTime, readTime, writeTime⟩
    exact ⟨reads, writes, sectorsRead, sectorsWritten, ioTime, readTime, writeTime⟩

/-- **The rates of a run.**  Take any run, any name and what the kernel has counted, at each
sample of the name, for the device that has it.  Each sample is reported once, and the rates
of two consecutive samples at increasing times follow from the true increments exactly when
they are undisturbed. -/
theorem rates_true_iff {name : Text} {calls : List Call} {counts : List DeviceCounts}
    (printed : List.Forall₂ (fun c s => c.Printed s.info) counts (samplesOf name calls))
    (continues : counts.IsChain Continues) :
    (reported name calls).length = counts.length ∧
      ∀ (i : ℕ) (old new : DeviceCounts) (last current : Sample) (m : Proto.DiskInfo ℚ),
        counts[i]? = some old → counts[i + 1]? = some new →
        (samplesOf name calls)[i]? = some last → (samplesOf name calls)[i + 1]? = some current →
        (reported name calls)[i + 1]? = some m → last.now < current.now →
        (ratesOf m = ratesFrom (current.now - last.now) (increment old new) ↔
          Undisturbed old new) := by
  rw [reported_eq_alone]
  refine ⟨(length_alone _ _ _).trans printed.length_eq.symm, ?_⟩
  intro i old new last current m atOld atNew atLast atCurrent atMessage later
  rw [getElem?_alone_succ atLast atCurrent, Option.some.injEq] at atMessage
  subst atMessage
  obtain ⟨insideOld, rfl⟩ := List.getElem?_eq_some_iff.mp atOld
  obtain ⟨insideNew, rfl⟩ := List.getElem?_eq_some_iff.mp atNew
  obtain ⟨insideLast, rfl⟩ := List.getElem?_eq_some_iff.mp atLast
  obtain ⟨insideCurrent, rfl⟩ := List.getElem?_eq_some_iff.mp atCurrent
  exact rates_report_iff (printed.get insideOld insideLast) (printed.get insideNew insideCurrent)
    (List.isChain_iff_getElem.mp continues i insideNew) later

/-! ## One disk -/

/-- The calls of a run in which the file has one line. -/
def soleCalls (table : List (ℤ × DiskstatsLine)) : List Call :=
  table.map fun entry => ⟨entry.1, procDiskstats [entry.2]⟩

theorem samplesOf_soleCalls {name : Text} (physical : isVirtualDisk name = false)
    {table : List (ℤ × DiskstatsLine)} (named : ∀ entry ∈ table, entry.2.name = name) :
    samplesOf name (soleCalls table) = table.map fun entry => ⟨entry.1, entry.2.firstNine⟩ := by
  induction table with
  | nil => rfl
  | cons entry table ih =>
      obtain ⟨here, rest⟩ := List.forall_mem_cons.mp named
      have first : ofKey name (Call.mk entry.1 (procDiskstats [entry.2])).samples =
          [⟨entry.1, entry.2.firstNine⟩] := by
        rw [samples_procDiskstats, visible, List.filter_cons_of_pos (by simp [here, physical]),
          List.filter_nil, List.map_singleton, here, ofKey_cons_self]
        rfl
      rw [soleCalls, List.map_cons, samplesOf, List.flatMap_cons, ofKey_append, first]
      exact congrArg (List.cons _) (ih rest)

/-- What is printed for a device that has counted as much. -/
def printedCounts (l : DiskstatsLine) : DeviceCounts := ⟨0, fun c => (c.value l.firstNine).toNat⟩

/-- The sample disk after a busy second. -/
def busyLine : DiskstatsLine := { sampleLine with readsCompleted := 14, msWriting := 1004 }

theorem rates_true_busy :
    ∃ m, (reported "sda".toList (soleCalls [(0, sampleLine), (1, busyLine)]))[1]? = some m ∧
      m.readIops = 4 ∧ m.utilPercent = 199 / 2 := by
  have samples : samplesOf "sda".toList (soleCalls [(0, sampleLine), (1, busyLine)]) =
      [⟨0, sampleLine.firstNine⟩, ⟨1, busyLine.firstNine⟩] :=
    samplesOf_soleCalls (by decide) (by simp [sampleLine, busyLine])
  have printed : List.Forall₂ (fun c s => c.Printed s.info)
      [printedCounts sampleLine, printedCounts busyLine]
      (samplesOf "sda".toList (soleCalls [(0, sampleLine), (1, busyLine)])) := by
    rw [samples]
    refine .cons ?_ (.cons ?_ .nil)
    · intro c
      cases c <;> rfl
    · intro c
      cases c <;> rfl
  have continues : [printedCounts sampleLine, printedCounts busyLine].IsChain Continues := by
    apply List.isChain_pair.mpr
    intro _ c
    cases c <;> decide
  obtain ⟨length, rates⟩ := rates_true_iff printed continues
  have inside :
      1 < (reported "sda".toList (soleCalls [(0, sampleLine), (1, busyLine)])).length := by
    rw [length]
    decide
  refine ⟨_, List.getElem?_eq_getElem inside, ?_⟩
  have steady := (rates 0 _ _ _ _ _ rfl rfl (by rw [samples]; rfl) (by rw [samples]; rfl)
    (List.getElem?_eq_getElem inside) (by decide)).mpr (by constructor <;> decide)
  have iops := congrArg Rates.readIops steady
  have util := congrArg Rates.utilPercent steady
  exact ⟨iops.trans (by decide +kernel), util.trans (by decide +kernel)⟩

/-- The sample disk when its time of I/O is five milliseconds below `2 ^ 32`. -/
def wornLine : DiskstatsLine := { sampleLine with msWriting := 4294967291 }

/-- What it has counted after eight milliseconds more. -/
def wornLater : DeviceCounts := printedCounts { sampleLine with msWriting := 4294967299 }

/-- What is then printed. -/
def wrappedLine : DiskstatsLine := { sampleLine with msWriting := 3 }

/-- The rates are not those of the eight milliseconds. -/
theorem rates_worn_wrap :
    List.Forall₂ (fun c s => c.Printed s.info) [printedCounts wornLine, wornLater]
        (samplesOf "sda".toList (soleCalls [(0, wornLine), (1, wrappedLine)])) ∧
      [printedCounts wornLine, wornLater].IsChain Continues ∧
      (reported "sda".toList (soleCalls [(0, wornLine), (1, wrappedLine)]))[1]?.map ratesOf ≠
        some (ratesFrom 1 (increment (printedCounts wornLine) wornLater)) := by
  have samples : samplesOf "sda".toList (soleCalls [(0, wornLine), (1, wrappedLine)]) =
      [⟨0, wornLine.firstNine⟩, ⟨1, wrappedLine.firstNine⟩] :=
    samplesOf_soleCalls (by decide) (by simp [sampleLine, wornLine, wrappedLine])
  refine ⟨?_, ?_, ?_⟩
  · rw [samples]
    refine .cons ?_ (.cons ?_ .nil)
    · intro c
      cases c <;> rfl
    · intro c
      cases c <;> rfl
  · apply List.isChain_pair.mpr
    intro _ c
    cases c <;> decide
  · rw [reported_eq_alone, samples]
    decide +kernel

end LinuxMonitor.Monitor.DiskMonitor
