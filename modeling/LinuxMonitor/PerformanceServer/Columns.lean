import LinuxMonitor.Library.FloatRounding
import LinuxMonitor.Monitor.CpuSoftIrqMonitor
import LinuxMonitor.Monitor.DiskMonitor
import LinuxMonitor.Monitor.NetMonitor
import LinuxMonitor.PerformanceServer.Statement

/-!
# The columns, and the raw counters in them

A FLOAT column holds numbers with a significand of 24 bits, a BIGINT column integers of 64 bits
with a sign, and a VARCHAR column texts up to its width.  The database is in its strict mode: a row
with a value that is out of range, or with a text that is wider than its column, unless all that
exceeds the width is blanks, is refused.  The width counts characters; a text here is a list of
bytes, which are the characters as long as it is one of ASCII.

A soft interrupt count is 32 bits wide up to the decimal text of an INSERT statement, and
the column it is stored in is a FLOAT.  A disk counter is 64 bits wide without a sign, and
its column is a BIGINT.  The error and drop counts of an interface are 64 bits wide, and
the fields of their message are `float`.

* `hold_float_natCast`, `hold_bigint_natCast`: what a column holds of a natural number is what it
  holds of the printed one.
* `store_decimal_iff`: what a column keeps of printed numbers.
* `storeCounts_iff`: a row holds its counts exactly when each column keeps its own.
* `counters_kept_iff`: **the soft interrupt counts and the error and drop counts are kept
  exactly when they have a significand of 24 bits, the disk counters exactly when they are
  below `2 ^ 63`.**
-/

set_option autoImplicit false

namespace LinuxMonitor.PerformanceServer

open Library Monitor

/-! ## Columns -/

/-- The types of the columns that hold counters. -/
inductive ColumnType where
  | float
  | bigint
deriving DecidableEq, Repr

/-- What a column holds of a printed number, nothing when it is out of range. -/
def ColumnType.store : ColumnType → Text → Option ℕ
  | .float, value => some (roundTo 24 (digitsValue value))
  | .bigint, value => if digitsValue value < 2 ^ 63 then some (digitsValue value) else none

/-- The greatest number of a FLOAT column. -/
def maxFloat : ℚ := (2 ^ 24 - 1) * 2 ^ 104

/-- What a column with integers of so many bits holds of a number. -/
def holdInteger (bits : ℕ) (x : ℚ) : Option ℚ :=
  if x.den = 1 ∧ -2 ^ (bits - 1) ≤ x ∧ x < 2 ^ (bits - 1) then some x else none

/-- What a column holds of a number, nothing when it is out of range.  A FLOAT column gets the
number as a double. -/
def ColumnType.hold : ColumnType → ℚ → Option ℚ
  | .float, x =>
      let y := roundFloat 24 (roundFloat 53 x)
      if |y| ≤ maxFloat then some y else none
  | .bigint, x => holdInteger 64 x

/-- The numbers that a column keeps. -/
def ColumnType.Keeps : ColumnType → ℕ → Prop
  | .float, n => Representable 24 n
  | .bigint, n => n < 2 ^ 63

/-- What the columns of a row hold.  The row is rejected when one of its values is. -/
def storeCounts : List (String × ColumnType) → List Text → Option (List ℕ)
  | (_, type) :: columns, value :: values => do
      let count ← type.store value
      let counts ← storeCounts columns values
      return count :: counts
  | _, _ => some []

/-- The count columns of `soft_irq_metrics`. -/
def softIrqColumns : List (String × ColumnType) :=
  [("hi", .float), ("timer", .float), ("net_tx", .float), ("net_rx", .float), ("block", .float),
    ("irq_poll", .float), ("tasklet", .float), ("sched", .float), ("hrtimer", .float),
    ("rcu", .float)]

/-- The count columns of `disk_metrics`. -/
def diskColumns : List (String × ColumnType) :=
  [("reads", .bigint), ("writes", .bigint), ("sectors_read", .bigint),
    ("sectors_written", .bigint), ("read_time_ms", .bigint), ("write_time_ms", .bigint),
    ("io_in_progress", .bigint), ("io_time_ms", .bigint), ("weighted_io_time_ms", .bigint)]

/-! ## Texts -/

section Texts

variable {R : Type}

/-- A `VARCHAR` column takes the text: what exceeds the width is blanks. -/
def FitsColumn (width : ℕ) (v : Text) : Prop := ∀ c ∈ v.drop width, c = ' '

instance (width : ℕ) : DecidablePred (FitsColumn width) := fun v =>
  List.decidableBAll (· = ' ') (v.drop width)

/-- The columns of the statement take its texts. -/
def Statement.Fits : Statement R → Prop
  | .selectHost _ => True
  | .insertHost hostId hostName => FitsColumn 50 hostId ∧ FitsColumn 100 hostName
  | .insertCpu hostId _ cpuStat _ => FitsColumn 50 hostId ∧ FitsColumn 20 cpuStat.cpuName
  | .insertSoftIrq hostId _ softIrq => FitsColumn 50 hostId ∧ FitsColumn 20 softIrq.cpu
  | .insertMemory hostId _ _ => FitsColumn 50 hostId
  | .insertDisk hostId _ diskInfo => FitsColumn 50 hostId ∧ FitsColumn 50 diskInfo.name
  | .insertNetwork hostId _ netInfo => FitsColumn 50 hostId ∧ FitsColumn 50 netInfo.name
  | .insertSummary hostId _ _ => FitsColumn 50 hostId

instance : DecidablePred (Statement.Fits : Statement R → Prop)
  | .selectHost _ => inferInstanceAs (Decidable True)
  | .insertHost hostId hostName =>
      inferInstanceAs (Decidable (FitsColumn 50 hostId ∧ FitsColumn 100 hostName))
  | .insertCpu hostId _ cpuStat _ =>
      inferInstanceAs (Decidable (FitsColumn 50 hostId ∧ FitsColumn 20 cpuStat.cpuName))
  | .insertSoftIrq hostId _ softIrq =>
      inferInstanceAs (Decidable (FitsColumn 50 hostId ∧ FitsColumn 20 softIrq.cpu))
  | .insertMemory hostId _ _ => inferInstanceAs (Decidable (FitsColumn 50 hostId))
  | .insertDisk hostId _ diskInfo =>
      inferInstanceAs (Decidable (FitsColumn 50 hostId ∧ FitsColumn 50 diskInfo.name))
  | .insertNetwork hostId _ netInfo =>
      inferInstanceAs (Decidable (FitsColumn 50 hostId ∧ FitsColumn 50 netInfo.name))
  | .insertSummary hostId _ _ => inferInstanceAs (Decidable (FitsColumn 50 hostId))

theorem fitsColumn_of_length {width : ℕ} {v : Text} (short : v.length ≤ width) :
    FitsColumn width v := by
  rw [FitsColumn, List.drop_eq_nil_of_le short]
  exact fun _ member => by cases member

/-- A text that ends with a digit fits only if it is short. -/
theorem length_of_fitsColumn {width : ℕ} {v : Text} (fits : FitsColumn width v) (nonempty : v ≠ [])
    (last : isSpace (v.getLast nonempty) = false) : v.length ≤ width := by
  by_contra long
  have kept : v.drop width ≠ [] := by simpa using long
  have blank := fits _ (List.getLast_mem kept)
  rw [List.getLast_drop kept] at blank
  rw [blank] at last
  exact absurd last (by decide)

end Texts

/-! ## The counts of the messages -/

/-- The counts of a message, in the order of the INSERT statement. -/
def softIrqCounts (softIrq : Proto.SoftIrq) : List ℕ :=
  [softIrq.hi, softIrq.timer, softIrq.netTx, softIrq.netRx, softIrq.block, softIrq.irqPoll,
    softIrq.tasklet, softIrq.sched, softIrq.hrtimer, softIrq.rcu].map UInt32.toNat

/-- The counters of a message, in the order of the INSERT statement. -/
def diskCounts {R : Type} (diskInfo : Proto.DiskInfo R) : List ℕ :=
  [diskInfo.reads, diskInfo.writes, diskInfo.sectorsRead, diskInfo.sectorsWritten,
    diskInfo.readTimeMs, diskInfo.writeTimeMs, diskInfo.ioInProgress, diskInfo.ioTimeMs,
    diskInfo.weightedIoTimeMs].map UInt64.toNat

/-- What the row of `soft_irq_metrics` holds of the counts. -/
def storedSoftIrq (softIrq : Proto.SoftIrq) : Option (List ℕ) :=
  storeCounts softIrqColumns ((softIrqCounts softIrq).map decimal)

/-- What the row of `disk_metrics` holds of the counters. -/
def storedDisk {R : Type} (diskInfo : Proto.DiskInfo R) : Option (List ℕ) :=
  storeCounts diskColumns ((diskCounts diskInfo).map decimal)

/-! ## What a row keeps -/

/-- Natural numbers up to 53 bits are rounded once. -/
theorem roundFloat_twice_natCast {n : ℕ} (small : n < 2 ^ 53) :
    roundFloat 24 (roundFloat 53 n) = (roundTo 24 n : ℕ) := by
  have kept : roundTo 53 n = n :=
    (roundTo_eq_self_iff (by decide) n).mpr ⟨n, 0, small, (Nat.mul_one n).symm⟩
  rw [roundFloat_natCast, kept, roundFloat_natCast]

/-- **A FLOAT column holds of a natural number what it holds of the printed one.** -/
theorem hold_float_natCast {n : ℕ} (small : n < 2 ^ 53) :
    ColumnType.float.hold n = (ColumnType.float.store (decimal n)).map Nat.cast := by
  have near := dist_roundTo_mul_le (p := 24) (by decide) n
  have bound : roundTo 24 n < 2 ^ 54 := by
    simp only [Nat.dist] at near
    omega
  have range : |((roundTo 24 n : ℕ) : ℚ)| ≤ maxFloat := by
    rw [abs_of_nonneg (Nat.cast_nonneg _), maxFloat]
    calc ((roundTo 24 n : ℕ) : ℚ) ≤ 2 ^ 54 := by exact_mod_cast bound.le
      _ ≤ _ := by norm_num
  rw [ColumnType.hold, ColumnType.store, digitsValue_decimal]
  simp only [roundFloat_twice_natCast small, if_pos range, Option.map_some]

/-- **So does a BIGINT column.** -/
theorem hold_bigint_natCast (n : ℕ) :
    ColumnType.bigint.hold n = (ColumnType.bigint.store (decimal n)).map Nat.cast := by
  have lower : -2 ^ (64 - 1) ≤ (n : ℚ) := by
    calc (-2 ^ (64 - 1) : ℚ) ≤ 0 := by norm_num
      _ ≤ n := Nat.cast_nonneg n
  rw [ColumnType.hold, holdInteger, ColumnType.store, digitsValue_decimal]
  by_cases small : n < 2 ^ 63
  · have upper : (n : ℚ) < 2 ^ 63 := by exact_mod_cast small
    rw [if_pos small, if_pos ⟨Rat.den_natCast n, lower, upper⟩]
    rfl
  · have upper : ¬ (n : ℚ) < 2 ^ 63 := fun less => small (by exact_mod_cast less)
    rw [if_neg small, if_neg fun inside => upper inside.2.2]
    rfl

/-- **What a column keeps of a printed number.** -/
theorem store_decimal_iff (type : ColumnType) (n : ℕ) :
    type.store (decimal n) = some n ↔ type.Keeps n := by
  cases type with
  | float =>
      rw [ColumnType.store, digitsValue_decimal, Option.some.injEq]
      exact roundTo_eq_self_iff (by decide) n
  | bigint =>
      simp only [ColumnType.store, digitsValue_decimal, ColumnType.Keeps]
      by_cases small : n < 2 ^ 63
      · rw [if_pos small]
        exact iff_of_true rfl small
      · rw [if_neg small]
        exact iff_of_false (by simp) small

/-- **A row holds its counts exactly when each column keeps its own.** -/
theorem storeCounts_iff (type : ColumnType) {columns : List (String × ColumnType)}
    (same : ∀ column ∈ columns, column.2 = type) {counts : List ℕ}
    (enough : counts.length = columns.length) :
    storeCounts columns (counts.map decimal) = some counts ↔ ∀ n ∈ counts, type.Keeps n := by
  induction columns generalizing counts with
  | nil =>
      rw [List.length_eq_zero_iff.mp enough]
      exact iff_of_true rfl fun _ member => by cases member
  | cons column columns ih =>
      obtain ⟨name, own⟩ := column
      obtain ⟨n, counts, rfl⟩ := List.exists_cons_of_length_eq_add_one enough
      obtain rfl : own = type := same _ List.mem_cons_self
      have rest := ih (fun column member => same column (List.mem_cons_of_mem _ member))
        (Nat.succ.inj enough)
      rw [List.forall_mem_cons, ← rest, ← store_decimal_iff]
      constructor
      · intro stored
        obtain ⟨first, here, behind⟩ := Option.bind_eq_some_iff.mp stored
        obtain ⟨others, there, equal⟩ := Option.bind_eq_some_iff.mp behind
        cases equal
        exact ⟨here, there⟩
      · rintro ⟨here, there⟩
        simp [storeCounts, here, there]

theorem softIrqCounts_message (stat : CpuSoftIrqMonitor.SoftirqStat) :
    softIrqCounts (CpuSoftIrqMonitor.message stat) = stat.counts.map UInt32.toNat := rfl

theorem storedSoftIrq_iff (softIrq : Proto.SoftIrq) :
    storedSoftIrq softIrq = some (softIrqCounts softIrq) ↔
      ∀ n ∈ softIrqCounts softIrq, Representable 24 n :=
  storeCounts_iff .float (by simp [softIrqColumns]) rfl

theorem storedDisk_iff {R : Type} (diskInfo : Proto.DiskInfo R) :
    storedDisk diskInfo = some (diskCounts diskInfo) ↔ ∀ n ∈ diskCounts diskInfo, n < 2 ^ 63 :=
  storeCounts_iff .bigint (by simp [diskColumns]) rfl

/-! ## The fields of an interface -/

/-- The message of an interface as its `float` fields hold it. -/
def floatMessage (last : Option NetMonitor.NetInfo) (current : NetMonitor.NetInfo) :
    Proto.NetInfo ℚ :=
  (NetMonitor.message last current).map (roundFloat 24)

/-- The messages of `NetMonitor::UpdateOnce` as their `float` fields hold them. -/
def floatMessages (call : NetMonitor.Call) (state : NetMonitor.State) : List (Proto.NetInfo ℚ) :=
  (sweep floatMessage call.samples state.lastNetInfo).1.map Prod.snd

/-- The error and drop counts of a message. -/
def netFields (netInfo : Proto.NetInfo ℚ) : List ℚ :=
  [netInfo.errIn, netInfo.errOut, netInfo.dropIn, netInfo.dropOut]

/-- The error and drop counts of a sample. -/
def netCounts (stat : NetMonitor.NetStat) : List ℕ :=
  [stat.errIn, stat.errOut, stat.dropIn, stat.dropOut].map UInt64.toNat

theorem netFields_floatMessage (last : Option NetMonitor.NetInfo) (current : NetMonitor.NetInfo) :
    netFields (floatMessage last current) =
      (netCounts current.toNetStat).map fun count => ((roundTo 24 count : ℕ) : ℚ) := by
  simp only [netFields, floatMessage, Proto.NetInfo.map, NetMonitor.message, roundFloat_natCast,
    netCounts, List.map_cons, List.map_nil]

/-! ## The main result -/

/-- The counters of the devices that are not virtual, as they are read. -/
def diskSamples (diskstats : Text) : List DiskMonitor.DiskInfo :=
  ((lines diskstats).map DiskMonitor.parseLine).filter fun curr =>
    !DiskMonitor.isVirtualDisk curr.name

/-- The nine counters of a sample. -/
def sampleCounts (curr : DiskMonitor.DiskInfo) : List ℕ :=
  [curr.reads, curr.writes, curr.sectorsRead, curr.sectorsWritten, curr.readTimeMs,
    curr.writeTimeMs, curr.ioInProgress, curr.ioTimeMs, curr.weightedIoTimeMs].map UInt64.toNat

/-- **The soft interrupt counts and the error and drop counts are kept exactly when they have a
significand of 24 bits, the disk counters exactly when they are below `2 ^ 63`.** -/
theorem counters_kept_iff (mapped : Option (List CpuSoftIrqMonitor.SoftirqStat)) (now : ℤ)
    (diskstats : Text) (disks : DiskMonitor.State) (call : NetMonitor.Call)
    (interfaces : NetMonitor.State) :
    ((CpuSoftIrqMonitor.updateOnce mapped).map storedSoftIrq =
        (CpuSoftIrqMonitor.visited mapped).map (fun stat => some (stat.counts.map UInt32.toNat)) ↔
      ∀ stat ∈ CpuSoftIrqMonitor.visited mapped, ∀ n ∈ stat.counts, Representable 24 n.toNat) ∧
    ((DiskMonitor.updateOnce now diskstats disks).1.map storedDisk =
        (diskSamples diskstats).map (fun curr => some (sampleCounts curr)) ↔
      ∀ curr ∈ diskSamples diskstats, ∀ n ∈ sampleCounts curr, n < 2 ^ 63) ∧
    ((floatMessages call interfaces).map netFields =
        call.samples.map (fun sample => (netCounts sample.2.toNetStat).map Nat.cast) ↔
      ∀ sample ∈ call.samples, ∀ n ∈ netCounts sample.2.toNetStat, Representable 24 n) := by
  refine ⟨?_, ?_, ?_⟩
  · rw [CpuSoftIrqMonitor.updateOnce, List.map_map, List.map_inj_left]
    apply forall₂_congr
    intro stat _
    have row := storedSoftIrq_iff (CpuSoftIrqMonitor.message stat)
    rwa [softIrqCounts_message, List.forall_mem_map] at row
  · have samples : diskSamples diskstats =
        (DiskMonitor.updateOnce now diskstats disks).1.map DiskMonitor.counters :=
      (DiskMonitor.updateLines_counters now (lines diskstats) disks).symm
    rw [samples, List.map_map, List.map_inj_left, List.forall_mem_map]
    exact forall₂_congr fun diskInfo _ => storedDisk_iff diskInfo
  · rw [floatMessages, List.map_map]
    have fields := map_sweep (κ := Text) netFields_floatMessage call.samples interfaces.lastNetInfo
    rw [← Function.comp_def] at fields
    rw [fields, List.map_inj_left]
    apply forall₂_congr
    intro sample _
    rw [List.map_inj_left]
    apply forall₂_congr
    intro n _
    rw [Nat.cast_inj]
    exact roundTo_eq_self_iff (by decide) n

/-- A CPU's entry with a timer count that needs 25 bits. -/
def busyTimer : CpuSoftIrqMonitor.SoftirqStat :=
  ⟨"cpu0".toList, 0, 16777217, 0, 0, 0, 0, 0, 0, 0, 0⟩

/-- The stored count is one less, so an increment of one is lost. -/
theorem busyTimer_not_kept :
    (CpuSoftIrqMonitor.updateOnce (some [busyTimer])).map storedSoftIrq =
        (CpuSoftIrqMonitor.updateOnce (some [{ busyTimer with timer := 16777216 }])).map
          storedSoftIrq ∧
      ¬ (CpuSoftIrqMonitor.updateOnce (some [busyTimer])).map storedSoftIrq =
        (CpuSoftIrqMonitor.visited (some [busyTimer])).map
          fun stat => some (stat.counts.map UInt32.toNat) := by
  decide +kernel

end LinuxMonitor.PerformanceServer
