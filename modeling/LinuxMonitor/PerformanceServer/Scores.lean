import Mathlib.Algebra.BigOperators.Group.List.Lemmas
import Mathlib.Algebra.Order.BigOperators.Group.List
import Mathlib.Algebra.Order.Field.Rat
import Mathlib.Tactic.GCongr
import Mathlib.Tactic.Linarith
import Mathlib.Tactic.Positivity
import LinuxMonitor.PerformanceServer.Metrics

/-!
# The range and the order of the scores

A score is a number between 0 and 100.  The scores of the sections are averages over the
entries of a report, and the overall score is a weighted sum of them.

* `sections_inRange`: the scores of the sections are between 0 and 100.
* `overall_inRange`: **so is the weighted sum, no division is by zero, and the last clamp
  changes nothing.**
* `overall_antitone`: **more load never raises the overall score, and the order of the entries
  does not matter.**
-/

set_option autoImplicit false

namespace LinuxMonitor.PerformanceServer

open Proto

variable {R : Type} [Field R] [LinearOrder R]

/-! ## Division -/

theorem divide_of_pos {x y : R} (positive : 0 < y) : divide x y = some (x / y) :=
  if_neg positive.ne'

theorem networkAvgPacketSizeChecked_eq (netInfo : NetInfo R) :
    networkAvgPacketSizeChecked netInfo = some (calculateNetworkAvgPacketSize netInfo) := by
  unfold networkAvgPacketSizeChecked calculateNetworkAvgPacketSize
  dsimp only
  split
  · next moving => exact divide_of_pos moving
  · rfl

theorem memoryScoreChecked_eq (info : MonitorInfo R) :
    memoryScoreChecked info = some (calculateMemoryScore info) := by
  unfold memoryScoreChecked calculateMemoryScore
  cases info.memInfo with
  | none => rfl
  | some memInfo =>
      dsimp only
      by_cases known : memInfo.total > 0
      · simp only [if_pos known, divide_of_pos known, Option.bind_eq_bind, Option.bind_some]
        split_ifs <;> rfl
      · simp only [if_neg known, Option.bind_eq_bind, Option.bind_some]

variable [IsStrictOrderedRing R]

theorem averageChecked_eq {α : Type} {checked : α → Option R} {score : α → R}
    {entries : List α} (each : ∀ e ∈ entries, checked e = some (score e)) :
    averageChecked checked entries = some (average score entries) := by
  unfold averageChecked average
  by_cases empty : entries = []
  · rw [if_pos empty, if_pos empty]
  · have scores : entries.mapM checked = some (entries.map score) := by
      clear empty
      induction entries with
      | nil => rfl
      | cons e entries ih =>
          obtain ⟨here, rest⟩ := List.forall_mem_cons.mp each
          simp [here, ih rest]
    have count : (0 : R) < entries.length :=
      Nat.cast_pos.mpr (List.length_pos_of_ne_nil empty)
    rw [if_neg empty, if_neg empty, scores]
    exact divide_of_pos count

theorem diskAvgQueueLengthChecked_eq (diskInfo : DiskInfo R) :
    diskAvgQueueLengthChecked diskInfo = some (calculateDiskAvgQueueLength diskInfo) := by
  unfold diskAvgQueueLengthChecked calculateDiskAvgQueueLength
  split
  · next used =>
      have positive : (0 : R) < diskInfo.ioTimeMs.toNat :=
        Nat.cast_pos.mpr (UInt64.lt_iff_toNat_lt.mp used)
      exact divide_of_pos positive
  · rfl

theorem diskEntryScoreChecked_eq (diskInfo : DiskInfo R) :
    diskEntryScoreChecked diskInfo = some (diskEntryScore diskInfo) := by
  unfold diskEntryScoreChecked diskEntryScore
  simp only [diskAvgQueueLengthChecked_eq, divide_of_pos (zero_lt_two : (0 : R) < 2),
    Option.bind_eq_bind, Option.bind_some]
  split_ifs <;> rfl

theorem networkEntryScoreChecked_eq (netInfo : NetInfo R) :
    networkEntryScoreChecked netInfo = some (networkEntryScore netInfo) := by
  unfold networkEntryScoreChecked networkEntryScore
  have ten : (0 : R) < 10 := by norm_num
  have fifteen : (0 : R) < 15 := by norm_num
  simp only [networkAvgPacketSizeChecked_eq, divide_of_pos ten, divide_of_pos fifteen,
    Option.bind_eq_bind, Option.bind_some]
  split_ifs <;> rfl

/-- **No division is by zero.** -/
theorem overallScoreChecked_eq (info : MonitorInfo R) :
    overallScoreChecked info = some (calculateOverallPerformanceScore info) := by
  have cpu : averageChecked (fun stat => some (cpuEntryScore info.cpuLoad stat)) info.cpuStat =
      some (calculateCPUScore info) := averageChecked_eq fun _ _ => rfl
  have disk : averageChecked diskEntryScoreChecked info.diskInfo =
      some (calculateDiskScore info) :=
    averageChecked_eq fun diskInfo _ => diskEntryScoreChecked_eq diskInfo
  have network : averageChecked networkEntryScoreChecked info.netInfo =
      some (calculateNetworkScore info) :=
    averageChecked_eq fun netInfo _ => networkEntryScoreChecked_eq netInfo
  unfold overallScoreChecked
  rw [cpu, disk, network, memoryScoreChecked_eq]
  rfl

/-! ## The range of the scores -/

/-- The numbers of a report that the scores read are not negative. -/
structure NonNegative (info : MonitorInfo R) : Prop where
  cpuStat : ∀ cpuStat ∈ info.cpuStat, 0 ≤ cpuStat.cpuPercent
  cpuLoad : ∀ load ∈ info.cpuLoad, 0 ≤ load.loadAvg1
  memInfo : ∀ memInfo ∈ info.memInfo, 0 ≤ memInfo.total ∧ 0 ≤ memInfo.avail ∧
    0 ≤ memInfo.buffers ∧ 0 ≤ memInfo.cached ∧ 0 ≤ memInfo.sReclaimable ∧
    0 ≤ memInfo.usedPercent
  diskInfo : ∀ diskInfo ∈ info.diskInfo, 0 ≤ diskInfo.avgReadLatencyMs ∧
    0 ≤ diskInfo.avgWriteLatencyMs ∧ 0 ≤ diskInfo.utilPercent
  netInfo : ∀ netInfo ∈ info.netInfo, 0 ≤ netInfo.sendRate ∧ 0 ≤ netInfo.rcvRate ∧
    0 ≤ netInfo.sendPacketsRate ∧ 0 ≤ netInfo.rcvPacketsRate

/-- A score that falls from 100 on. -/
theorem inRange_falling {x : R} (nonneg : 0 ≤ x) : InRange (max 0 (100 - x)) :=
  ⟨le_max_left _ _, max_le (by norm_num) (by linarith)⟩

theorem inRange_zero : InRange (0 : R) := ⟨le_rfl, by norm_num⟩

theorem inRange_hundred : InRange (100 : R) := ⟨by norm_num, le_rfl⟩

theorem inRange_average {α : Type} {score : α → R} {entries : List α}
    (each : ∀ e ∈ entries, InRange (score e)) : InRange (average score entries) := by
  unfold average
  split
  · exact inRange_zero
  · next nonempty =>
      have count : (0 : R) < entries.length :=
        Nat.cast_pos.mpr (List.length_pos_of_ne_nil nonempty)
      have lower : 0 ≤ (entries.map score).sum := by
        apply List.sum_nonneg
        intro x member
        obtain ⟨e, inside, rfl⟩ := List.mem_map.mp member
        exact (each e inside).1
      have upper : (entries.map score).sum ≤ (entries.map score).length • (100 : R) := by
        apply List.sum_le_card_nsmul _ _
        intro x member
        obtain ⟨e, inside, rfl⟩ := List.mem_map.mp member
        exact (each e inside).2
      rw [List.length_map, nsmul_eq_mul, mul_comm] at upper
      exact ⟨div_nonneg lower count.le, (div_le_iff₀ count).mpr upper⟩

theorem inRange_cpuEntryScore {cpuLoad : Option (CpuLoad R)} {cpuStat : CpuStat R}
    (load : ∀ load ∈ cpuLoad, 0 ≤ load.loadAvg1) (usage : 0 ≤ cpuStat.cpuPercent) :
    InRange (cpuEntryScore cpuLoad cpuStat) := by
  obtain ⟨lower, upper⟩ := inRange_falling usage
  unfold cpuEntryScore
  cases cpuLoad with
  | none =>
      dsimp only
      constructor <;> linarith
  | some l =>
      have scaled : 0 ≤ l.loadAvg1 * 10 := mul_nonneg (load l rfl) (by norm_num)
      obtain ⟨lower', upper'⟩ := inRange_falling scaled
      dsimp only
      rw [min_eq_right upper']
      constructor <;> linarith

theorem calculateDiskAvgQueueLength_nonneg (diskInfo : DiskInfo R) :
    0 ≤ calculateDiskAvgQueueLength diskInfo := by
  unfold calculateDiskAvgQueueLength
  split
  · positivity
  · exact le_rfl

theorem inRange_diskEntryScore {diskInfo : DiskInfo R}
    (readLatency : 0 ≤ diskInfo.avgReadLatencyMs)
    (writeLatency : 0 ≤ diskInfo.avgWriteLatencyMs) (util : 0 ≤ diskInfo.utilPercent) :
    InRange (diskEntryScore diskInfo) := by
  have queue := calculateDiskAvgQueueLength_nonneg diskInfo
  have latency : 0 ≤ (diskInfo.avgReadLatencyMs + diskInfo.avgWriteLatencyMs) / 2 * 2 := by
    positivity
  have queue' : 0 ≤ calculateDiskAvgQueueLength diskInfo * 20 := by positivity
  obtain ⟨utilLower, utilUpper⟩ := inRange_falling util
  obtain ⟨latencyLower, latencyUpper⟩ := inRange_falling latency
  obtain ⟨queueLower, queueUpper⟩ := inRange_falling queue'
  unfold diskEntryScore
  dsimp only
  split
  · constructor <;> linarith
  · constructor <;> linarith

theorem inRange_networkEntryScore {netInfo : NetInfo R} (send : 0 ≤ netInfo.sendRate)
    (rcv : 0 ≤ netInfo.rcvRate) : InRange (networkEntryScore netInfo) := by
  have throughput : 0 ≤ calculateNetworkTotalThroughput netInfo := add_nonneg send rcv
  have packetSize : InRange (if calculateNetworkAvgPacketSize netInfo > 0 then
      max 0 (100 - |calculateNetworkAvgPacketSize netInfo - 1500| / 15) else 0) := by
    split
    · exact inRange_falling (by positivity)
    · exact inRange_zero
  obtain ⟨sizeLower, sizeUpper⟩ := packetSize
  unfold networkEntryScore
  dsimp only
  split
  · next moderate => constructor <;> linarith
  · next heavy =>
      have excess : 0 ≤ (calculateNetworkTotalThroughput netInfo - 100) / 10 :=
        div_nonneg (by linarith) (by norm_num)
      obtain ⟨lower, upper⟩ := inRange_falling excess
      constructor <;> linarith

/-- The score of the cache, for a share of the memory in percent. -/
theorem inRange_cacheScore {cachePercent : R} (nonneg : 0 ≤ cachePercent) :
    InRange (if cachePercent ≥ 10 ∧ cachePercent ≤ 30 then 100
      else if cachePercent < 10 then cachePercent * 10
      else max 0 (100 - (cachePercent - 30) * 5)) := by
  split
  · exact inRange_hundred
  · next outside =>
      split
      · next little => exact ⟨by linarith, by linarith⟩
      · next more =>
          have much : 30 ≤ cachePercent := by
            by_contra below
            exact outside ⟨not_lt.mp more, (not_le.mp below).le⟩
          exact inRange_falling (by linarith)

theorem inRange_calculateMemoryScore {info : MonitorInfo R}
    (nonneg : ∀ memInfo ∈ info.memInfo, 0 ≤ memInfo.total ∧ 0 ≤ memInfo.avail ∧
      0 ≤ memInfo.buffers ∧ 0 ≤ memInfo.cached ∧ 0 ≤ memInfo.sReclaimable ∧
      0 ≤ memInfo.usedPercent) : InRange (calculateMemoryScore info) := by
  unfold calculateMemoryScore
  cases stored : info.memInfo with
  | none => exact inRange_zero
  | some memInfo =>
      obtain ⟨total, avail, buffers, cached, reclaimable, used⟩ := nonneg memInfo stored
      obtain ⟨usageLower, usageUpper⟩ := inRange_falling used
      dsimp only
      by_cases known : memInfo.total > 0
      · have cache : 0 ≤ calculateCacheTotalGB memInfo / memInfo.total * 100 := by
          unfold calculateCacheTotalGB
          positivity
        have available : 0 ≤ min 100 (memInfo.avail / memInfo.total * 100 * 2) :=
          le_min (by norm_num) (by positivity)
        obtain ⟨cacheLower, cacheUpper⟩ := inRange_cacheScore cache
        rw [if_pos known, if_pos known]
        exact ⟨le_min (by norm_num) (by linarith), min_le_left _ _⟩
      · rw [if_neg known, if_neg known]
        exact ⟨le_min (by norm_num) (by linarith), min_le_left _ _⟩

/-- **The scores of the sections.** -/
theorem sections_inRange {info : MonitorInfo R} (nonneg : NonNegative info) :
    InRange (calculateCPUScore info) ∧ InRange (calculateMemoryScore info) ∧
      InRange (calculateDiskScore info) ∧ InRange (calculateNetworkScore info) := by
  refine ⟨?_, inRange_calculateMemoryScore nonneg.memInfo, ?_, ?_⟩
  · apply inRange_average
    intro cpuStat member
    exact inRange_cpuEntryScore nonneg.cpuLoad (nonneg.cpuStat cpuStat member)
  · apply inRange_average
    intro diskInfo member
    obtain ⟨readLatency, writeLatency, util⟩ := nonneg.diskInfo diskInfo member
    exact inRange_diskEntryScore readLatency writeLatency util
  · apply inRange_average
    intro netInfo member
    obtain ⟨send, rcv, -, -⟩ := nonneg.netInfo netInfo member
    exact inRange_networkEntryScore send rcv

/-- **The overall score.**  For a report without negative numbers the scores of the sections
and their weighted sum are between 0 and 100, every division has a divisor other than zero,
and the last clamp changes nothing. -/
theorem overall_inRange {info : MonitorInfo R} (nonneg : NonNegative info) :
    (InRange (calculateCPUScore info) ∧ InRange (calculateMemoryScore info) ∧
        InRange (calculateDiskScore info) ∧ InRange (calculateNetworkScore info)) ∧
      overallScoreChecked info = some (calculateOverallPerformanceScore info) ∧
      InRange (weightedScore info) ∧
      calculateOverallPerformanceScore info = weightedScore info := by
  have sections := sections_inRange nonneg
  obtain ⟨⟨cpu, cpu'⟩, ⟨memory, memory'⟩, ⟨disk, disk'⟩, ⟨network, network'⟩⟩ := sections
  have weighted : InRange (weightedScore info) := by
    unfold weightedScore
    exact ⟨by linarith, by linarith⟩
  refine ⟨sections_inRange nonneg, overallScoreChecked_eq info, weighted, ?_⟩
  have clamp : calculateOverallPerformanceScore info = min 100 (max 0 (weightedScore info)) := rfl
  rw [clamp, max_eq_right weighted.1, min_eq_right weighted.2]

/-- A report of two CPUs, a loaded disk and an interface without packets. -/
def busyHost : MonitorInfo ℚ where
  name := "db".toList
  softIrq := []
  cpuLoad := some ⟨4, 3, 2⟩
  cpuStat := [⟨"cpu0".toList, 90, 60, 30, 0, 10, 0, 0, 0⟩,
    ⟨"cpu1".toList, 110, 70, 40, 0, 0, 0, 0, 0⟩]
  memInfo := some { MemInfo.unset with total := 16, avail := 4, cached := 2, usedPercent := 75 }
  netInfo := [⟨"eth0".toList, 40, 60, 0, 0, 0, 0, 0, 0, 0, 0, 0, 0⟩]
  diskInfo := [⟨"sda".toList, 9, 9, 72, 72, 5, 5, 1, 40, 100, 0, 0, 0, 0, 30, 50, 95⟩]

theorem nonNegative_busyHost : NonNegative busyHost := by
  constructor <;> simp [busyHost, MemInfo.unset]

/-- **A busy host.** -/
theorem overall_inRange_busyHost :
    InRange (weightedScore busyHost) ∧
      calculateOverallPerformanceScore busyHost = weightedScore busyHost :=
  (overall_inRange nonNegative_busyHost).2.2

/-! ## The order of the scores -/

/-- The second report shows at least the load of the first, entry by entry. -/
structure LessLoaded (first second : MonitorInfo R) : Prop where
  cpuStat : List.Forall₂ (fun a b : CpuStat R => a.cpuPercent ≤ b.cpuPercent)
    first.cpuStat second.cpuStat
  cpuLoad : Option.Rel (fun a b : CpuLoad R => a.loadAvg1 ≤ b.loadAvg1)
    first.cpuLoad second.cpuLoad
  memInfo : Option.Rel (fun a b : MemInfo R => a.total = b.total ∧
      calculateCacheTotalGB a = calculateCacheTotalGB b ∧ a.usedPercent ≤ b.usedPercent ∧
      b.avail ≤ a.avail) first.memInfo second.memInfo
  diskInfo : List.Forall₂ (fun a b : DiskInfo R => a.ioTimeMs = b.ioTimeMs ∧
      a.utilPercent ≤ b.utilPercent ∧ a.avgReadLatencyMs ≤ b.avgReadLatencyMs ∧
      a.avgWriteLatencyMs ≤ b.avgWriteLatencyMs ∧ a.weightedIoTimeMs ≤ b.weightedIoTimeMs)
    first.diskInfo second.diskInfo
  netInfo : first.netInfo = second.netInfo

/-- The two reports hold the same entries, perhaps in another order. -/
structure SameEntries (first second : MonitorInfo R) : Prop where
  cpuStat : first.cpuStat.Perm second.cpuStat
  cpuLoad : first.cpuLoad = second.cpuLoad
  memInfo : first.memInfo = second.memInfo
  diskInfo : first.diskInfo.Perm second.diskInfo
  netInfo : first.netInfo.Perm second.netInfo

omit [LinearOrder R] [IsStrictOrderedRing R] in
theorem average_perm {α : Type} (score : α → R) {first second : List α}
    (same : first.Perm second) : average score first = average score second := by
  have total : (first.map score).sum = (second.map score).sum := (same.map score).sum_eq
  unfold average
  rw [total, same.length_eq]
  by_cases empty : first = []
  · have kept : second = [] := (empty ▸ same).nil_eq.symm
    rw [if_pos empty, if_pos kept]
  · have kept : second ≠ [] := fun none => empty (none ▸ same).eq_nil
    rw [if_neg empty, if_neg kept]

theorem average_le_average {α β : Type} {score : α → R} {other : β → R} {first : List α}
    {second : List β} (each : List.Forall₂ (fun a b => other b ≤ score a) first second) :
    average other second ≤ average score first := by
  have total : (second.map other).sum ≤ (first.map score).sum := by
    apply List.Forall₂.sum_le_sum
    rw [List.forall₂_map_left_iff, List.forall₂_map_right_iff]
    exact each.flip
  unfold average
  cases each with
  | nil => rfl
  | cons here rest =>
      rw [if_neg (List.cons_ne_nil _ _), if_neg (List.cons_ne_nil _ _)]
      rw [List.length_cons, List.length_cons, rest.length_eq]
      gcongr

/-- A score that falls from 100 on falls with its number. -/
theorem falling_le_falling {x y : R} (more : x ≤ y) : max 0 (100 - y) ≤ max 0 (100 - x) :=
  max_le_max_left 0 (sub_le_sub_left more 100)

theorem cpuEntryScore_antitone {first second : Option (CpuLoad R)} {a b : CpuStat R}
    (load : Option.Rel (fun l m : CpuLoad R => l.loadAvg1 ≤ m.loadAvg1) first second)
    (usage : a.cpuPercent ≤ b.cpuPercent) : cpuEntryScore second b ≤ cpuEntryScore first a := by
  have usageScore := falling_le_falling usage
  unfold cpuEntryScore
  cases load with
  | none =>
      dsimp only
      linarith
  | @some l m more =>
      have scaled : l.loadAvg1 * 10 ≤ m.loadAvg1 * 10 := by gcongr
      have loadScore := min_le_min_left 100 (falling_le_falling scaled)
      dsimp only
      linarith

theorem calculateMemoryScore_antitone {first second : MonitorInfo R}
    (memory : Option.Rel (fun a b : MemInfo R => a.total = b.total ∧
      calculateCacheTotalGB a = calculateCacheTotalGB b ∧ a.usedPercent ≤ b.usedPercent ∧
      b.avail ≤ a.avail) first.memInfo second.memInfo) :
    calculateMemoryScore second ≤ calculateMemoryScore first := by
  unfold calculateMemoryScore
  generalize first.memInfo = a at memory ⊢
  generalize second.memInfo = b at memory ⊢
  cases memory with
  | none => exact le_rfl
  | @some a b related =>
      obtain ⟨total, cache, used, avail⟩ := related
      have usageScore := falling_le_falling used
      dsimp only
      rw [total, cache]
      refine min_le_min_left 100 (add_le_add_left (add_le_add ?_ ?_) _)
      · linarith
      · by_cases known : b.total > 0
        · rw [if_pos known, if_pos known]
          gcongr
        · rw [if_neg known, if_neg known]

/-- The queue of a disk that was busy for the same time grows with the weighted time. -/
theorem calculateDiskAvgQueueLength_mono {a b : DiskInfo R} (ioTime : a.ioTimeMs = b.ioTimeMs)
    (weighted : a.weightedIoTimeMs ≤ b.weightedIoTimeMs) :
    (calculateDiskAvgQueueLength a : R) ≤ calculateDiskAvgQueueLength b := by
  unfold calculateDiskAvgQueueLength
  rw [ioTime]
  by_cases used : b.ioTimeMs > 0
  · have counts : a.weightedIoTimeMs.toNat ≤ b.weightedIoTimeMs.toNat :=
      UInt64.le_iff_toNat_le.mp weighted
    rw [if_pos used, if_pos used]
    gcongr
  · rw [if_neg used, if_neg used]

/-- The guard of the latencies: a latency that appears can only lower the score from 100. -/
theorem latencyScore_antitone {read write read' write' : R} (readMore : read ≤ read')
    (writeMore : write ≤ write') (read_nonneg : 0 ≤ read') (write_nonneg : 0 ≤ write') :
    (if read' > 0 ∨ write' > 0 then max 0 (100 - (read' + write') / 2 * 2) else 100) ≤
      if read > 0 ∨ write > 0 then max 0 (100 - (read + write) / 2 * 2) else (100 : R) := by
  by_cases slow : read > 0 ∨ write > 0
  · have slow' : read' > 0 ∨ write' > 0 :=
      slow.imp (fun h => lt_of_lt_of_le h readMore) (fun h => lt_of_lt_of_le h writeMore)
    rw [if_pos slow, if_pos slow']
    exact falling_le_falling (by gcongr)
  · rw [if_neg slow]
    split
    · have latency : 0 ≤ (read' + write') / 2 * 2 := by positivity
      exact (inRange_falling latency).2
    · exact le_rfl

theorem diskEntryScore_antitone {a b : DiskInfo R} (ioTime : a.ioTimeMs = b.ioTimeMs)
    (util : a.utilPercent ≤ b.utilPercent) (read : a.avgReadLatencyMs ≤ b.avgReadLatencyMs)
    (write : a.avgWriteLatencyMs ≤ b.avgWriteLatencyMs)
    (weighted : a.weightedIoTimeMs ≤ b.weightedIoTimeMs) (read_nonneg : 0 ≤ b.avgReadLatencyMs)
    (write_nonneg : 0 ≤ b.avgWriteLatencyMs) : diskEntryScore b ≤ diskEntryScore a := by
  have queue := calculateDiskAvgQueueLength_mono ioTime weighted
  have scaled : calculateDiskAvgQueueLength a * 20 ≤ calculateDiskAvgQueueLength b * 20 := by
    gcongr
  have utilScore := falling_le_falling util
  have latencyScore := latencyScore_antitone read write read_nonneg write_nonneg
  have queueScore := falling_le_falling scaled
  unfold diskEntryScore
  dsimp only
  linarith

theorem calculateOverallPerformanceScore_mono {first second : MonitorInfo R}
    (cpu : calculateCPUScore second ≤ calculateCPUScore first)
    (memory : calculateMemoryScore second ≤ calculateMemoryScore first)
    (disk : calculateDiskScore second ≤ calculateDiskScore first)
    (network : calculateNetworkScore second ≤ calculateNetworkScore first) :
    calculateOverallPerformanceScore second ≤ calculateOverallPerformanceScore first := by
  unfold calculateOverallPerformanceScore
  dsimp only
  gcongr

/-- **More load never raises the score.**  And the order of the entries does not matter. -/
theorem overall_antitone :
    (∀ first second : MonitorInfo R, NonNegative first → NonNegative second →
      LessLoaded first second →
      calculateOverallPerformanceScore second ≤ calculateOverallPerformanceScore first) ∧
    ∀ first second : MonitorInfo R, SameEntries first second →
      calculateOverallPerformanceScore first = calculateOverallPerformanceScore second := by
  constructor
  · intro first second _ nonneg less
    refine calculateOverallPerformanceScore_mono ?_ ?_ ?_ ?_
    · refine average_le_average (less.cpuStat.imp fun a b usage => ?_)
      exact cpuEntryScore_antitone less.cpuLoad usage
    · exact calculateMemoryScore_antitone less.memInfo
    · have related := (List.forall₂_and_left _ _).mpr ⟨nonneg.diskInfo, less.diskInfo.flip⟩
      refine average_le_average (related.flip.imp fun a b both => ?_)
      obtain ⟨⟨read_nonneg, write_nonneg, -⟩, ioTime, util, read, write, weighted⟩ := both
      exact diskEntryScore_antitone ioTime util read write weighted read_nonneg write_nonneg
    · exact (congrArg (average networkEntryScore) less.netInfo).ge
  · intro first second same
    have cpu : calculateCPUScore first = calculateCPUScore second := by
      unfold calculateCPUScore
      rw [same.cpuLoad, average_perm _ same.cpuStat]
    have memory : calculateMemoryScore first = calculateMemoryScore second := by
      unfold calculateMemoryScore
      rw [same.memInfo]
    have disk : calculateDiskScore first = calculateDiskScore second :=
      average_perm diskEntryScore same.diskInfo
    have network : calculateNetworkScore first = calculateNetworkScore second :=
      average_perm networkEntryScore same.netInfo
    unfold calculateOverallPerformanceScore
    rw [cpu, memory, disk, network]

/-- The same host before its CPUs and its disk got busy. -/
def calmHost : MonitorInfo ℚ :=
  { busyHost with
    cpuLoad := some ⟨1, 3, 2⟩
    cpuStat := [⟨"cpu0".toList, 20, 10, 10, 0, 80, 0, 0, 0⟩,
      ⟨"cpu1".toList, 30, 20, 10, 0, 70, 0, 0, 0⟩]
    diskInfo := [⟨"sda".toList, 9, 9, 72, 72, 5, 5, 1, 40, 60, 0, 0, 0, 0, 0, 0, 35⟩] }

theorem lessLoaded_busyHost : LessLoaded calmHost busyHost where
  cpuStat := .cons (by decide +kernel) (.cons (by decide +kernel) .nil)
  cpuLoad := .some (by decide +kernel)
  memInfo := .some ⟨rfl, rfl, le_rfl, le_rfl⟩
  diskInfo := .cons (by decide +kernel) .nil
  netInfo := rfl

/-- The report of the busy host with its CPUs the other way round. -/
def busyHostReversed : MonitorInfo ℚ := { busyHost with cpuStat := busyHost.cpuStat.reverse }

/-- **The load of the busy host.** -/
theorem overall_antitone_busyHost :
    calculateOverallPerformanceScore busyHost ≤ calculateOverallPerformanceScore calmHost ∧
      calculateOverallPerformanceScore busyHostReversed =
        calculateOverallPerformanceScore busyHost := by
  have calm : NonNegative calmHost := by
    constructor <;> simp [calmHost, busyHost, MemInfo.unset]
  have reversed : SameEntries busyHostReversed busyHost :=
    ⟨List.reverse_perm _, rfl, rfl, .refl _, .refl _⟩
  exact ⟨overall_antitone.1 calmHost busyHost calm nonNegative_busyHost lessLoaded_busyHost,
    overall_antitone.2 busyHostReversed busyHost reversed⟩

end LinuxMonitor.PerformanceServer
