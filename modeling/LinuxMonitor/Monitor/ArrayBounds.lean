import Mathlib.Data.Finset.Sort
import LinuxMonitor.Library.Loop
import LinuxMonitor.Monitor.OnlineCpus

/-!
# The indices at which the arrays of the kernel modules are accessed

Both arrays have `MAX_CPU` records.  `update_cpu_stats` writes at the numbers of the CPUs
that are online, which have no such bound, and `CpuStatMonitor::UpdateOnce` reads as many
records as there are CPUs online; `update_softirq_stats` and
`CpuSoftIrqMonitor::UpdateOnce` stop at 128.  Here CPUs have any numbers, and each loop gives
the indices it has accessed.

* `mem_readIndices`: a reader accesses the records up to its bound and up to the first one
  without a name.
* `inside_turn_iff`: the accesses of one step stay inside exactly when the step fits.
* `accesses_inside_iff`: **in every run all accesses stay inside exactly when every step
  fits.**
* `Shows.step`: with the numbers below `MAX_CPU` the machine is that of `OnlineCpus`.
-/

set_option autoImplicit false

namespace LinuxMonitor.Monitor.ArrayBounds

open Library Kmod

/-- `MAX_CPU`, the number of records that are allocated. -/
def maxCpu : ℕ := 128

/-! ## Loops over an array -/

section Loops

variable {β : Type*}

/-- A loop that writes the record at each of the indices it comes to: the indices and the
records behind it. -/
def writeEach (record : ℕ → β → β) (indices : List ℕ) (stats : ℕ → β) : List ℕ × (ℕ → β) :=
  indices.foldl
    (fun s cpu => (s.1 ++ [cpu], Function.update s.2 cpu (record cpu (s.2 cpu)))) ([], stats)

/-- A loop over distinct indices has written each of them once. -/
theorem writeEach_eq (record : ℕ → β → β) {indices : List ℕ} (nodup : indices.Nodup)
    (stats : ℕ → β) :
    writeEach record indices stats =
      (indices, fun i => if i ∈ indices then record i (stats i) else stats i) := by
  induction indices using List.reverseRecOn with
  | nil => rfl
  | append_singleton indices cpu ih =>
      rw [List.nodup_append] at nodup
      have fresh : cpu ∉ indices :=
        fun member => nodup.2.2 cpu member cpu (List.mem_singleton_self cpu) rfl
      have before := ih nodup.1
      rw [writeEach] at before ⊢
      rw [List.foldl_concat, before]
      refine Prod.ext rfl (funext fun i => ?_)
      by_cases this : i = cpu
      · subst this
        simp [fresh]
      · simp [this]

/-- `for (i = 0; i < count; ++i) { if (stats[i].cpu_name[0] == '\0') break; … }`, with the
indices read so far. -/
def readLoop (count : ℕ) (named : ℕ → Bool) : Loop (ℕ × List ℕ) (List ℕ) where
  body s :=
    if s.1 < count then
      if named s.1 then .next (s.1 + 1, s.2 ++ [s.1]) else .stop (s.2 ++ [s.1])
    else .stop s.2
  measure s := count - s.1
  decreases := by
    intro s s' turn
    split at turn
    · split at turn
      · cases turn
        dsimp only
        omega
      · cases turn
    · cases turn

/-- The indices that a reader accesses. -/
def readIndices (count : ℕ) (named : ℕ → Bool) : List ℕ := (readLoop count named).result (0, [])

theorem mem_readLoop {count : ℕ} {named : ℕ → Bool} (start : ℕ) (indices : List ℕ) (i : ℕ) :
    i ∈ (readLoop count named).result (start, indices) ↔
      i ∈ indices ∨ start ≤ i ∧ i < count ∧ ∀ j, start ≤ j → j < i → named j = true := by
  induction left : count - start generalizing start indices with
  | zero =>
      have stop : (readLoop count named).body (start, indices) = .stop indices :=
        if_neg (by dsimp only; omega)
      rw [(readLoop count named).result_stop stop]
      constructor
      · exact Or.inl
      · rintro (before | ⟨later, below, -⟩)
        · exact before
        · omega
  | succ left ih =>
      have below : start < count := by omega
      cases name : named start with
      | false =>
          have stop : (readLoop count named).body (start, indices) =
              .stop (indices ++ [start]) := by
            simp [readLoop, below, name]
          rw [(readLoop count named).result_stop stop, List.mem_append, List.mem_singleton]
          apply or_congr_right
          constructor
          · rintro rfl
            exact ⟨le_rfl, below, fun j later earlier => absurd later (by omega)⟩
          · rintro ⟨later, -, before⟩
            by_contra other
            rw [before start le_rfl (by omega)] at name
            cases name
      | true =>
          have next : (readLoop count named).body (start, indices) =
              .next (start + 1, indices ++ [start]) := by
            simp [readLoop, below, name]
          rw [(readLoop count named).result_next next, ih _ _ (by omega), List.mem_append,
            List.mem_singleton, or_assoc]
          apply or_congr_right
          constructor
          · rintro (rfl | ⟨later, inside, before⟩)
            · exact ⟨le_rfl, below, fun j later earlier => absurd later (by omega)⟩
            · refine ⟨by omega, inside, fun j from_start earlier => ?_⟩
              rcases from_start.eq_or_lt with rfl | behind
              · exact name
              · exact before j behind earlier
          · rintro ⟨later, inside, before⟩
            rcases later.eq_or_lt with same | behind
            · exact Or.inl same.symm
            · exact Or.inr ⟨behind, inside, fun j after earlier => before j (by omega) earlier⟩

/-- **A reader accesses the records up to its bound and up to the first one without a
name.** -/
theorem mem_readIndices {count : ℕ} {named : ℕ → Bool} {i : ℕ} :
    i ∈ readIndices count named ↔ i < count ∧ ∀ j < i, named j = true := by
  rw [readIndices, mem_readLoop]
  simp

end Loops

/-! ## The four loops -/

/-- The counts that the modules read of the kernel, for CPUs of any number. -/
structure Counts where
  kcpustat : ℕ → KernelCpustat
  softirqs : ℕ → KstatSoftirqs
  ktimeGetNs : ℕ → UInt64

/-- The loop's body in `update_cpu_stats`: the name is printed with the CPU's number. -/
def cpuStatRecord (counts : Counts) (cpu : ℕ) (stat : Kmod.CpuStat) : Kmod.CpuStat :=
  { stat.update ⟨0, by decide⟩ (counts.kcpustat cpu) (counts.ktimeGetNs cpu) with
    cpuName := snprintf ("CPU".toList ++ decimal cpu) stat.cpuName }

/-- The loop's body in `update_softirq_stats`. -/
def softirqRecord (counts : Counts) (online : Finset ℕ) (cpu : ℕ) (stat : Kmod.SoftirqStat) :
    Kmod.SoftirqStat :=
  if cpu ∈ online then
    { stat.update ⟨0, by decide⟩ (counts.softirqs cpu) with
      cpuName := snprintf ("cpu".toList ++ decimal cpu) stat.cpuName }
  else stat.clearName

/-- `update_cpu_stats`: `for_each_online_cpu(cpu)`. -/
def updateCpuStats (counts : Counts) (online : Finset ℕ) (stats : ℕ → Kmod.CpuStat) :
    List ℕ × (ℕ → Kmod.CpuStat) :=
  writeEach (cpuStatRecord counts) (online.sort (· ≤ ·)) stats

/-- `update_softirq_stats`: `for (cpu = 0; cpu < MAX_CPU; ++cpu)`. -/
def updateSoftirqStats (counts : Counts) (online : Finset ℕ) (stats : ℕ → Kmod.SoftirqStat) :
    List ℕ × (ℕ → Kmod.SoftirqStat) :=
  writeEach (softirqRecord counts online) (List.range maxCpu) stats

/-- `stats[i].cpu_name[0] != '\0'` -/
def hasName (cpuName : Vector UInt8 16) : Bool := cpuName.toList.head? ≠ some 0

/-- The reads of `CpuStatMonitor::UpdateOnce`, for a number of CPUs online. -/
def cpuStatReads (statCount : ℕ) (stats : ℕ → Kmod.CpuStat) : List ℕ :=
  readIndices statCount fun i => hasName (stats i).cpuName

/-- The reads of `CpuSoftIrqMonitor::UpdateOnce`. -/
def softirqReads (stats : ℕ → Kmod.SoftirqStat) : List ℕ :=
  readIndices CpuSoftIrqMonitor.statCount fun i => hasName (stats i).cpuName

/-! ## Runs -/

/-- The CPUs that are online, and what stands at each index from the beginning of the two
arrays on, behind their ends as well.  The mappings are taken to show the arrays, as they do
where the frames of their pages follow one another (`cpuStatRecordAt_eq`). -/
structure Machine where
  online : Finset ℕ
  cpuStats : ℕ → Kmod.CpuStat
  softirqStats : ℕ → Kmod.SoftirqStat

/-- A CPU is plugged or unplugged, a module updates its array, a monitor reads one. -/
inductive Event where
  | setOnline (cpu : ℕ) (up : Bool)
  | updateCpuStats (counts : Counts)
  | updateSoftirqStats (counts : Counts)
  | readCpuStats
  | readSoftirqStats

namespace Machine

/-- The arrays before the first update: `memset`, and all names in the array of CPU times. -/
def load (online : Finset ℕ) (behindCpuStats : ℕ → Kmod.CpuStat)
    (behindSoftirqStats : ℕ → Kmod.SoftirqStat) : Machine where
  online := online
  cpuStats := fun i =>
    if i < maxCpu then
      { Kmod.CpuStat.zero with
        cpuName := snprintf ("CPU".toList ++ decimal i) Kmod.CpuStat.zero.cpuName }
    else behindCpuStats i
  softirqStats := fun i => if i < maxCpu then Kmod.SoftirqStat.zero else behindSoftirqStats i

/-- One step: the indices that are accessed, and the machine behind it. -/
def turn (m : Machine) : Event → List ℕ × Machine
  | .setOnline cpu up =>
      ([], { m with online := if up then insert cpu m.online else m.online.erase cpu })
  | .updateCpuStats counts =>
      let (indices, cpuStats) := ArrayBounds.updateCpuStats counts m.online m.cpuStats
      (indices, { m with cpuStats })
  | .updateSoftirqStats counts =>
      let (indices, softirqStats) :=
        ArrayBounds.updateSoftirqStats counts m.online m.softirqStats
      (indices, { m with softirqStats })
  | .readCpuStats => (cpuStatReads m.online.card m.cpuStats, m)
  | .readSoftirqStats => (softirqReads m.softirqStats, m)

def run (m : Machine) (events : List Event) : Machine :=
  events.foldl (fun m event => (m.turn event).2) m

/-- The step fits the arrays: an update finds no CPU online whose number is `MAX_CPU` or
more, and a read of the CPU times not more than `MAX_CPU` CPUs online. -/
def Fits (m : Machine) : Event → Prop
  | .updateCpuStats _ => ∀ cpu ∈ m.online, cpu < maxCpu
  | .readCpuStats => m.online.card ≤ maxCpu
  | _ => True

/-- The records of CPU times are all named. -/
def Named (m : Machine) : Prop := ∀ i < maxCpu, hasName (m.cpuStats i).cpuName = true

end Machine

/-! ## What one step accesses -/

/-- A printed name is a name, whatever the number. -/
theorem hasName_snprintf (c : Char) (t : Text) (buffer : Vector UInt8 16)
    (byte : UInt8.ofNat c.toNat ≠ 0) : hasName (snprintf (c :: t) buffer) = true := by
  have first : (snprintf (c :: t) buffer).toList.head? = some (UInt8.ofNat c.toNat) := by
    rw [List.head?_eq_getElem?, Vector.getElem?_toList]
    simp [snprintf, printed]
  rw [hasName, first]
  simpa using byte

theorem Machine.named_load (online : Finset ℕ) (behindCpuStats : ℕ → Kmod.CpuStat)
    (behindSoftirqStats : ℕ → Kmod.SoftirqStat) :
    (load online behindCpuStats behindSoftirqStats).Named := by
  intro i inside
  simp only [load, if_pos inside]
  exact hasName_snprintf _ _ _ (by decide)

theorem updateCpuStats_eq (counts : Counts) (online : Finset ℕ) (stats : ℕ → Kmod.CpuStat) :
    updateCpuStats counts online stats =
      (online.sort (· ≤ ·), fun i =>
        if i ∈ online then cpuStatRecord counts i (stats i) else stats i) := by
  rw [updateCpuStats, writeEach_eq _ (Finset.sort_nodup _ _)]
  simp only [Finset.mem_sort]

theorem updateSoftirqStats_eq (counts : Counts) (online : Finset ℕ)
    (stats : ℕ → Kmod.SoftirqStat) :
    updateSoftirqStats counts online stats =
      (List.range maxCpu, fun i =>
        if i < maxCpu then softirqRecord counts online i (stats i) else stats i) := by
  rw [updateSoftirqStats, writeEach_eq _ List.nodup_range]
  simp only [List.mem_range]

theorem Machine.Named.step {m : Machine} (named : m.Named) (event : Event) :
    (m.turn event).2.Named := by
  cases event with
  | updateCpuStats counts =>
      intro i inside
      simp only [turn, updateCpuStats_eq]
      split
      · exact hasName_snprintf _ _ _ (by decide)
      · exact named i inside
  | _ => exact named

theorem Machine.Named.run {m : Machine} (named : m.Named) (events : List Event) :
    (m.run events).Named := by
  induction events generalizing m with
  | nil => exact named
  | cons event events ih => exact ih (named.step event)

/-- **The accesses of one step stay inside exactly when the step fits.** -/
theorem Machine.Named.inside_turn_iff {m : Machine} (named : m.Named) (event : Event) :
    (∀ i ∈ (m.turn event).1, i < maxCpu) ↔ m.Fits event := by
  cases event with
  | setOnline cpu up => simp [turn, Fits]
  | updateCpuStats counts => simp [turn, updateCpuStats_eq, Fits]
  | updateSoftirqStats counts => simp [turn, updateSoftirqStats_eq, Fits]
  | readCpuStats =>
      simp only [turn, Fits, cpuStatReads, mem_readIndices]
      constructor
      · intro inside
        by_contra more
        -- the records up to the end are named, so that the one behind is read
        have behind := inside maxCpu ⟨not_le.mp more, named⟩
        exact lt_irrefl _ behind
      · rintro few i ⟨below, -⟩
        exact below.trans_le few
  | readSoftirqStats =>
      simp only [turn, Fits, softirqReads, mem_readIndices, iff_true]
      rintro i ⟨below, -⟩
      exact below

/-- **In every run all accesses stay inside the arrays exactly when every step fits.** -/
theorem accesses_inside_iff (online : Finset ℕ) (behindCpuStats : ℕ → Kmod.CpuStat)
    (behindSoftirqStats : ℕ → Kmod.SoftirqStat) (events : List Event) :
    (∀ before event after, events = before ++ event :: after →
      ∀ i ∈ (((Machine.load online behindCpuStats behindSoftirqStats).run before).turn event).1,
        i < maxCpu) ↔
    ∀ before event after, events = before ++ event :: after →
      ((Machine.load online behindCpuStats behindSoftirqStats).run before).Fits event := by
  have named : ∀ before,
      ((Machine.load online behindCpuStats behindSoftirqStats).run before).Named :=
    fun before => (Machine.named_load _ _ _).run before
  constructor
  · intro inside before event after split
    exact ((named before).inside_turn_iff event).mp (inside before event after split)
  · intro fits before event after split
    exact ((named before).inside_turn_iff event).mpr (fits before event after split)

/-! ## Machines with at most `MAX_CPU` CPUs -/

/-- The CPU of a number, the first one for a number that is too large. -/
def cpuOf (i : ℕ) : Cpu := if inside : i < 128 then ⟨i, inside⟩ else ⟨0, by decide⟩

theorem cpuOf_val (cpu : Cpu) : cpuOf cpu.val = cpu := dif_pos cpu.isLt

/-- The counts of the CPUs below `MAX_CPU`. -/
def widen (counts : KernelCounts) : Counts where
  kcpustat i := counts.kcpustat (cpuOf i)
  softirqs i := counts.softirqs (cpuOf i)
  ktimeGetNs i := counts.ktimeGetNs (cpuOf i)

/-- The step that the machine of `OnlineCpus` takes. -/
def widenEvent : OnlineCpus.Event → Event
  | .setOnline cpu up => .setOnline cpu up
  | .cpuStatTick counts => .updateCpuStats (widen counts)
  | .softirqTick counts => .updateSoftirqStats (widen counts)

/-- The machine has the CPUs and the arrays of one of `OnlineCpus`. -/
structure Shows (m : Machine) (narrow : OnlineCpus.Machine) : Prop where
  online : ∀ cpu : Cpu, cpu.val ∈ m.online ↔ narrow.online cpu
  numbered : ∀ i ∈ m.online, i < maxCpu
  cpuStats : ∀ cpu : Cpu, m.cpuStats cpu = narrow.cpuStats cpu
  softirqStats : ∀ cpu : Cpu, m.softirqStats cpu = narrow.softirqStats cpu

theorem cpuStatRecord_widen (counts : KernelCounts) (cpu : Cpu) (stat : Kmod.CpuStat) :
    cpuStatRecord (widen counts) cpu stat =
      stat.update cpu (counts.kcpustat cpu) (counts.ktimeGetNs cpu) := by
  simp only [cpuStatRecord, widen, cpuOf_val]
  rfl

theorem softirqRecord_widen (counts : KernelCounts) {m : Machine} {narrow : OnlineCpus.Machine}
    (shown : Shows m narrow) (cpu : Cpu) (stat : Kmod.SoftirqStat) :
    softirqRecord (widen counts) m.online cpu stat =
      if narrow.online cpu then stat.update cpu (counts.softirqs cpu)
      else stat.clearName := by
  simp only [softirqRecord, shown.online cpu, widen, cpuOf_val]
  rfl

/-- **With the numbers below `MAX_CPU` the machine is that of `OnlineCpus`.** -/
theorem Shows.step {m : Machine} {narrow : OnlineCpus.Machine} (shown : Shows m narrow)
    (event : OnlineCpus.Event) : Shows (m.turn (widenEvent event)).2 (narrow.step event) := by
  cases event with
  | setOnline cpu up =>
      refine ⟨fun other => ?_, fun i member => ?_, shown.cpuStats, shown.softirqStats⟩
      · simp only [widenEvent, Machine.turn, OnlineCpus.Machine.step]
        by_cases this : other = cpu
        · subst this
          cases up <;> simp
        · have differ : other.val ≠ cpu.val := fun value => this (Fin.ext value)
          cases up <;> simp [this, differ, shown.online other]
      · simp only [widenEvent, Machine.turn] at member
        cases up with
        | false => exact shown.numbered i (Finset.mem_of_mem_erase member)
        | true =>
            rcases Finset.mem_insert.mp member with rfl | before
            · exact cpu.isLt
            · exact shown.numbered i before
  | cpuStatTick counts =>
      refine ⟨shown.online, shown.numbered, fun cpu => ?_, shown.softirqStats⟩
      simp only [widenEvent, Machine.turn, updateCpuStats_eq, OnlineCpus.Machine.step,
        Kmod.updateCpuStats, shown.online cpu, cpuStatRecord_widen, shown.cpuStats cpu]
  | softirqTick counts =>
      refine ⟨shown.online, shown.numbered, shown.cpuStats, fun cpu => ?_⟩
      have inside : cpu.val < maxCpu := cpu.isLt
      simp only [widenEvent, Machine.turn, updateSoftirqStats_eq, OnlineCpus.Machine.step,
        Kmod.updateSoftirqStats, if_pos inside, softirqRecord_widen counts shown,
        shown.softirqStats cpu]
      rfl

/-- There every step fits. -/
theorem Shows.fits {m : Machine} {narrow : OnlineCpus.Machine} (shown : Shows m narrow)
    (event : Event) : m.Fits event := by
  have few : m.online.card ≤ maxCpu := by
    have inside : m.online ⊆ Finset.range maxCpu :=
      fun i member => Finset.mem_range.mpr (shown.numbered i member)
    simpa using Finset.card_le_card inside
  cases event with
  | updateCpuStats counts => exact shown.numbered
  | readCpuStats => exact few
  | _ => trivial

/-! ## A machine with more CPUs -/

/-- The counts of a kernel that has counted nothing. -/
def noCounts : Counts where
  kcpustat _ := ⟨0, 0, 0, 0, 0, 0, 0, 0, 0, 0⟩
  softirqs _ := ⟨0, 0, 0, 0, 0, 0, 0, 0, 0, 0⟩
  ktimeGetNs _ := 0

/-- A machine with 129 CPUs: the first update writes behind the array, and a monitor reads
behind it. -/
theorem accesses_outside_large :
    (¬∀ i ∈ ((Machine.load (Finset.range 129) (fun _ => .zero) fun _ => .zero).turn
      (.updateCpuStats noCounts)).1, i < maxCpu) ∧
    ¬∀ i ∈ ((Machine.load (Finset.range 129) (fun _ => .zero) fun _ => .zero).turn
      .readCpuStats).1, i < maxCpu := by
  rw [(Machine.named_load _ _ _).inside_turn_iff, (Machine.named_load _ _ _).inside_turn_iff]
  constructor
  · intro small
    exact absurd (small 128 (Finset.mem_range.mpr (by decide))) (lt_irrefl 128)
  · rw [Machine.Fits, Machine.load, Finset.card_range]
    decide

end LinuxMonitor.Monitor.ArrayBounds
