import LinuxMonitor.Kmod.Statistics
import LinuxMonitor.Monitor.MappedRecords

/-!
# The CPUs that are online

CPUs come and go while both kernel modules write their arrays, in which a record stands at
the place of its CPU's number, and the monitors read what is mapped of the arrays from the
front.  One of them stops at the first record without a name, the other after as many records
as there are CPUs online.

* `mapped_softirqStats`: the array of soft interrupts has the names and the counts of the
  CPUs that were online at its last update, and no other names.
* `mapped_cpuStats`: all records of the array of CPU times are named.
* `softirq_online_iff`, `cpuStat_online_iff`: **in every run the messages are those of the
  CPUs online exactly when these have the lowest numbers**, as long as the frames of the pages
  that are read follow one another.
-/

set_option autoImplicit false

namespace LinuxMonitor.Monitor.OnlineCpus

open Library Kmod

/-! ## The machine -/

/-- The machine: the CPUs that are online, the buffers of the two modules, and what
`update_softirq_stats` found when it was last called. -/
structure Machine where
  online : OnlineMask
  cpuStats : Cpu → Kmod.CpuStat
  softirqStats : Cpu → Kmod.SoftirqStat
  updated : KernelStatistics

/-- A CPU is plugged or unplugged, or the timer of a module expires. -/
inductive Event where
  | setOnline (cpu : Cpu) (up : Bool)
  | cpuStatTick (counts : KernelCounts)
  | softirqTick (counts : KernelCounts)

/-- The modules have been loaded. -/
def Machine.load (atCpuStat atSoftirq : KernelStatistics) : Machine where
  online := atSoftirq.online
  cpuStats := initCpuStats atCpuStat
  softirqStats := initSoftirqStats atSoftirq
  updated := atSoftirq

def Machine.step (m : Machine) : Event → Machine
  | .setOnline cpu up => { m with online := Function.update m.online cpu up }
  | .cpuStatTick counts => { m with cpuStats := updateCpuStats ⟨counts, m.online⟩ m.cpuStats }
  | .softirqTick counts =>
      { m with
        softirqStats := updateSoftirqStats ⟨counts, m.online⟩ m.softirqStats
        updated := ⟨counts, m.online⟩ }

def Machine.run (m : Machine) (events : List Event) : Machine := events.foldl Machine.step m

/-- The CPUs of a mask in ascending order. -/
def onlineCpus (online : OnlineMask) : List Cpu := (List.finRange 128).filter online

/-- No CPU is missing below one that is online. -/
def InitialSegment (online : OnlineMask) : Prop := ∀ a b : Cpu, a < b → online b → online a

/-! ## What the monitors map -/

/-- What `CpuSoftIrqMonitor::UpdateOnce` maps. -/
def Machine.softirqMapped (m : Machine) (v : Mapping .cpuSoftirqMonitor) :
    List CpuSoftIrqMonitor.SoftirqStat :=
  (List.finRange 128).map (softirqRecordAt v m.softirqStats)

/-- What `CpuStatMonitor::UpdateOnce` maps, and the number of CPUs `sysconf` gives it. -/
def Machine.cpuStatDevice (m : Machine) (v : Mapping .cpuStatMonitor) : CpuStatMonitor.Device where
  statCount := (onlineCpus m.online).length
  stats := (List.finRange 128).map (cpuStatRecordAt v m.cpuStats)

/-- The CPUs before the first one that is not online. -/
def leading (online : OnlineMask) : List Cpu := (List.finRange 128).takeWhile online

/-- The frames are right as far as the loop of `CpuSoftIrqMonitor::UpdateOnce` reads when the
CPUs of the mask have names: up to the first byte of the first record without a name. -/
def SoftirqFollow (v : Mapping .cpuSoftirqMonitor) (online : OnlineMask) : Prop :=
  Consecutive v.pageSize (min (56 * (leading online).length + 1) (56 * 128)) v.frames

/-- The same for the loop of `CpuStatMonitor::UpdateOnce`, which reads as many records as there
are CPUs online and asks for these. -/
structure CpuStatFollow (v : Mapping .cpuStatMonitor) (online : OnlineMask) : Prop where
  requested : 112 * (onlineCpus online).length ≤ v.vma.requestSize.toNat
  follow : Consecutive v.pageSize (112 * (onlineCpus online).length) v.frames

/-- The message of a CPU that has the given counts. -/
def softirqMessage (kernel : KernelStatistics) (cpu : Cpu) : Proto.SoftIrq where
  cpu := softirqName cpu
  hi := (kernel.softirqs cpu).hi
  timer := (kernel.softirqs cpu).timer
  netTx := (kernel.softirqs cpu).netTx
  netRx := (kernel.softirqs cpu).netRx
  block := (kernel.softirqs cpu).block
  irqPoll := (kernel.softirqs cpu).irqPoll
  tasklet := (kernel.softirqs cpu).tasklet
  sched := (kernel.softirqs cpu).sched
  hrtimer := (kernel.softirqs cpu).hrtimer
  rcu := (kernel.softirqs cpu).rcu

/-! ## Initial segments -/

theorem leading_eq_iff {online : OnlineMask} :
    leading online = onlineCpus online ↔ InitialSegment online := by
  rw [leading, onlineCpus, takeWhile_eq_filter_iff]
  constructor
  · intro pairwise a b below inUse
    have at' := List.pairwise_iff_getElem.mp pairwise a b (by simp) (by simp) below
    simpa [inUse] using at'
  · intro initial
    exact (List.pairwise_lt_finRange 128).imp fun below => initial _ _ below

/-- The CPUs with the lowest numbers are those online exactly when these form an initial
segment. -/
theorem take_perm_onlineCpus_iff {online : OnlineMask} :
    ((List.finRange 128).take (onlineCpus online).length).Perm (onlineCpus online) ↔
      InitialSegment online := by
  constructor
  · intro perm a b below inUse
    have member : b ∈ (List.finRange 128).take (onlineCpus online).length :=
      perm.mem_iff.mpr (List.mem_filter.mpr ⟨List.mem_finRange b, inUse⟩)
    obtain ⟨i, inside, found⟩ := List.mem_take_iff_getElem.mp member
    rw [List.getElem_finRange] at found
    subst found
    have earlier : a ∈ (List.finRange 128).take (onlineCpus online).length := by
      refine List.mem_take_iff_getElem.mpr ⟨a, lt_trans below inside, ?_⟩
      rw [List.getElem_finRange]
      rfl
    exact (List.mem_filter.mp (perm.mem_iff.mp earlier)).2
  · intro initial
    have whole := leading_eq_iff.mpr initial
    have prefixed := List.takeWhile_prefix (l := List.finRange 128) online
    rw [← leading, whole, List.prefix_iff_eq_take] at prefixed
    rw [← prefixed]

/-- The leading CPUs have the numbers below their count. -/
theorem val_lt_of_mem_leading {online : OnlineMask} {cpu : Cpu} (member : cpu ∈ leading online) :
    cpu.val < (leading online).length := by
  obtain ⟨i, inside, rfl⟩ := List.mem_iff_getElem.mp member
  have within : i < (List.finRange 128).length :=
    inside.trans_le (List.takeWhile_prefix online).length_le
  have own : (leading online)[i] = (List.finRange 128)[i] :=
    (List.takeWhile_prefix online).getElem inside
  rw [own, List.getElem_finRange]
  exact inside

/-- The first CPU behind them has their count as its number. -/
theorem val_eq_of_head?_dropWhile {online : OnlineMask} {cpu : Cpu}
    (found : ((List.finRange 128).dropWhile online).head? = some cpu) :
    cpu.val = (leading online).length ∧ online cpu = false := by
  have split : leading online ++ (List.finRange 128).dropWhile online = List.finRange 128 :=
    List.takeWhile_append_dropWhile
  have here : (List.finRange 128)[(leading online).length]? = some cpu := by
    rw [← split, List.getElem?_append_right le_rfl, Nat.sub_self, ← List.head?_eq_getElem?, found]
  obtain ⟨inside, own⟩ := List.getElem?_eq_some_iff.mp here
  rw [List.getElem_finRange] at own
  refine ⟨by rw [← own]; rfl, ?_⟩
  have stopped := List.head?_dropWhile_not online (List.finRange 128)
  rwa [found] at stopped

/-! ## What is reached -/

theorem SoftirqFollow.reaches {v : Mapping .cpuSoftirqMonitor} {online : OnlineMask}
    (follow : SoftirqFollow v online) :
    v.Reaches (min (56 * (leading online).length + 1) (56 * 128)) where
  mapped := Nat.min_le_right _ _
  inside := Nat.min_le_right _ _
  follow := follow

/-- The records of the leading CPUs are read whole. -/
theorem SoftirqFollow.whole {v : Mapping .cpuSoftirqMonitor} {online : OnlineMask}
    (follow : SoftirqFollow v online) {cpu : Cpu} (member : cpu ∈ leading online) :
    v.Reaches (56 * cpu + 56) := by
  have early := val_lt_of_mem_leading member
  have number := cpu.isLt
  exact follow.reaches.mono (by omega)

/-- Of the next record the first byte is read. -/
theorem SoftirqFollow.first {v : Mapping .cpuSoftirqMonitor} {online : OnlineMask}
    (follow : SoftirqFollow v online) {cpu : Cpu}
    (found : ((List.finRange 128).dropWhile online).head? = some cpu) :
    v.Reaches (56 * cpu + 1) := by
  have next := (val_eq_of_head?_dropWhile found).1
  have number := cpu.isLt
  exact follow.reaches.mono (by omega)

theorem CpuStatFollow.reaches {v : Mapping .cpuStatMonitor} {online : OnlineMask}
    (follow : CpuStatFollow v online) : v.Reaches (112 * (onlineCpus online).length) := by
  have few : (onlineCpus online).length ≤ 128 :=
    (List.length_filter_le _ _).trans List.length_finRange.le
  have size : Kmod.Device.cpuStatMonitor.size.toNat = 112 * 128 := rfl
  refine ⟨?_, by omega, follow.follow⟩
  rw [Kmod.Device.mapSize]
  split
  · exact follow.requested
  · omega

/-! ## What the modules keep -/

/-- The records of CPU times are all named, and the records of soft interrupts are as
`update_softirq_stats` has left them. -/
structure Machine.Written (m : Machine) : Prop where
  named : ∀ cpu, charText (m.cpuStats cpu).cpuName = cpuStatName cpu
  softirqs : ∃ before, m.softirqStats = updateSoftirqStats m.updated before

theorem charText_updateCpuStats {kernel : KernelStatistics} {stats : Cpu → Kmod.CpuStat}
    (named : ∀ cpu, charText (stats cpu).cpuName = cpuStatName cpu) (cpu : Cpu) :
    charText (updateCpuStats kernel stats cpu).cpuName = cpuStatName cpu := by
  unfold updateCpuStats
  split
  · exact charText_cpuStatName cpu _
  · exact named cpu

theorem Machine.written_load (atCpuStat atSoftirq : KernelStatistics) :
    (Machine.load atCpuStat atSoftirq).Written where
  named := charText_updateCpuStats fun cpu => charText_cpuStatName cpu _
  softirqs := ⟨_, rfl⟩

theorem Machine.Written.step {m : Machine} (written : m.Written) (event : Event) :
    (m.step event).Written := by
  cases event with
  | setOnline cpu up => exact ⟨written.named, written.softirqs⟩
  | cpuStatTick counts => exact ⟨charText_updateCpuStats written.named, written.softirqs⟩
  | softirqTick counts => exact ⟨written.named, _, rfl⟩

theorem Machine.Written.run {m : Machine} (written : m.Written) (events : List Event) :
    (m.run events).Written := by
  induction events generalizing m with
  | nil => exact written
  | cons event events ih => exact ih (written.step event)

/-! ## Soft interrupts -/

/-- A record is empty exactly when its CPU was not online. -/
theorem cpuName_updateSoftirqStats (kernel : KernelStatistics) (before : Cpu → Kmod.SoftirqStat)
    (cpu : Cpu) :
    (softirqRecord (updateSoftirqStats kernel before cpu)).cpuName ≠ [] ↔ kernel.online cpu := by
  unfold updateSoftirqStats softirqRecord
  split
  · next online =>
      simp only [Kmod.SoftirqStat.update, charText_softirqName, online, iff_true]
      exact List.append_ne_nil_of_left_ne_nil (by decide) _
  · next offline => simp [charText_set_zero, offline]

theorem message_updateSoftirqStats {kernel : KernelStatistics} {cpu : Cpu}
    (online : kernel.online cpu) (before : Cpu → Kmod.SoftirqStat) :
    CpuSoftIrqMonitor.message (softirqRecord (updateSoftirqStats kernel before cpu)) =
      softirqMessage kernel cpu := by
  simp only [updateSoftirqStats, if_pos online, softirqRecord, Kmod.SoftirqStat.update,
    CpuSoftIrqMonitor.message, softirqMessage, charText_softirqName]

/-- **The loop stops at the first CPU that was not online.** -/
theorem Machine.Written.updateOnce_softirq {m : Machine} (written : m.Written)
    {v : Mapping .cpuSoftirqMonitor} (follow : SoftirqFollow v m.updated.online) :
    CpuSoftIrqMonitor.updateOnce (some (m.softirqMapped v)) =
      (leading m.updated.online).map (softirqMessage m.updated) := by
  obtain ⟨before, stats⟩ := written.softirqs
  have all : (m.softirqMapped v).take CpuSoftIrqMonitor.statCount = m.softirqMapped v :=
    List.take_of_length_le (by simp [Machine.softirqMapped, CpuSoftIrqMonitor.statCount])
  have own : ∀ cpu ∈ leading m.updated.online, softirqRecordAt v m.softirqStats cpu =
      softirqRecord (updateSoftirqStats m.updated before cpu) := by
    intro cpu member
    rw [softirqRecordAt_eq _ (follow.whole member), stats]
  have named : (List.finRange 128).takeWhile
      ((fun stat : CpuSoftIrqMonitor.SoftirqStat => decide (stat.cpuName ≠ [])) ∘
        softirqRecordAt v m.softirqStats) = leading m.updated.online := by
    apply takeWhile_congr_of_first
    · intro cpu member
      rw [Function.comp_apply, own cpu member, decide_eq_true_iff, cpuName_updateSoftirqStats]
      exact List.mem_takeWhile_imp member
    · intro cpu found
      have offline := (val_eq_of_head?_dropWhile found).2
      have empty : (softirqRecord (m.softirqStats cpu)).cpuName = [] := by
        have unnamed := cpuName_updateSoftirqStats m.updated before cpu
        rw [offline] at unnamed
        rw [stats]
        exact not_not.mp fun named => by cases unnamed.mp named
      rw [Function.comp_apply, cpuName_softirqRecordAt (follow.first found) empty]
      rfl
  rw [CpuSoftIrqMonitor.updateOnce, CpuSoftIrqMonitor.visited, all, Machine.softirqMapped,
    List.takeWhile_map, List.map_map, named]
  apply List.map_congr_left
  intro cpu member
  rw [Function.comp_apply, own cpu member]
  exact message_updateSoftirqStats (List.mem_takeWhile_imp member) before

/-- **The messages about soft interrupts.**  In every run and at every time, and where the
frames of the pages that are read follow one another, the messages are those of the CPUs that
were online at the last update, in ascending order and with their counts, exactly when no CPU
was missing below one that was online. -/
theorem softirq_online_iff (atCpuStat atSoftirq : KernelStatistics) (events : List Event)
    (v : Mapping .cpuSoftirqMonitor)
    (follow : SoftirqFollow v ((Machine.load atCpuStat atSoftirq).run events).updated.online) :
    CpuSoftIrqMonitor.updateOnce
          (some (((Machine.load atCpuStat atSoftirq).run events).softirqMapped v)) =
        (onlineCpus ((Machine.load atCpuStat atSoftirq).run events).updated.online).map
          (softirqMessage ((Machine.load atCpuStat atSoftirq).run events).updated) ↔
      InitialSegment ((Machine.load atCpuStat atSoftirq).run events).updated.online := by
  have written := (Machine.written_load atCpuStat atSoftirq).run events
  have injective : Function.Injective
      (softirqMessage ((Machine.load atCpuStat atSoftirq).run events).updated) := by
    intro a b same
    exact softirqName_injective (congrArg Proto.SoftIrq.cpu same)
  rw [written.updateOnce_softirq follow, (List.map_injective_iff.mpr injective).eq_iff,
    leading_eq_iff]

/-! ## CPU times -/

/-- **The loop visits as many records as there are CPUs online.** -/
theorem Machine.Written.updateOnce_cpuStat {m : Machine} (written : m.Written)
    {v : Mapping .cpuStatMonitor} (follow : CpuStatFollow v m.online) (float : UInt64 → ℚ)
    (cpuStatMap : CpuStatMonitor.CpuStatMap) :
    (CpuStatMonitor.updateOnce float (some (m.cpuStatDevice v)) cpuStatMap).1.map
        Proto.CpuStat.cpuName =
      ((List.finRange 128).take (onlineCpus m.online).length).map cpuStatName := by
  have own : ∀ cpu ∈ (List.finRange 128).take (onlineCpus m.online).length,
      (cpuStatRecordAt v m.cpuStats cpu).cpuName = cpuStatName cpu := by
    intro cpu member
    obtain ⟨i, inside, found⟩ := List.mem_take_iff_getElem.mp member
    rw [List.getElem_finRange] at found
    have early : cpu.val < (onlineCpus m.online).length := by
      rw [← found]
      exact inside.trans_le (Nat.min_le_left _ _)
    rw [cpuStatRecordAt_eq _ (follow.reaches.mono (by omega))]
    exact written.named cpu
  have named : ∀ stat ∈ ((List.finRange 128).take (onlineCpus m.online).length).map
      (cpuStatRecordAt v m.cpuStats), decide (stat.cpuName ≠ []) = true := by
    intro stat member
    obtain ⟨cpu, inside, rfl⟩ := List.mem_map.mp member
    apply decide_eq_true
    rw [own cpu inside]
    exact List.append_ne_nil_of_left_ne_nil (by decide) _
  rw [CpuStatMonitor.updateOnce_eq, List.map_map]
  apply (map_sweep (CpuStatMonitor.cpuName_entry float) _ _).trans
  rw [CpuStatMonitor.callSamples, Option.map_some, Option.getD_some, CpuStatMonitor.Device.samples,
    Machine.cpuStatDevice, ← List.map_take, List.takeWhile_eq_self_iff.mpr named, List.map_map,
    List.map_map]
  exact List.map_congr_left own

/-- **The entries about CPU times.**  In every run and at every time, and where the frames of
the pages that are read follow one another, the entries are one for each CPU online exactly when
no CPU is missing below one that is online. -/
theorem cpuStat_online_iff (float : UInt64 → ℚ) (atCpuStat atSoftirq : KernelStatistics)
    (events : List Event) (v : Mapping .cpuStatMonitor)
    (follow : CpuStatFollow v ((Machine.load atCpuStat atSoftirq).run events).online)
    (cpuStatMap : CpuStatMonitor.CpuStatMap) :
    ((CpuStatMonitor.updateOnce float
          (some (((Machine.load atCpuStat atSoftirq).run events).cpuStatDevice v))
          cpuStatMap).1.map Proto.CpuStat.cpuName).Perm
        ((onlineCpus ((Machine.load atCpuStat atSoftirq).run events).online).map cpuStatName) ↔
      InitialSegment ((Machine.load atCpuStat atSoftirq).run events).online := by
  have written := (Machine.written_load atCpuStat atSoftirq).run events
  rw [written.updateOnce_cpuStat follow, List.map_perm_map_iff cpuStatName_injective,
    take_perm_onlineCpus_iff]

/-! ## A CPU that is unplugged -/

/-- No time and no soft interrupt has been counted. -/
def noCounts : KernelCounts where
  kcpustat := fun _ => ⟨0, 0, 0, 0, 0, 0, 0, 0, 0, 0⟩
  softirqs := fun _ => ⟨0, 0, 0, 0, 0, 0, 0, 0, 0, 0⟩
  ktimeGetNs := fun _ => 0
  avenrun := fun _ => 0

/-- The pages of the buffers in frames that go down, and what the monitors ask for: two pages
for 128 records of soft interrupts, and one for three records of CPU times. -/
def softirqPages : Mapping .cpuSoftirqMonitor where
  pageSize := 4096
  positive := by decide
  frames page := 9 - page
  distinct := by
    have pages : pageCount 4096 Kmod.Device.cpuSoftirqMonitor.size.toNat = 2 := by decide
    rw [pages]
    intro a early b early' same
    simp only [Set.mem_ofPred_eq] at early early' same
    omega
  elsewhere _ _ := 1
  previous _ := 1
  ret := 0
  vma := ⟨0x10000, 0x12000⟩
  table := consecutive 4096 9 7168
  mapped := rfl

def cpuStatPages : Mapping .cpuStatMonitor where
  pageSize := 4096
  positive := by decide
  frames page := 9 - page
  distinct := by
    have pages : pageCount 4096 Kmod.Device.cpuStatMonitor.size.toNat = 4 := by decide
    rw [pages]
    intro a early b early' same
    simp only [Set.mem_ofPred_eq] at early early' same
    omega
  elsewhere _ _ := 1
  previous _ := 1
  ret := 0
  vma := ⟨0x10000, 0x11000⟩
  table := consecutive 4096 9 4096
  mapped := rfl

/-- The first three CPUs are online. -/
def threeCpus : KernelStatistics := ⟨noCounts, fun cpu => cpu.val < 3⟩

theorem initialSegment_threeCpus : InitialSegment threeCpus.online := by
  intro a b below inUse
  exact decide_eq_true (lt_trans below (of_decide_eq_true inUse))

/-- The three CPUs have their messages, though the second page is not the buffer's. -/
theorem softirq_threeCpus :
    let m := (Machine.load threeCpus threeCpus).run [.softirqTick noCounts]
    CpuSoftIrqMonitor.updateOnce (some (m.softirqMapped softirqPages)) =
      (onlineCpus m.updated.online).map (softirqMessage m.updated) := by
  have follow : SoftirqFollow softirqPages
      ((Machine.load threeCpus threeCpus).run [.softirqTick noCounts]).updated.online :=
    consecutive_of_le (by decide +kernel) _
  exact (softirq_online_iff threeCpus threeCpus [.softirqTick noCounts] softirqPages follow).mpr
    initialSegment_threeCpus

theorem cpuStat_threeCpus :
    let m := (Machine.load threeCpus threeCpus).run [.cpuStatTick noCounts]
    ((CpuStatMonitor.updateOnce CpuStatMonitor.unrounded (some (m.cpuStatDevice cpuStatPages))
      ∅).1.map Proto.CpuStat.cpuName).Perm ((onlineCpus m.online).map cpuStatName) := by
  have follow : CpuStatFollow cpuStatPages
      ((Machine.load threeCpus threeCpus).run [.cpuStatTick noCounts]).online :=
    ⟨by decide +kernel, consecutive_of_le (by decide +kernel) _⟩
  exact (cpuStat_online_iff _ threeCpus threeCpus [.cpuStatTick noCounts] cpuStatPages follow
    ∅).mpr initialSegment_threeCpus

/-- Three CPUs are online when the modules are loaded; then the second is unplugged, and the
timers expire. -/
def unplugged : Machine :=
  (Machine.load threeCpus threeCpus).run
    [.setOnline ⟨1, by decide⟩ false, .cpuStatTick noCounts, .softirqTick noCounts]

/-- The third CPU has no message. -/
theorem softirq_unplugged :
    CpuSoftIrqMonitor.updateOnce (some (unplugged.softirqMapped softirqPages)) ≠
      (onlineCpus unplugged.updated.online).map (softirqMessage unplugged.updated) := by
  have written : unplugged.Written := (Machine.written_load _ _).run _
  have follow : SoftirqFollow softirqPages unplugged.updated.online :=
    consecutive_of_le (by decide +kernel) _
  rw [written.updateOnce_softirq follow]
  intro same
  have lengths := congrArg List.length same
  rw [List.length_map, List.length_map] at lengths
  revert lengths
  decide +kernel

/-- There is an entry for the second CPU and none for the third. -/
theorem cpuStat_unplugged :
    ¬ ((CpuStatMonitor.updateOnce CpuStatMonitor.unrounded
      (some (unplugged.cpuStatDevice cpuStatPages)) ∅).1.map Proto.CpuStat.cpuName).Perm
        ((onlineCpus unplugged.online).map cpuStatName) := by
  have written : unplugged.Written := (Machine.written_load _ _).run _
  have follow : CpuStatFollow cpuStatPages unplugged.online :=
    ⟨by decide +kernel, consecutive_of_le (by decide +kernel) _⟩
  rw [written.updateOnce_cpuStat follow, List.map_perm_map_iff cpuStatName_injective]
  decide +kernel

end LinuxMonitor.Monitor.OnlineCpus
