import Mathlib.Data.List.ProdSigma
import LinuxMonitor.Library.Passes
import LinuxMonitor.Monitor.OnlineCpus

/-!
# Reading the soft interrupt counts while they are updated

`CpuSoftIrqMonitor::UpdateOnce` loads ten counts of each record up to the first one without a
name, while the timer of `cpu_softirq_monitor` stores into the records one count after another.
As long as the same CPUs are online every update writes the same names again.  Each load goes
through the mapping, which shows the buffer as far as the frames of its pages follow one another.

* `after_stores`: what a count holds after a number of updates.
* `meets_updateOnce`: what one call guarantees.
* `counts_reported`: **every message has the counts of its own CPU, each as the kernel had it at
  some update, and no call reports an older update of a count than the calls before it.**
-/

set_option autoImplicit false

namespace LinuxMonitor.Monitor.SoftIrqSnapshot

open Library Kmod OnlineCpus

/-! ## The buffer -/

/-- The counts of `struct softirq_stat`. -/
inductive Count where
  | hi
  | timer
  | netTx
  | netRx
  | block
  | irqPoll
  | tasklet
  | sched
  | hrtimer
  | rcu
deriving DecidableEq, Repr

/-- The counts in the order in which they are stored and loaded. -/
def counts : List Count :=
  [.hi, .timer, .netTx, .netRx, .block, .irqPoll, .tasklet, .sched, .hrtimer, .rcu]

/-- `(__u32)kstat_softirqs_cpu(…_SOFTIRQ, cpu)` -/
def Count.of (kstat : KstatSoftirqs) : Count → UInt32
  | .hi => kstat.hi
  | .timer => kstat.timer
  | .netTx => kstat.netTx
  | .netRx => kstat.netRx
  | .block => kstat.block
  | .irqPoll => kstat.irqPoll
  | .tasklet => kstat.tasklet
  | .sched => kstat.sched
  | .hrtimer => kstat.hrtimer
  | .rcu => kstat.rcu

/-- A count in the record of a CPU. -/
abbrev Cell : Type := Cpu × Count

/-- The stores of `update_softirq_stats` in their order. -/
def stores (kernel : ℕ → KernelStatistics) (k : ℕ) : List (Cell × UInt32) :=
  (onlineCpus (kernel k).online ×ˢ counts).map fun cell =>
    (cell, cell.2.of ((kernel k).softirqs cell.1))

/-- The buffer: its counts, and how far the module has come with its updates. -/
abbrev Buffer : Type := Passes.Shared Cell UInt32

/-- The buffer when `cpu_softirq_monitor_init` has cleared and updated it. -/
def loaded (kernel : ℕ → KernelStatistics) : Buffer :=
  ⟨Passes.after (stores kernel) (fun _ => 0) 1, 1, []⟩

theorem map_fst_stores (kernel : ℕ → KernelStatistics) (k : ℕ) :
    (stores kernel k).map Prod.fst = onlineCpus (kernel k).online ×ˢ counts := by
  rw [stores, List.map_map]
  exact List.map_id _

theorem unrepeated_stores (kernel : ℕ → KernelStatistics) (k : ℕ) :
    ((stores kernel k).map Prod.fst).Nodup := by
  rw [map_fst_stores]
  exact ((List.nodup_finRange 128).filter _).product (by decide)

theorem mem_counts (count : Count) : count ∈ counts := by
  cases count <;> decide

/-- **An update stores every count of a CPU that is online.** -/
theorem after_stores (kernel : ℕ → KernelStatistics) (k : ℕ) {cpu : Cpu}
    (online : (kernel k).online cpu = true) (count : Count) :
    Passes.after (stores kernel) (fun _ => 0) (k + 1) (cpu, count) =
      count.of ((kernel k).softirqs cpu) := by
  have stored : ((cpu, count), count.of ((kernel k).softirqs cpu)) ∈ stores kernel k := by
    refine List.mem_map.mpr ⟨(cpu, count), List.mem_product.mpr ⟨?_, mem_counts count⟩, rfl⟩
    exact List.mem_filter.mpr ⟨List.mem_finRange cpu, online⟩
  exact Passes.writeAll_of_mem (unrepeated_stores kernel k) stored

/-- The records of the buffer when the CPUs of the mask have been online since it was cleared. -/
def records (online : OnlineMask) (s : Buffer) (cpu : Cpu) : Kmod.SoftirqStat where
  cpuName :=
    if online cpu then snprintf (softirqName cpu) (Vector.replicate 16 0)
    else Vector.replicate 16 0
  hi := s.cells (cpu, .hi)
  timer := s.cells (cpu, .timer)
  netTx := s.cells (cpu, .netTx)
  netRx := s.cells (cpu, .netRx)
  block := s.cells (cpu, .block)
  irqPoll := s.cells (cpu, .irqPoll)
  tasklet := s.cells (cpu, .tasklet)
  sched := s.cells (cpu, .sched)
  hrtimer := s.cells (cpu, .hrtimer)
  rcu := s.cells (cpu, .rcu)

/-! ## The monitor -/

/-- A record with the given counts. -/
def record (cpuName : Text) (count : Count → UInt32) : CpuSoftIrqMonitor.SoftirqStat where
  cpuName := cpuName
  hi := count .hi
  timer := count .timer
  netTx := count .netTx
  netRx := count .netRx
  block := count .block
  irqPoll := count .irqPoll
  tasklet := count .tasklet
  sched := count .sched
  hrtimer := count .hrtimer
  rcu := count .rcu

def Count.inRecord (stat : CpuSoftIrqMonitor.SoftirqStat) : Count → UInt32
  | .hi => stat.hi
  | .timer => stat.timer
  | .netTx => stat.netTx
  | .netRx => stat.netRx
  | .block => stat.block
  | .irqPoll => stat.irqPoll
  | .tasklet => stat.tasklet
  | .sched => stat.sched
  | .hrtimer => stat.hrtimer
  | .rcu => stat.rcu

/-- The message of a CPU with the given counts. -/
def message (cpu : Cpu) (count : Count → UInt32) : Proto.SoftIrq :=
  CpuSoftIrqMonitor.message (record (softirqName cpu) count)

section Monitor

variable (v : Mapping .cpuSoftirqMonitor) (online : OnlineMask)

/-- The record of a CPU in the mapping at the moment of a load. -/
def look (cpu : Cpu) (s : Buffer) : CpuSoftIrqMonitor.SoftirqStat :=
  softirqRecordAt v (records online s) cpu

/-- The loop over the records of the given CPUs; it ends at a record without a name.  The name is
loaded for the test and again for the message. -/
def loop : List Cpu → Loads Buffer Unit (List Proto.SoftIrq)
  | [] => pure []
  | cpu :: cpus => do
      let tested ← .read (fun s => (look v online cpu s).cpuName) ()
      if tested = [] then pure []
      else do
        let cpuName ← .read (fun s => (look v online cpu s).cpuName) ()
        let words ← .readParts (look v online cpu) () (counts.map fun count stat =>
          count.inRecord stat)
        let messages ← loop cpus
        return CpuSoftIrqMonitor.message (record cpuName (Passes.copied 0 counts words)) :: messages

/-- `CpuSoftIrqMonitor::UpdateOnce`, when the device opens and maps or does not. -/
def updateOnce (mapped : Bool) : Loads Buffer Unit (List Proto.SoftIrq) :=
  if mapped then loop v online (List.finRange 128) else pure []

theorem softirqName_ne_nil (cpu : Cpu) : softirqName cpu ≠ [] := nofun

theorem record_inRecord (stat : CpuSoftIrqMonitor.SoftirqStat) :
    record stat.cpuName (Passes.copied 0 counts (counts.map fun count => count.inRecord stat)) =
      stat := rfl

theorem eval_loop (cpus : List Cpu) (s : Buffer) :
    (loop v online cpus).eval s =
      ((cpus.map fun cpu => look v online cpu s).takeWhile fun stat => stat.cpuName ≠ []).map
        CpuSoftIrqMonitor.message := by
  induction cpus with
  | nil => rfl
  | cons cpu cpus ih =>
      rw [loop, List.map_cons, List.takeWhile_cons, Loads.eval_bind, Loads.eval_read]
      by_cases empty : (look v online cpu s).cpuName = []
      · simp [empty]
      · rw [if_neg empty, if_pos (decide_eq_true empty), Loads.eval_bind, Loads.eval_read,
          Loads.eval_bind, Loads.eval_readParts, Loads.eval_bind, ih, Loads.eval_pure,
          List.map_map, List.map_cons]
        exact congrArg (CpuSoftIrqMonitor.message · :: _) (record_inRecord _)

/-- When nothing is stored meanwhile, the program does what `updateOnce` does. -/
theorem eval_updateOnce (s : Buffer) :
    (updateOnce v online true).eval s = CpuSoftIrqMonitor.updateOnce
      (some ((List.finRange 128).map fun cpu => look v online cpu s)) := by
  have all : ((List.finRange 128).map fun cpu => look v online cpu s).take
      CpuSoftIrqMonitor.statCount = (List.finRange 128).map fun cpu => look v online cpu s :=
    List.take_of_length_le (by simp [CpuSoftIrqMonitor.statCount])
  rw [updateOnce, if_pos rfl, eval_loop, CpuSoftIrqMonitor.updateOnce, CpuSoftIrqMonitor.visited,
    all]

variable {v online}

/-- The record of a CPU that is shown has the module's name and counts. -/
theorem look_of_mem_leading (follow : SoftirqFollow v online) {cpu : Cpu}
    (member : cpu ∈ leading online) (s : Buffer) :
    look v online cpu s = record (softirqName cpu) fun count => s.cells (cpu, count) := by
  rw [look, softirqRecordAt_eq _ (follow.whole member)]
  simp only [softirqRecord, records, if_pos (List.mem_takeWhile_imp member),
    charText_softirqName]
  rfl

/-- The record behind them has no name. -/
theorem look_of_first (follow : SoftirqFollow v online) {cpu : Cpu}
    (found : ((List.finRange 128).dropWhile online).head? = some cpu) (s : Buffer) :
    (look v online cpu s).cpuName = [] := by
  have offline := (val_eq_of_head?_dropWhile found).2
  apply cpuName_softirqRecordAt (follow.first found)
  simp only [softirqRecord, records, offline]
  rfl

end Monitor

/-! ## One call -/

/-- What a call guarantees when it is made between the two states. -/
def Round (kernel : ℕ → KernelStatistics) (online : OnlineMask) (mapped : Bool) (s s' : Buffer)
    (report : List Proto.SoftIrq) : Prop :=
  Passes.Later (stores kernel) (fun _ => 0) s s' ∧
    ∃ count : Cpu → Count → UInt32,
      report = (if mapped then (leading online).map fun cpu => message cpu (count cpu) else []) ∧
        ∀ cpu c, Passes.Seen (stores kernel) (fun _ => 0) s s' (cpu, c) (count cpu c)

section Runs

variable {kernel : ℕ → KernelStatistics} {online : OnlineMask} {v : Mapping .cpuSoftirqMonitor}

theorem meets_loop {cpus : List Cpu} (distinct : cpus.Nodup)
    (shown : ∀ cpu ∈ cpus.takeWhile online, ∀ s, look v online cpu s =
      record (softirqName cpu) fun count => s.cells (cpu, count))
    (stop : ∀ cpu, (cpus.dropWhile online).head? = some cpu →
      ∀ s, (look v online cpu s).cpuName = [])
    {s : Buffer} (kept : Passes.Kept (stores kernel) (fun _ => 0) s) :
    Loads.Meets (fun _ => Passes.Write (stores kernel))
      (fun _ s' report => Passes.Later (stores kernel) (fun _ => 0) s s' ∧
        ∃ count : Cpu → Count → UInt32,
          report = (cpus.takeWhile online).map (fun cpu => message cpu (count cpu)) ∧
            ∀ cpu c, Passes.Seen (stores kernel) (fun _ => 0) s s' (cpu, c) (count cpu c))
      (loop v online cpus) () s := by
  have ended : ∀ {s : Buffer}, Passes.Kept (stores kernel) (fun _ => 0) s →
      Loads.Meets (fun _ => Passes.Write (stores kernel))
        (fun _ s' report => Passes.Later (stores kernel) (fun _ => 0) s s' ∧
          ∃ count : Cpu → Count → UInt32, report = [] ∧
            ∀ cpu c, Passes.Seen (stores kernel) (fun _ => 0) s s' (cpu, c) (count cpu c))
        (pure [] : Loads Buffer Unit (List Proto.SoftIrq)) () s := by
    intro s kept s' writes
    have later := Passes.version_mono (unrepeated_stores kernel) kept writes
    exact ⟨later, fun cpu c => s'.cells (cpu, c), rfl,
      fun cpu c => ⟨_, later.2 _, Nat.le_refl _, later.1.held _⟩⟩
  induction cpus generalizing s with
  | nil => exact ended kept
  | cons cpu cpus ih =>
      rw [List.nodup_cons] at distinct
      rw [loop]
      cases up : online cpu with
      | false =>
          have free : ¬ online cpu = true := by simp [up]
          rw [List.dropWhile_cons_of_neg free] at stop
          rw [List.takeWhile_cons_of_neg free]
          refine Loads.Meets.read_bind fun s₁ writes => ?_
          rw [stop cpu rfl s₁, if_pos rfl]
          exact (ended kept).writes writes
      | true =>
          rw [List.takeWhile_cons_of_pos up] at shown ⊢
          rw [List.dropWhile_cons_of_pos up] at stop
          have here := shown cpu List.mem_cons_self
          have name : ∀ s, (look v online cpu s).cpuName = softirqName cpu :=
            fun s => congrArg CpuSoftIrqMonitor.SoftirqStat.cpuName (here s)
          have cells : Loads.readParts (W := Unit) (look v online cpu) ()
              (counts.map fun count stat => count.inRecord stat) =
              Passes.readCells (counts.map fun count => (cpu, count)) := by
            rw [Passes.readCells, List.map_map]
            refine Loads.readParts_congr () fun count _ s => ?_
            rw [here s]
            cases count <;> rfl
          -- the name is the same at both loads
          refine Loads.Meets.read_bind fun s₁ writes₁ => ?_
          rw [name, if_neg (softirqName_ne_nil cpu)]
          refine Loads.Meets.read_bind fun s₂ writes₂ => ?_
          rw [name, cells]
          have named := Passes.version_mono (unrepeated_stores kernel) kept (writes₁.trans writes₂)
          refine Loads.Meets.bind ?_
          refine (Passes.meets_readCells (unrepeated_stores kernel) _ named.1).mono ?_
          intro _ s₃ words own
          refine Loads.Meets.bind ((ih distinct.2
            (fun other member => shown other (List.mem_cons_of_mem _ member)) stop own.1.1).mono ?_)
          rintro _ s₄ messages ⟨later, count, rfl, seen⟩ s₅ writes
          have last := Passes.version_mono (unrepeated_stores kernel) later.1 writes
          have whole := ((Passes.Later.trans named own.1).trans later).trans last
          refine ⟨whole, Function.update count cpu (Passes.copied 0 counts words), ?_, ?_⟩
          · have others : (cpus.takeWhile online).map (fun other => message other (count other)) =
                (cpus.takeWhile online).map fun other =>
                  message other
                    (Function.update count cpu (Passes.copied 0 counts words) other) := by
              refine List.map_congr_left fun other member => ?_
              have different : other ≠ cpu := by
                rintro rfl
                exact distinct.1 ((List.takeWhile_prefix _).subset member)
              rw [Function.update_of_ne different]
            rw [List.map_cons, others, Function.update_self]
            rfl
          · intro other c
            by_cases same : other = cpu
            · subst same
              rw [Function.update_self]
              have words_seen := List.forall₂_map_left_iff.mp own.2
              have copied := Passes.copied_of_forall₂ words_seen 0 (mem_counts c)
              exact copied.mono (named.2 _) ((later.2 _).trans (last.2 _))
            · rw [Function.update_of_ne same]
              exact (seen other c).mono ((named.2 _).trans (own.1.2 _)) (last.2 _)

theorem meets_updateOnce (follow : SoftirqFollow v online) (mapped : Bool) {s : Buffer}
    (kept : Passes.Kept (stores kernel) (fun _ => 0) s) :
    Loads.Meets (fun _ => Passes.Write (stores kernel))
      (fun _ s' report => Passes.Kept (stores kernel) (fun _ => 0) s' ∧
        Round kernel online mapped s s' report) (updateOnce v online mapped) () s := by
  cases mapped with
  | true =>
      have loop := meets_loop (List.nodup_finRange 128)
        (fun _ member => look_of_mem_leading follow member)
        (fun _ found => look_of_first follow found) kept
      refine loop.mono ?_
      exact fun _ s' report post => ⟨post.1.1, post⟩
  | false =>
      intro s' writes
      have later := Passes.version_mono (unrepeated_stores kernel) kept writes
      exact ⟨later.1, later, fun cpu c => s'.cells (cpu, c), rfl,
        fun cpu c => ⟨_, later.2 _, Nat.le_refl _, later.1.held _⟩⟩

/-! ## Runs of calls -/

def Count.reported (message : Proto.SoftIrq) : Count → UInt32
  | .hi => message.hi
  | .timer => message.timer
  | .netTx => message.netTx
  | .netRx => message.netRx
  | .block => message.block
  | .irqPoll => message.irqPoll
  | .tasklet => message.tasklet
  | .sched => message.sched
  | .hrtimer => message.hrtimer
  | .rcu => message.rcu

/-- The count that a report shows for a CPU, by the name in the message. -/
def shownCount (cpu : Cpu) (c : Count) (report : List Proto.SoftIrq) : Option UInt32 :=
  (report.find? fun message => message.cpu = softirqName cpu).map c.reported

theorem reported_message (cpu : Cpu) (count : Count → UInt32) (c : Count) :
    c.reported (message cpu count) = count c := by
  cases c <;> rfl

/-- A report shows the counts of its own messages. -/
theorem shownCount_of_round {mapped : Bool} {s s' : Buffer} {report : List Proto.SoftIrq}
    (round : Round kernel online mapped s s' report) {cpu : Cpu} {c : Count} {b : UInt32}
    (shown : shownCount cpu c report = some b) :
    Passes.Seen (stores kernel) (fun _ => 0) s s' (cpu, c) b := by
  obtain ⟨-, count, rfl, seen⟩ := round
  obtain ⟨found, search, rfl⟩ := Option.map_eq_some_iff.mp shown
  have member := List.mem_of_find?_eq_some search
  have own : found.cpu = softirqName cpu := by simpa using List.find?_some search
  cases mapped with
  | false => cases member
  | true =>
      rw [if_pos rfl] at member
      obtain ⟨other, _, rfl⟩ := List.mem_map.mp member
      obtain rfl := softirqName_injective own
      rw [reported_message]
      exact seen other c

/-- **Every message has the counts of its own CPU, each as the kernel had it at some update**, and
no call reports an older update of a count than the calls before it: over any number of calls,
whatever the interleaving with the updates.  A call that opens and maps the device gives one
message for each of the CPUs before the first one that is not online.  The frames of the pages
with these records follow one another. -/
theorem counts_reported (fixed : ∀ k, (kernel k).online = online)
    (follow : SoftirqFollow v online) {mapped : List Bool} {s' : Buffer}
    {reports : List (List Proto.SoftIrq)}
    (run : Loads.Steps (fun _ => Passes.Write (stores kernel))
      ((), loaded kernel, Loads.inSequence (updateOnce v online) mapped) ((), s', .done reports)) :
    List.Forall₂ (fun (mapped : Bool) report => report.map Proto.SoftIrq.cpu =
        if mapped then (leading online).map softirqName else []) mapped reports ∧
      ∀ cpu ∈ leading online, ∀ c : Count, ∃ updates : List ℕ,
        reports.filterMap (shownCount cpu c) =
            updates.map (fun k => c.of ((kernel k).softirqs cpu)) ∧
          updates.Pairwise (· ≤ ·) ∧ ∀ k ∈ updates, k < s'.begun := by
  have meets := Loads.Meets.inSequence (Round kernel online)
    (Passes.Later (stores kernel) fun _ => 0) mapped
    (fun _ _ _ => Passes.Later.trans)
    (fun _ _ _ kept writes =>
      have later := Passes.version_mono (unrepeated_stores kernel) kept writes
      ⟨later.1, later⟩)
    (fun mapped _ _ _ kept => meets_updateOnce follow mapped kept)
    () (m := loaded kernel) (Passes.kept_after 1)
  obtain ⟨_, turns⟩ := meets.result run
  refine ⟨turns.forall₂.imp fun mapped report => ?_, fun cpu inside c => ?_⟩
  · rintro ⟨s, s', -, count, rfl, -⟩
    cases mapped
    · rfl
    · exact List.map_map
  · obtain ⟨-, ticks, values, ordered, window⟩ := Passes.ticks_of_inTurn
      (shownCount cpu c) id (cpu, c) (fun mapped s s' report round =>
        ⟨round.1, fun b shown => ⟨b, shownCount_of_round round shown, rfl⟩⟩) turns
    have updated : ∀ k ∈ ticks, 1 ≤ k := fun k member => (window k member).1
    refine ⟨ticks.map (· - 1), ?_, ?_, ?_⟩
    · rw [values, List.map_map]
      refine List.map_congr_left fun k member => ?_
      obtain ⟨k, rfl⟩ := Nat.exists_eq_add_of_le' (updated k member)
      have up : (kernel k).online cpu = true := by
        rw [fixed k]
        exact List.mem_takeWhile_imp inside
      exact after_stores kernel k up c
    · exact ordered.map _ fun j k le => Nat.sub_le_sub_right le 1
    · intro k member
      obtain ⟨tick, present, rfl⟩ := List.mem_map.mp member
      have positive := updated tick present
      have bounded := (window tick present).2
      have most : s'.version (cpu, c) ≤ s'.begun := by
        rw [Passes.Shared.version]
        split <;> omega
      omega

end Runs

def onlyFirst : OnlineMask := fun cpu => cpu.val = 0

/-- A kernel with one CPU online and `k` soft interrupts of each kind. -/
def oneCpu (k : ℕ) : KernelStatistics where
  kcpustat _ := ⟨0, 0, 0, 0, 0, 0, 0, 0, 0, 0⟩
  softirqs _ :=
    let n := UInt32.ofNat k
    ⟨n, n, n, n, n, n, n, n, n, n⟩
  ktimeGetNs _ := 0
  avenrun _ := 0
  online := onlyFirst

/-- The buffer at the first load of a count, and behind it, where the second update has ended. -/
def secondUpdate (load : ℕ) : Buffer :=
  if load < 3 then loaded oneCpu else ⟨Passes.after (stores oneCpu) (fun _ => 0) 2, 2, []⟩

/-- The device opens in the first and the last of three calls; the second update is made while the
first call is at its first count. -/
theorem counts_reported_between :
    let reports := (Loads.along secondUpdate 0
      (Loads.inSequence (updateOnce softirqPages onlyFirst) [true, false, true])).1
    reports.map (shownCount 0 .hi) = [some 0, none, some 1] ∧
      reports.map (shownCount 0 .rcu) = [some 1, none, some 1] ∧
      ∃ updates : List ℕ, reports.filterMap (shownCount 0 .hi) =
        updates.map fun k => Count.hi.of ((oneCpu k).softirqs 0) := by
  have written : ∀ (_ : Unit) k, Loads.Writes (fun _ => Passes.Write (stores oneCpu)) ()
      (secondUpdate k) (secondUpdate (k + 1)) := by
    intro _ k
    rcases lt_trichotomy k 2 with before | rfl | behind
    · rw [secondUpdate, secondUpdate, if_pos (by omega), if_pos (by omega)]
    · exact Passes.writes_pass 1
    · rw [secondUpdate, secondUpdate, if_neg (by omega), if_neg (by omega)]
  obtain ⟨_, run⟩ := Loads.Steps.along written () 0
    (Loads.inSequence (updateOnce softirqPages onlyFirst) [true, false, true])
  have fixed : ∀ k, (oneCpu k).online = onlyFirst := fun _ => rfl
  have follow : SoftirqFollow softirqPages onlyFirst := consecutive_of_le (by decide +kernel) _
  obtain ⟨updates, values, _⟩ := (counts_reported fixed follow run).2 0 (by decide +kernel) .hi
  exact ⟨by decide +kernel, by decide +kernel, updates, values⟩

end LinuxMonitor.Monitor.SoftIrqSnapshot
