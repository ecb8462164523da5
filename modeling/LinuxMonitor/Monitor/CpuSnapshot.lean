import LinuxMonitor.Library.Loads
import LinuxMonitor.Monitor.CpuRounding

/-!
# Reading the records of the CPUs while they are updated

`CpuStatMonitor::UpdateOnce` loads each member of a mapped record where its expression stands:
eight for the total, six for the busy time, seven for the shares, and all of them once more
when the record is stored.  The timer of the kernel module may replace a record between any
two of these loads.

* `eval_loop`: when nothing is replaced, the program does what `updateOnce` does.
* `meets_run`: when no record is replaced while it is being read, every visit is made from one
  sample, and the calls do what `updateOnce` does on these samples.
* `stored_is_sampled`: **in every such run the stored sample is the one from which the call's
  total, busy time and shares were taken, and the differences of each class add up to its
  last minus its first sample.**
* `stored_torn`: a run in which they do not.
-/

set_option autoImplicit false

namespace LinuxMonitor.Monitor.CpuStatMonitor

open Library

/-! ## The program -/

/-- The mapped array. -/
abbrev Memory : Type := ℕ → CpuStat

/-- The record whose counters are being loaded: some are, and the copy is not complete. -/
abbrev Window : Type := Option ℕ

/-- What a visit of a record has loaded, reported and stored.  Total and busy time are not
loaded when there is no earlier sample, and no differences are taken when the total has not
grown. -/
structure Visit where
  last : Option CpuStat
  totalTime : Option UInt64
  busyTime : Option UInt64
  differences : List UInt64
  entry : Proto.CpuStat ℚ
  key : Text
  stored : CpuStat
deriving DecidableEq

/-- The CPU of the stored sample. -/
def Visit.cpuName (v : Visit) : Text := v.stored.cpuName

/-- The members in the sum `cpu_total_time`. -/
def totalMembers : List (CpuStat → UInt64) :=
  [CpuStat.user, CpuStat.system, CpuStat.idle, CpuStat.nice, CpuStat.ioWait, CpuStat.irq,
    CpuStat.softIrq, CpuStat.steal]

/-- The members in the sum `cpu_busy_time`. -/
def busyMembers : List (CpuStat → UInt64) :=
  [CpuStat.user, CpuStat.system, CpuStat.nice, CpuStat.irq, CpuStat.softIrq, CpuStat.steal]

/-- A sum from left to right. -/
def sum (members : List UInt64) : UInt64 := members.foldl (· + ·) 0

/-- The load of `stats[i].cpu_name`. -/
def readName (i : ℕ) (w : Window) : Loads Memory Window Text :=
  .read (fun m => (m i).cpuName) w

/-- The load of a counter of `stats[i]`. -/
def readCounter (i : ℕ) (counter : CpuStat → UInt64) : Loads Memory Window UInt64 :=
  .read (fun m => counter (m i)) (some i)

/-- The copy of `stats[i]`. -/
def readStat (i : ℕ) (w : Window) : Loads Memory Window CpuStat := do
  let cpuName ← readName i w
  let user ← readCounter i CpuStat.user
  let system ← readCounter i CpuStat.system
  let idle ← readCounter i CpuStat.idle
  let nice ← readCounter i CpuStat.nice
  let ioWait ← readCounter i CpuStat.ioWait
  let irq ← readCounter i CpuStat.irq
  let softIrq ← readCounter i CpuStat.softIrq
  let steal ← .read (fun m => (m i).steal) none
  return ⟨cpuName, user, system, idle, nice, ioWait, irq, softIrq, steal⟩

/-- The body of the loop behind the lookup. -/
def visit (float : UInt64 → ℚ) (i : ℕ) : Option CpuStat → Loads Memory Window Visit
  | some old => do
      let totals ← Loads.readParts (fun m => m i) (some i) totalMembers
      let newCpuTotalTime := float (sum totals)
      let oldCpuTotalTime := float old.totalTime
      let busies ← Loads.readParts (fun m => m i) (some i) busyMembers
      let newCpuBusyTime := float (sum busies)
      let oldCpuBusyTime := float old.busyTime
      let total := newCpuTotalTime - oldCpuTotalTime
      if total > 0 then
        let user ← readCounter i CpuStat.user
        let system ← readCounter i CpuStat.system
        let nice ← readCounter i CpuStat.nice
        let idle ← readCounter i CpuStat.idle
        let ioWait ← readCounter i CpuStat.ioWait
        let irq ← readCounter i CpuStat.irq
        let softIrq ← readCounter i CpuStat.softIrq
        let cpuName ← readName i (some i)
        let key ← readName i (some i)
        let stored ← readStat i (some i)
        return {
          last := some old
          totalTime := sum totals
          busyTime := sum busies
          differences := [user - old.user, system - old.system, nice - old.nice, idle - old.idle,
            ioWait - old.ioWait, irq - old.irq, softIrq - old.softIrq]
          entry := {
            cpuName := cpuName
            cpuPercent := (newCpuBusyTime - oldCpuBusyTime) / total * 100
            usrPercent := float (user - old.user) / total * 100
            systemPercent := float (system - old.system) / total * 100
            nicePercent := float (nice - old.nice) / total * 100
            idlePercent := float (idle - old.idle) / total * 100
            ioWaitPercent := float (ioWait - old.ioWait) / total * 100
            irqPercent := float (irq - old.irq) / total * 100
            softIrqPercent := float (softIrq - old.softIrq) / total * 100 }
          key := key
          stored := stored }
      else
        let cpuName ← readName i (some i)
        let key ← readName i (some i)
        let stored ← readStat i (some i)
        return ⟨some old, sum totals, sum busies, [], zeroEntry cpuName, key, stored⟩
  | none => do
      let cpuName ← readName i none
      let key ← readName i none
      let stored ← readStat i none
      return ⟨none, none, none, [], zeroEntry cpuName, key, stored⟩

/-- The loop over `count` records from `i` on; it ends at a record without a name. -/
def loop (float : UInt64 → ℚ) : ℕ → ℕ → CpuStatMap →
    Loads Memory Window (List Visit × CpuStatMap)
  | 0, _, cpuStatMap => return ([], cpuStatMap)
  | count + 1, i, cpuStatMap => do
      let first ← readName i none
      if first = [] then return ([], cpuStatMap)
      else
        let cpuName ← readName i none
        let v ← visit float i (cpuStatMap.lookup cpuName)
        let (later, final) ← loop float count (i + 1) (cpuStatMap.insert v.key v.stored)
        return (v :: later, final)

/-- Calls of `UpdateOnce`, each with the number of CPUs it is given. -/
def calls (float : UInt64 → ℚ) : List ℕ → CpuStatMap →
    Loads Memory Window (List Visit × CpuStatMap)
  | [], cpuStatMap => return ([], cpuStatMap)
  | statCount :: statCounts, cpuStatMap => do
      let (visits, cpuStatMap) ← loop float statCount 0 cpuStatMap
      let (later, final) ← calls float statCounts cpuStatMap
      return (visits ++ later, final)

/-- The timer replaces a record by a newer sample. -/
def Tick (m m' : Memory) : Prop :=
  ∃ i sample, Counting (m i) sample ∧ sample.cpuName = (m i).cpuName ∧
    m' = Function.update m i sample

/-- A tick at any time. -/
def Anytime (_ : Window) (m m' : Memory) : Prop := Tick m m'

/-- A tick that does not replace the record that is being read. -/
def Undisturbed (w : Window) (m m' : Memory) : Prop := Tick m m' ∧ ∀ i ∈ w, m' i = m i

/-! ## Visits made from one sample -/

/-- The visit of a record that stays as it is. -/
def sampled (float : UInt64 → ℚ) (last : Option CpuStat) (sample : CpuStat) : Visit where
  last := last
  totalTime := last.map fun _ => sample.totalTime
  busyTime := last.map fun _ => sample.busyTime
  differences :=
    match last with
    | some old =>
        if float sample.totalTime - float old.totalTime > 0 then
          classes.map fun counter => counter sample - counter old
        else []
    | none => []
  entry := CpuStatMonitor.entry float last sample
  key := sample.cpuName
  stored := sample

theorem sum_totalMembers (s : CpuStat) :
    sum (totalMembers.map fun member => member s) = s.totalTime := by
  simp [sum, totalMembers, CpuStat.totalTime]

theorem sum_busyMembers (s : CpuStat) :
    sum (busyMembers.map fun member => member s) = s.busyTime := by
  simp [sum, busyMembers, CpuStat.busyTime]

/-! ## Calls without a tick -/

theorem eval_readStat (m : Memory) (i : ℕ) (w : Window) : (readStat i w).eval m = m i := rfl

theorem eval_visit (float : UInt64 → ℚ) (m : Memory) (i : ℕ) (last : Option CpuStat) :
    (visit float i last).eval m = sampled float last (m i) := by
  cases last with
  | none => rfl
  | some old =>
      have total := sum_totalMembers (m i)
      have busy := sum_busyMembers (m i)
      by_cases grown : float (m i).totalTime - float old.totalTime > 0
      · simp only [visit, Loads.eval_bind, Loads.eval_readParts, total, busy, if_pos grown,
          readCounter, readName, Loads.eval_read, eval_readStat, Loads.eval_pure, sampled, entry]
        rfl
      · simp only [visit, Loads.eval_bind, Loads.eval_readParts, total, busy, if_neg grown,
          readName, Loads.eval_read, eval_readStat, Loads.eval_pure, sampled, entry]
        rfl

/-- The records from `i` on, as far as they are visited. -/
def visitedFrom (m : Memory) (i count : ℕ) : List (Text × CpuStat) :=
  (((List.range' i count).map m).takeWhile fun s => s.cpuName ≠ []).map fun s => (s.cpuName, s)

/-- The loop is a sweep over the records. -/
theorem eval_loop (float : UInt64 → ℚ) (m : Memory) (count i : ℕ) (cpuStatMap : CpuStatMap) :
    ((loop float count i cpuStatMap).eval m).1.map Visit.entry =
        (sweep (entry float) (visitedFrom m i count) cpuStatMap).1.map Prod.snd ∧
      ((loop float count i cpuStatMap).eval m).2 =
        (sweep (entry float) (visitedFrom m i count) cpuStatMap).2 := by
  induction count generalizing i cpuStatMap with
  | zero => exact ⟨rfl, rfl⟩
  | succ count ih =>
      by_cases unnamed : (m i).cpuName = []
      · have nothing : visitedFrom m i (count + 1) = [] := by
          simp [visitedFrom, List.range'_succ, unnamed]
        rw [nothing, loop]
        simp [readName, unnamed, sweep]
      · have visited : visitedFrom m i (count + 1) =
            ((m i).cpuName, m i) :: visitedFrom m (i + 1) count := by
          simp [visitedFrom, List.range'_succ, unnamed]
        obtain ⟨entries, final⟩ := ih (i + 1) (cpuStatMap.insert (m i).cpuName (m i))
        rw [visited, sweep_cons, loop]
        simp only [readName, Loads.eval_bind, Loads.eval_read, unnamed, if_false, eval_visit,
          Loads.eval_pure, List.map_cons]
        exact ⟨congrArg (List.cons _) entries, final⟩

/-- **Without a tick the program does what `updateOnce` does.** -/
theorem eval_updateOnce (float : UInt64 → ℚ) (m : Memory) (statCount : ℕ)
    (cpuStatMap : CpuStatMap) :
    (((loop float statCount 0 cpuStatMap).eval m).1.map Visit.entry,
        ((loop float statCount 0 cpuStatMap).eval m).2) =
      updateOnce float (some ⟨statCount, (List.range statCount).map m⟩) cpuStatMap := by
  obtain ⟨entries, final⟩ := eval_loop float m statCount 0 cpuStatMap
  have samples : Device.samples ⟨statCount, (List.range statCount).map m⟩ =
      visitedFrom m 0 statCount := by
    rw [Device.samples, visitedFrom, List.take_of_length_le (by simp), List.range_eq_range']
  rw [updateOnce_eq, callSamples, Option.map_some, Option.getD_some, samples, entries, final]

/-! ## What a tick keeps -/

theorem Counting.refl (s : CpuStat) : Counting s s := by
  constructor <;> exact UInt64.le_refl _

theorem Counting.trans {a b c : CpuStat} (first : Counting a b) (second : Counting b c) :
    Counting a c where
  user := UInt64.le_trans first.user second.user
  system := UInt64.le_trans first.system second.system
  idle := UInt64.le_trans first.idle second.idle
  nice := UInt64.le_trans first.nice second.nice
  ioWait := UInt64.le_trans first.ioWait second.ioWait
  irq := UInt64.le_trans first.irq second.irq
  softIrq := UInt64.le_trans first.softIrq second.softIrq
  steal := UInt64.le_trans first.steal second.steal

/-- Every record has kept its name, and no counter has decreased. -/
def Later (m m' : Memory) : Prop :=
  ∀ i, (m' i).cpuName = (m i).cpuName ∧ Counting (m i) (m' i)

theorem Tick.later {m m' : Memory} (tick : Tick m m') : Later m m' := by
  obtain ⟨j, sample, counting, name, rfl⟩ := tick
  intro i
  by_cases same : i = j
  · subst same
    rw [Function.update_self]
    exact ⟨name, counting⟩
  · rw [Function.update_of_ne same]
    exact ⟨rfl, Counting.refl _⟩

theorem later_of_writes {w : Window} {m m' : Memory} (writes : Loads.Writes Undisturbed w m m') :
    Later m m' := by
  induction writes with
  | refl => exact fun i => ⟨rfl, Counting.refl _⟩
  | tail _ last ih =>
      intro i
      have step := last.1.later i
      exact ⟨step.1.trans (ih i).1, (ih i).2.trans step.2⟩

/-- What is undisturbed while a record is read is undisturbed at other times. -/
theorem writes_none {w : Window} {m m' : Memory} (writes : Loads.Writes Undisturbed w m m') :
    Loads.Writes Undisturbed none m m' :=
  Relation.ReflTransGen.mono (fun _ _ step => ⟨step.1, by simp⟩) _ _ writes

/-- The record that is read stays as it is. -/
theorem fixed (i : ℕ) : ∀ m m' : Memory, Undisturbed (some i) m m' → m' i = m i :=
  fun _ _ undisturbed => undisturbed.2 i rfl

/-! ## One visit -/

/-- The copy is a sample that was there. -/
theorem meets_readStat {α : Type} {post : Window → Memory → α → Prop} {i : ℕ} {m : Memory}
    {w : Window} {f : CpuStat → Loads Memory Window α}
    (holds : ∀ m', Loads.Writes Undisturbed none m m' → (w = some i → m' i = m i) →
      Loads.Meets Undisturbed post (f (m' i)) none m') :
    Loads.Meets Undisturbed post (readStat i w >>= f) w m := by
  apply Loads.Meets.bind
  apply Loads.Meets.read_bind
  intro m₁ later₁
  apply Loads.Meets.read_bind
  intro m₂ later₂
  iterate 6 refine Loads.Meets.read_same (fixed i) ?_
  apply Loads.Meets.read_bind
  intro m₃ later₃
  have same : m₃ i = m₂ i := later₃.frame_eq (fixed i)
  have name : (m₁ i).cpuName = (m₃ i).cpuName := by
    rw [same, (later_of_writes later₂ i).1]
  have kept : w = some i → m₃ i = m i := by
    rintro rfl
    rw [same, later₂.frame_eq (fixed i), later₁.frame_eq (fixed i)]
  have writes := (writes_none later₁).trans ((writes_none later₂).trans (writes_none later₃))
  rw [name, ← same]
  exact (holds m₃ writes kept).hand_over

/-- **A visit is made from one sample that was there.** -/
theorem meets_visit {α : Type} {post : Window → Memory → α → Prop} {float : UInt64 → ℚ} {i : ℕ}
    {last : Option CpuStat} {m : Memory} {f : Visit → Loads Memory Window α}
    (holds : ∀ m', Loads.Writes Undisturbed none m m' →
      Loads.Meets Undisturbed post (f (sampled float last (m' i))) none m') :
    Loads.Meets Undisturbed post (visit float i last >>= f) none m := by
  apply Loads.Meets.bind
  cases last with
  | none =>
      apply Loads.Meets.read_bind
      intro m₁ later₁
      apply Loads.Meets.read_bind
      intro m₂ later₂
      apply meets_readStat
      intro m₃ later₃ _
      have names₂ := (later_of_writes later₃ i).1
      have names₁ := names₂.trans (later_of_writes later₂ i).1
      have whole : sampled float none (m₃ i) =
          ⟨none, none, none, [], zeroEntry (m₁ i).cpuName, (m₂ i).cpuName, m₃ i⟩ := by
        rw [← names₁, ← names₂]
        rfl
      rw [← whole]
      exact (holds m₃ (later₁.trans (later₂.trans later₃))).hand_over
  | some old =>
      apply Loads.Meets.readParts_open (fixed i)
      intro m₁ later₁
      apply Loads.Meets.readParts_same (fixed i)
      have total := sum_totalMembers (m₁ i)
      have busy := sum_busyMembers (m₁ i)
      rw [totalMembers] at total
      rw [total, busy]
      by_cases grown : float (m₁ i).totalTime - float old.totalTime > 0
      · simp only [if_pos grown]
        iterate 9 refine Loads.Meets.read_same (fixed i) ?_
        apply meets_readStat
        intro m₂ later₂ same
        have whole := holds m₂ (later₁.trans later₂)
        simp only [sampled, same rfl, entry, if_pos grown] at whole
        rw [same rfl]
        exact whole.hand_over
      · simp only [if_neg grown]
        iterate 2 refine Loads.Meets.read_same (fixed i) ?_
        apply meets_readStat
        intro m₂ later₂ same
        have whole := holds m₂ (later₁.trans later₂)
        simp only [sampled, same rfl, entry, if_neg grown] at whole
        rw [same rfl]
        exact whole.hand_over

/-! ## Undisturbed calls -/

/-- No two records share a name. -/
def Distinct (m : Memory) : Prop :=
  ∀ i j, (m i).cpuName = (m j).cpuName → (m i).cpuName ≠ [] → i = j

/-- No record is behind what is stored under its name. -/
def Below (cpuStatMap : CpuStatMap) (m : Memory) : Prop :=
  ∀ cpuName old, cpuStatMap.lookup cpuName = some old →
    ∀ i, (m i).cpuName = cpuName → Counting old (m i)

/-- The samples that the visits have stored. -/
def storedSamples (visits : List Visit) : List (Text × CpuStat) :=
  visits.map fun v => (v.cpuName, v.stored)

/-- The calls have done with the stored samples what a sweep over them does, and no sample is
behind the one before it. -/
structure Atomic (float : UInt64 → ℚ) (cpuStatMap : CpuStatMap)
    (result : List Visit × CpuStatMap) : Prop where
  visits : result.1.map (fun v => (v.cpuName, v)) =
    (sweep (sampled float) (storedSamples result.1) cpuStatMap).1
  final : result.2 = (sweep (sampled float) (storedSamples result.1) cpuStatMap).2
  counting : ∀ v ∈ result.1, ∀ old ∈ v.last, Counting old v.stored

theorem Later.distinct {m m' : Memory} (later : Later m m') (distinct : Distinct m) :
    Distinct m' := by
  intro i j same named
  rw [(later i).1, (later j).1] at same
  rw [(later i).1] at named
  exact distinct i j same named

theorem Later.below {m m' : Memory} {cpuStatMap : CpuStatMap} (later : Later m m')
    (below : Below cpuStatMap m) : Below cpuStatMap m' := by
  intro cpuName old stored i name
  exact (below cpuName old stored i ((later i).1.symm.trans name)).trans (later i).2

theorem Below.insert {m : Memory} {cpuStatMap : CpuStatMap} (below : Below cpuStatMap m)
    (distinct : Distinct m) {i : ℕ} (named : (m i).cpuName ≠ []) :
    Below (cpuStatMap.insert (m i).cpuName (m i)) m := by
  intro cpuName old stored j name
  by_cases same : cpuName = (m i).cpuName
  · subst same
    rw [AList.lookup_insert, Option.some.injEq] at stored
    have index : i = j := distinct i j name.symm named
    rw [← stored, ← index]
    exact Counting.refl _
  · rw [AList.lookup_insert_ne same] at stored
    exact below cpuName old stored j name

theorem Atomic.nil (float : UInt64 → ℚ) (cpuStatMap : CpuStatMap) :
    Atomic float cpuStatMap ([], cpuStatMap) :=
  ⟨rfl, rfl, fun _ member => absurd member List.not_mem_nil⟩

theorem Atomic.single (float : UInt64 → ℚ) {cpuStatMap : CpuStatMap} {sample : CpuStat}
    (counting : ∀ old ∈ cpuStatMap.lookup sample.cpuName, Counting old sample) :
    Atomic float cpuStatMap ([sampled float (cpuStatMap.lookup sample.cpuName) sample],
      cpuStatMap.insert sample.cpuName sample) := by
  refine ⟨rfl, rfl, fun v member => ?_⟩
  rw [List.mem_singleton.mp member]
  exact counting

theorem Atomic.append {float : UInt64 → ℚ} {first second third : CpuStatMap}
    {visits later : List Visit} (atomic : Atomic float first (visits, second))
    (further : Atomic float second (later, third)) :
    Atomic float first (visits ++ later, third) := by
  obtain ⟨visited, stored, counting⟩ := atomic
  obtain ⟨visited', stored', counting'⟩ := further
  have samples : storedSamples (visits ++ later) = storedSamples visits ++ storedSamples later :=
    List.map_append
  dsimp only at visited stored visited' stored'
  refine ⟨?_, ?_, fun v member => ?_⟩
  · rw [samples, sweep_append, ← stored, ← visited, ← visited', List.map_append]
  · rw [samples, sweep_append, ← stored]
    exact stored'
  · rcases List.mem_append.mp member with inside | inside
    · exact counting v inside
    · exact counting' v inside

/-- What undisturbed calls guarantee. -/
def Done (float : UInt64 → ℚ) (cpuStatMap : CpuStatMap) (w : Window) (m : Memory)
    (result : List Visit × CpuStatMap) : Prop :=
  w = none ∧ Distinct m ∧ Below result.2 m ∧ Atomic float cpuStatMap result

theorem meets_pure {float : UInt64 → ℚ} {cpuStatMap : CpuStatMap} {m : Memory}
    {result : List Visit × CpuStatMap} (done : Done float cpuStatMap none m result) :
    Loads.Meets Undisturbed (Done float cpuStatMap) (pure result) none m := by
  obtain ⟨-, distinct, below, atomic⟩ := done
  apply Loads.Meets.pure
  intro m' writes
  have later := later_of_writes writes
  exact ⟨rfl, later.distinct distinct, later.below below, atomic⟩

/-- **The loop.** -/
theorem meets_loop (float : UInt64 → ℚ) (count i : ℕ) {cpuStatMap : CpuStatMap} {m : Memory}
    (distinct : Distinct m) (below : Below cpuStatMap m) :
    Loads.Meets Undisturbed (Done float cpuStatMap) (loop float count i cpuStatMap) none m := by
  induction count generalizing i cpuStatMap m with
  | zero => exact meets_pure ⟨rfl, distinct, below, .nil float cpuStatMap⟩
  | succ count ih =>
      apply Loads.Meets.read_bind
      intro m₁ later₁
      have first := later_of_writes later₁
      by_cases unnamed : (m₁ i).cpuName = []
      · rw [if_pos unnamed]
        exact meets_pure ⟨rfl, first.distinct distinct, first.below below, .nil float cpuStatMap⟩
      · rw [if_neg unnamed]
        apply Loads.Meets.read_bind
        intro m₂ later₂
        refine meets_visit fun m₃ later₃ => Loads.Meets.bind ?_
        have writes := later_of_writes (later₁.trans (later₂.trans later₃))
        have name₁ := (later_of_writes (later₂.trans later₃) i).1
        have name₂ := (later_of_writes later₃ i).1
        have distinct₃ := writes.distinct distinct
        have below₃ := writes.below below
        have named : (m₃ i).cpuName ≠ [] := by
          rw [name₁]
          exact unnamed
        rw [← name₂]
        apply (ih (i + 1) distinct₃ (below₃.insert distinct₃ named)).mono
        rintro w m' ⟨later, final⟩ ⟨rfl, distinct', below', atomic⟩
        refine meets_pure ⟨rfl, distinct', below', ?_⟩
        refine Atomic.append (.single float ?_) atomic
        exact fun old stored => below₃ _ old stored i rfl

/-- **Any number of calls.** -/
theorem meets_calls (float : UInt64 → ℚ) (statCounts : List ℕ) {cpuStatMap : CpuStatMap}
    {m : Memory} (distinct : Distinct m) (below : Below cpuStatMap m) :
    Loads.Meets Undisturbed (Done float cpuStatMap) (calls float statCounts cpuStatMap) none m := by
  induction statCounts generalizing cpuStatMap m with
  | nil => exact meets_pure ⟨rfl, distinct, below, .nil float cpuStatMap⟩
  | cons statCount statCounts ih =>
      refine Loads.Meets.bind ((meets_loop float statCount 0 distinct below).mono ?_)
      rintro w m₁ ⟨visits, stored⟩ ⟨rfl, distinct₁, below₁, atomic₁⟩
      refine Loads.Meets.bind ((ih distinct₁ below₁).mono ?_)
      rintro w m₂ ⟨later, final⟩ ⟨rfl, distinct₂, below₂, atomic₂⟩
      exact meets_pure ⟨rfl, distinct₂, below₂, atomic₁.append atomic₂⟩

/-! ## The differences of a run -/

/-- The visits of one CPU. -/
def visitsOf (cpuName : Text) (visits : List Visit) : List Visit :=
  visits.filter fun v => v.cpuName = cpuName

/-- Two samples have different totals after rounding, unless no class has gained anything. -/
def ToldApart (float : UInt64 → ℚ) (old new : CpuStat) : Prop :=
  (∀ counter ∈ classes, counter old = counter new) ∨ float old.totalTime < float new.totalTime

instance decidableToldApart (float : UInt64 → ℚ) (old new : CpuStat) :
    Decidable (ToldApart float old new) :=
  inferInstanceAs (Decidable (_ ∨ _))

theorem Atomic.eq_sampled {float : UInt64 → ℚ} {cpuStatMap : CpuStatMap}
    {result : List Visit × CpuStatMap} (atomic : Atomic float cpuStatMap result) :
    ∀ v ∈ result.1, v = sampled float v.last v.stored := by
  intro v member
  have output : (v.cpuName, v) ∈
      (sweep (sampled float) (storedSamples result.1) cpuStatMap).1 := by
    rw [← atomic.visits]
    exact List.mem_map.mpr ⟨v, member, rfl⟩
  obtain ⟨sample, _, previous, made⟩ := exists_of_mem_sweep output
  have value : v = sampled float previous sample.2 := (Prod.ext_iff.mp made).2
  rw [value]
  rfl

/-- The visits of a CPU are made from its own samples. -/
theorem Atomic.visitsOf_eq {float : UInt64 → ℚ} {cpuStatMap : CpuStatMap}
    {result : List Visit × CpuStatMap} (atomic : Atomic float cpuStatMap result) (cpuName : Text) :
    visitsOf cpuName result.1 = alone (sampled float) (cpuStatMap.lookup cpuName)
      (ofKey cpuName (storedSamples result.1)) := by
  have named : ∀ output ∈ result.1.map (fun v => (v.cpuName, v)),
      Visit.cpuName output.2 = output.1 := by
    intro output member
    obtain ⟨v, _, rfl⟩ := List.mem_map.mp member
    rfl
  have kept := ofKey_eq_filter named cpuName
  rw [atomic.visits, ofKey_sweep, ← atomic.visits, List.map_map] at kept
  rw [kept]
  exact congrArg _ (List.map_id _).symm

/-- Each sample is compared with the one stored before. -/
theorem isChain_alone (float : UInt64 → ℚ) (previous : Option CpuStat) (samples : List CpuStat) :
    (∀ v ∈ (alone (sampled float) previous samples).head?, v.last = previous) ∧
      (alone (sampled float) previous samples).IsChain fun v u => u.last = some v.stored := by
  induction samples generalizing previous with
  | nil =>
      refine ⟨fun v first => ?_, .nil⟩
      cases first
  | cons sample samples ih =>
      obtain ⟨first, chain⟩ := ih (some sample)
      refine ⟨fun v here => ?_, List.isChain_cons.mpr ⟨first, chain⟩⟩
      cases here
      rfl

/-- The difference that a visit uses. -/
theorem toNat_difference {float : UInt64 → ℚ} {old sample : CpuStat} {j : ℕ}
    {counter : CpuStat → UInt64} (counting : Counting old sample)
    (apart : ToldApart float old sample) (at' : classes[j]? = some counter) :
    ((sampled float (some old) sample).differences.getD j 0).toNat + (counter old).toNat =
      (counter sample).toNat := by
  have member : counter ∈ classes := List.mem_of_getElem? at'
  have le := counting.of_mem_classes counter member
  unfold sampled
  dsimp only
  by_cases grown : float sample.totalTime - float old.totalTime > 0
  · rw [if_pos grown, List.getD_eq_getElem?_getD, List.getElem?_map, at', Option.map_some,
      Option.getD_some, UInt64.toNat_sub_of_le _ _ le]
    exact Nat.sub_add_cancel (UInt64.le_iff_toNat_le.mp le)
  · rcases apart with still | larger
    · rw [if_neg grown, still counter member, List.getD_nil]
      exact Nat.zero_add _
    · exact absurd (sub_pos.mpr larger) grown

/-- From one visit on, the differences add up to the growth of the class. -/
theorem sum_differences {float : UInt64 → ℚ} {j : ℕ} {counter : CpuStat → UInt64}
    (at' : classes[j]? = some counter) {v : Visit} {visits : List Visit}
    (made : ∀ u ∈ visits, u = sampled float u.last u.stored)
    (chain : (v :: visits).IsChain fun v u => u.last = some v.stored)
    (counting : ∀ u ∈ visits, ∀ old ∈ u.last, Counting old u.stored)
    (apart : ∀ u ∈ visits, ∀ old ∈ u.last, ToldApart float old u.stored) :
    (visits.map fun u => (u.differences.getD j 0).toNat).sum + (counter v.stored).toNat =
      (counter (visits.getLastD v).stored).toNat := by
  induction visits generalizing v with
  | nil => exact Nat.zero_add _
  | cons u visits ih =>
      obtain ⟨baseline, later⟩ := List.isChain_cons_cons.mp chain
      obtain ⟨madeHere, madeLater⟩ := List.forall_mem_cons.mp made
      obtain ⟨countingHere, countingLater⟩ := List.forall_mem_cons.mp counting
      obtain ⟨apartHere, apartLater⟩ := List.forall_mem_cons.mp apart
      have rest := ih madeLater later countingLater apartLater
      have here :=
        toNat_difference (countingHere v.stored baseline) (apartHere v.stored baseline) at'
      rw [← baseline, ← madeHere] at here
      rw [List.map_cons, List.sum_cons, List.getLastD_cons, ← rest, ← here]
      omega

/-- **What is stored is what was read.**  Take any number of calls, each with any number of
CPUs, and any interleaving with the timer in which no record is replaced while it is being
read.  Every visit has taken the total, the busy time and the differences from the very
sample that it has stored; that sample is the baseline of the CPU's next visit; and as long
as consecutive totals are told apart, the differences that are used for a class add up to its
value in the CPU's last sample minus that in its first. -/
theorem stored_is_sampled {float : UInt64 → ℚ} {statCounts : List ℕ} {m m' : Memory} {w : Window}
    {visits : List Visit} {final : CpuStatMap} (distinct : Distinct m)
    (steps : Loads.Steps Undisturbed (none, m, calls float statCounts ∅)
      (w, m', .done (visits, final))) :
    (∀ v ∈ visits, v = sampled float v.last v.stored) ∧
      ∀ cpuName,
        (∀ v ∈ (visitsOf cpuName visits).head?, v.last = none) ∧
        ((visitsOf cpuName visits).IsChain fun v u => u.last = some v.stored) ∧
        final.lookup cpuName = ((visitsOf cpuName visits).map Visit.stored).getLast? ∧
        ((∀ v ∈ visitsOf cpuName visits, ∀ old ∈ v.last, ToldApart float old v.stored) →
          ∀ (j : ℕ) (counter : CpuStat → UInt64), classes[j]? = some counter →
            ∀ first ∈ (visitsOf cpuName visits).head?, ∀ last ∈ (visitsOf cpuName visits).getLast?,
              ((visitsOf cpuName visits).map fun v => (v.differences.getD j 0).toNat).sum +
                (counter first.stored).toNat = (counter last.stored).toNat) := by
  have nothing : Below ∅ m := fun cpuName old stored => by cases stored
  obtain ⟨-, -, -, atomic⟩ := (meets_calls float statCounts distinct nothing).result steps
  have made := atomic.eq_sampled
  refine ⟨made, fun cpuName => ?_⟩
  have own := atomic.visitsOf_eq cpuName
  obtain ⟨first, chain⟩ := isChain_alone float ((∅ : CpuStatMap).lookup cpuName)
    (ofKey cpuName (storedSamples visits))
  rw [← own] at first chain
  refine ⟨first, chain, ?_, ?_⟩
  · have last := lookup_sweep (sampled float) cpuName (storedSamples visits) ∅
    rw [← atomic.final] at last
    have samples : ofKey cpuName (storedSamples visits) =
        (visitsOf cpuName visits).map Visit.stored := by
      rw [storedSamples, ofKey, List.filter_map, List.map_map]
      rfl
    rw [last, samples]
    exact Option.or_none
  · intro apart j counter at' v here u there
    have within : ∀ x ∈ visitsOf cpuName visits, x ∈ visits := fun x => List.mem_of_mem_filter
    cases listed : visitsOf cpuName visits with
    | nil =>
        rw [listed] at here
        cases here
    | cons x xs =>
        rw [listed] at first chain apart within here there
        cases here
        have unread : v.last = none := first v rfl
        have start : v.differences = [] := by
          rw [made v (within v List.mem_cons_self), unread]
          rfl
        have rest := sum_differences at'
          (fun y member => made y (within y (List.mem_cons_of_mem _ member))) chain
          (fun y member => atomic.counting y (within y (List.mem_cons_of_mem _ member)))
          (fun y member => apart y (List.mem_cons_of_mem _ member))
        have end' : u = xs.getLastD v := by
          rw [List.getLast?_cons, ← List.getLastD_eq_getLast?] at there
          cases there
          rfl
        rw [List.map_cons, List.sum_cons, start, List.getD_nil, end', ← rest]
        exact congrArg (· + _) (Nat.zero_add _)

/-! ## One CPU -/

/-- An array with one named record. -/
def soleMemory (s : CpuStat) : Memory :=
  fun i => if i = 0 then s else ⟨[], 0, 0, 0, 0, 0, 0, 0, 0⟩

theorem distinct_soleMemory (s : CpuStat) : Distinct (soleMemory s) := by
  intro i j same named
  have first : i = 0 := by
    by_contra other
    simp [soleMemory, other] at named
  rw [same] at named
  by_contra apart
  have other : j ≠ 0 := fun zero => apart (first.trans zero.symm)
  simp [soleMemory, other] at named

theorem tick_soleMemory {a b : CpuStat} (counting : Counting a b) (name : b.cpuName = a.cpuName) :
    Tick (soleMemory a) (soleMemory b) := by
  refine ⟨0, b, counting, name, ?_⟩
  funext i
  by_cases first : i = 0
  · subst first
    rfl
  · simp [soleMemory, first]

/-- Three samples of a CPU. -/
def earlySample : CpuStat := ⟨"CPU0".toList, 10, 5, 70, 1, 2, 3, 4, 5⟩

def middleSample : CpuStat := ⟨"CPU0".toList, 30, 15, 140, 1, 4, 3, 6, 21⟩

def lateSample : CpuStat := ⟨"CPU0".toList, 50, 25, 200, 1, 6, 3, 8, 30⟩

/-- What follows the first of two calls. -/
def secondCall (result : List Visit × CpuStatMap) : Loads Memory Window (List Visit × CpuStatMap) :=
  calls unrounded [1] result.2 >>= fun later => pure (result.1 ++ later.1, later.2)

/-- Two calls with a tick between them. -/
theorem stored_is_sampled_between :
    ∃ w m' visits final,
      Loads.Steps Undisturbed (none, soleMemory earlySample, calls unrounded [1, 1] ∅)
        (w, m', .done (visits, final)) ∧
      ((visitsOf "CPU0".toList visits).map fun v => (v.differences.getD 0 0).toNat).sum = 20 := by
  have distinct := distinct_soleMemory earlySample
  have nothing : Below ∅ (soleMemory earlySample) := fun cpuName old stored => by cases stored
  have tick : Tick (soleMemory earlySample) (soleMemory middleSample) :=
    tick_soleMemory (by constructor <;> decide) rfl
  have first : ∃ w, Loads.Steps Undisturbed (none, soleMemory earlySample, loop unrounded 1 0 ∅)
      (w, soleMemory earlySample, .done ((loop unrounded 1 0 ∅).eval (soleMemory earlySample))) :=
    Loads.Steps.eval none _ _
  obtain ⟨w, first⟩ := first
  obtain ⟨rfl, -⟩ := (meets_loop unrounded 1 0 distinct nothing).result first
  have second : ∃ w visits final, Loads.Steps Undisturbed
      (none, soleMemory middleSample,
        secondCall ((loop unrounded 1 0 ∅).eval (soleMemory earlySample)))
      (w, soleMemory middleSample, .done (visits, final)) ∧
        (visitsOf "CPU0".toList visits).map Visit.stored = [earlySample, middleSample] ∧
        ∀ v ∈ visitsOf "CPU0".toList visits, ∀ old ∈ v.last,
          ToldApart unrounded old v.stored := by
    obtain ⟨w, second⟩ := Loads.Steps.eval none (soleMemory middleSample)
      (secondCall ((loop unrounded 1 0 ∅).eval (soleMemory earlySample)))
    exact ⟨w, _, _, second, by decide +kernel, by decide +kernel⟩
  obtain ⟨w, visits, final, second, stored, apart⟩ := second
  have between : Loads.Steps Undisturbed
      (none, soleMemory earlySample,
        secondCall ((loop unrounded 1 0 ∅).eval (soleMemory earlySample)))
      (none, soleMemory middleSample,
        secondCall ((loop unrounded 1 0 ∅).eval (soleMemory earlySample))) :=
    .single (.write ⟨tick, by simp⟩)
  have steps : Loads.Steps Undisturbed (none, soleMemory earlySample, calls unrounded [1, 1] ∅)
      (w, soleMemory middleSample, .done (visits, final)) :=
    (first.bind secondCall).trans (between.trans second)
  refine ⟨w, _, visits, final, steps, ?_⟩
  obtain ⟨-, own⟩ := stored_is_sampled distinct steps
  obtain ⟨v, rest, listed, storedFirst, storedRest⟩ := List.map_eq_cons_iff.mp stored
  obtain ⟨u, others, rfl, storedLast, nil⟩ := List.map_eq_cons_iff.mp storedRest
  rw [List.map_eq_nil_iff.mp nil] at listed
  have total := (own "CPU0".toList).2.2.2 apart 0 CpuStat.user rfl v (by rw [listed]; rfl) u
    (by rw [listed]; rfl)
  rw [storedFirst, storedLast] at total
  exact Nat.add_right_cancel (m := 10) total

/-- The record is replaced between the two calls, and again while the second call reads it,
when the total, the busy time and the first share have been taken. -/
def tornHistory (k : ℕ) : Memory :=
  soleMemory (if k < 13 then earlySample else if k < 30 then middleSample else lateSample)

/-- The second call takes its total from one sample and stores another. -/
theorem stored_torn :
    Distinct (soleMemory earlySample) ∧
      ∃ w m' visits final,
        Loads.Steps Anytime (none, soleMemory earlySample, calls unrounded [1, 1] ∅)
          (w, m', .done (visits, final)) ∧
        ∃ v ∈ visits, v.totalTime = some middleSample.totalTime ∧ v.stored = lateSample ∧
          v.differences.head? = some (middleSample.user - earlySample.user) := by
  have written : ∀ (w : Window) k,
      Loads.Writes Anytime w (tornHistory k) (tornHistory (k + 1)) := by
    intro w k
    by_cases start : k = 12
    · subst start
      exact .single (tick_soleMemory (by constructor <;> decide) rfl)
    · by_cases middle : k = 29
      · subst middle
        exact .single (tick_soleMemory (by constructor <;> decide) rfl)
      · have same : tornHistory (k + 1) = tornHistory k := by
          unfold tornHistory
          congr 1
          split_ifs <;> first | rfl | omega
        rw [same]
  obtain ⟨w, steps⟩ := Loads.Steps.along written none 0 (calls unrounded [1, 1] ∅)
  exact ⟨distinct_soleMemory _, w, _, _, _, steps, by decide +kernel⟩

end LinuxMonitor.Monitor.CpuStatMonitor
