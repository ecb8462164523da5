import LinuxMonitor.PerformanceServer.Store

/-!
# The tables behind the summary

What the database does with the executed statements, as far as the summary depends on it:
the rows of the four tables that the summary joins, and the buckets of
`performance_summary`, each with the rows it was computed from.

The windows of the summary are closed at both ends, `[hour − 1 h, hour]`, where `hour` is
the truncated time.  The row of `cpu_metrics` leads the join and the bucket is grouped by
it, so a window without such a row gives no bucket.  A bucket that exists is overwritten.
Identifiers are compared by the weights that the collation gives them.

* `hourStr_eq`: the truncated time is the time of the whole hour.
* `Tables.execute_cases`: what one statement does.
* `Sound.executeAll`, `Grows.executeAll`: **over a run of statements rows are only added,
  and every bucket holds rows of the tables in its window.**
* `bucket_of_lookup`: a bucket comes from a summary of its hour.
-/

set_option autoImplicit false

namespace LinuxMonitor.PerformanceServer

open Library Proto

variable {R : Type} {κ : Type}

/-! ## Rows and windows -/

/-- The `host_id` and `timestamp` of a row that the summary reads. -/
def Statement.stamp : Statement R → Option (Text × ℤ)
  | .insertCpu hostId time _ _ => some (hostId, time)
  | .insertMemory hostId time _ => some (hostId, time)
  | .insertDisk hostId time _ => some (hostId, time)
  | .insertNetwork hostId time _ => some (hostId, time)
  | _ => none

def Statement.isCpu : Statement R → Bool
  | .insertCpu _ _ _ _ => true
  | _ => false

/-- The truncated time of the summary, and with it the ends of its windows, is what a row
at the whole hour is stamped with. -/
theorem hourStr_eq (time : ℤ) : hourStr time = timeStr (hourStart time) := strfHour_eq time

/-- The row is the host's and lies in the window `[hour − 1 h, hour]`. -/
def InWindow (weight : Text → κ) (hostId : Text) (hour : ℤ) (row : Statement R) : Prop :=
  ∃ id time, row.stamp = some (id, time) ∧ weight id = weight hostId ∧
    hour - 3600 ≤ time ∧ time ≤ hour

instance [DecidableEq κ] (weight : Text → κ) (hostId : Text) (hour : ℤ) :
    DecidablePred (InWindow weight hostId hour : Statement R → Prop) := fun row =>
  match same : row.stamp with
  | none => isFalse fun ⟨_, _, stamp, _⟩ => by rw [same] at stamp; cases stamp
  | some (id, time) =>
      if window : weight id = weight hostId ∧ hour - 3600 ≤ time ∧ time ≤ hour then
        isTrue ⟨id, time, same, window⟩
      else isFalse fun ⟨_, _, stamp, bounds⟩ => by
        rw [same] at stamp
        cases stamp
        exact window bounds

/-- A window is that of every identifier of the same weight. -/
theorem InWindow.of_weight {weight : Text → κ} {hostId hostId' : Text} {hour : ℤ}
    {row : Statement R} (window : InWindow weight hostId hour row)
    (same : weight hostId = weight hostId') : InWindow weight hostId' hour row := by
  obtain ⟨id, time, stamp, own, bounds⟩ := window
  exact ⟨id, time, stamp, own.trans same, bounds⟩

/-! ## The tables -/

/-- The rows of the four tables, and for each `host_id`, by its weight, and `time_bucket` the rows
that the summary was computed from. -/
structure Tables (κ R : Type) where
  metrics : List (Statement R)
  summaries : AList (fun _ : κ × ℤ => List (Statement R))

namespace Tables

def empty : Tables κ R := ⟨[], ∅⟩

variable [DecidableEq κ] (weight : Text → κ)

/-- The rows that a summary joins. -/
def joined (t : Tables κ R) (hostId : Text) (hour : ℤ) : List (Statement R) :=
  t.metrics.filter fun row => InWindow weight hostId hour row

/-- One statement that succeeds. -/
def execute (t : Tables κ R) : Statement R → Tables κ R
  | .insertSummary hostId time _ =>
      let hour := hourStart time
      if (t.joined weight hostId hour).any Statement.isCpu then
        { t with
          summaries := t.summaries.insert (weight hostId, hour) (t.joined weight hostId hour) }
      else t
  | row => if row.stamp.isSome then { t with metrics := t.metrics ++ [row] } else t

def executeAll (t : Tables κ R) (statements : List (Statement R)) : Tables κ R :=
  statements.foldl (execute weight) t

theorem executeAll_append (t : Tables κ R) (first second : List (Statement R)) :
    t.executeAll weight (first ++ second) = (t.executeAll weight first).executeAll weight second :=
  List.foldl_append

/-- **What one statement does**: it adds a row, writes a bucket, or changes nothing. -/
theorem execute_cases (t : Tables κ R) (s : Statement R) :
    (s.stamp.isSome ∧ t.execute weight s = { t with metrics := t.metrics ++ [s] }) ∨
    (∃ hostId time score, s = .insertSummary hostId time score ∧
      t.execute weight s = { t with
        summaries := t.summaries.insert (weight hostId, hourStart time)
          (t.joined weight hostId (hourStart time)) }) ∨
    (s.stamp = none ∧ t.execute weight s = t) := by
  cases s with
  | insertSummary hostId time score =>
      right
      by_cases cpu : (t.joined weight hostId (hourStart time)).any Statement.isCpu
      · exact Or.inl ⟨hostId, time, score, rfl, if_pos cpu⟩
      · exact Or.inr ⟨rfl, if_neg cpu⟩
  | insertCpu hostId time cpuStat cpuLoad => exact Or.inl ⟨rfl, rfl⟩
  | insertMemory hostId time memInfo => exact Or.inl ⟨rfl, rfl⟩
  | insertDisk hostId time diskInfo => exact Or.inl ⟨rfl, rfl⟩
  | insertNetwork hostId time netInfo => exact Or.inl ⟨rfl, rfl⟩
  | selectHost hostName => exact Or.inr (Or.inr ⟨rfl, rfl⟩)
  | insertHost hostId hostName => exact Or.inr (Or.inr ⟨rfl, rfl⟩)
  | insertSoftIrq hostId time softIrq => exact Or.inr (Or.inr ⟨rfl, rfl⟩)

variable {weight}

theorem mem_joined {t : Tables κ R} {hostId : Text} {hour : ℤ} {row : Statement R} :
    row ∈ t.joined weight hostId hour ↔ row ∈ t.metrics ∧ InWindow weight hostId hour row := by
  rw [joined, List.mem_filter, decide_eq_true_eq]

end Tables

/-! ## Rows are kept -/

/-- Every bucket holds rows of the tables that lie in its window. -/
def Sound [DecidableEq κ] (weight : Text → κ) (t : Tables κ R) : Prop :=
  ∀ hostId hour rows, t.summaries.lookup (weight hostId, hour) = some rows →
    ∀ row ∈ rows, row ∈ t.metrics ∧ InWindow weight hostId hour row

variable [DecidableEq κ] {weight : Text → κ}

theorem sound_empty : Sound weight (.empty : Tables κ R) := fun _ _ _ found => by cases found

/-- Rows and the contents of buckets are only added. -/
structure Grows (t t' : Tables κ R) : Prop where
  metrics : ∀ row ∈ t.metrics, row ∈ t'.metrics
  summaries : ∀ key rows, t.summaries.lookup key = some rows →
    ∃ rows', t'.summaries.lookup key = some rows' ∧ ∀ row ∈ rows, row ∈ rows'

theorem Grows.refl (t : Tables κ R) : Grows t t :=
  ⟨fun _ => id, fun _ rows found => ⟨rows, found, fun _ => id⟩⟩

theorem Grows.trans {t t' t'' : Tables κ R} (first : Grows t t') (second : Grows t' t'') :
    Grows t t'' := by
  refine ⟨fun row member => second.metrics row (first.metrics row member), ?_⟩
  intro key rows found
  obtain ⟨rows', found', kept⟩ := first.summaries key rows found
  obtain ⟨rows'', found'', kept'⟩ := second.summaries key rows' found'
  exact ⟨rows'', found'', fun row member => kept' row (kept row member)⟩

theorem Sound.execute {t : Tables κ R} (sound : Sound weight t) (s : Statement R) :
    Sound weight (t.execute weight s) := by
  intro hostId hour rows found row member
  rcases t.execute_cases weight s with
    ⟨_, result⟩ | ⟨other, time, score, _, result⟩ | ⟨_, result⟩ <;> rw [result] at found ⊢
  · obtain ⟨inside, window⟩ := sound hostId hour rows found row member
    exact ⟨List.mem_append_left _ inside, window⟩
  · by_cases same : (weight hostId, hour) = (weight other, hourStart time)
    · rw [same, AList.lookup_insert, Option.some.injEq] at found
      rw [← found] at member
      obtain ⟨inside, window⟩ := Tables.mem_joined.mp member
      obtain ⟨own, rfl⟩ := Prod.mk.inj same
      exact ⟨inside, window.of_weight own.symm⟩
    · rw [AList.lookup_insert_ne same] at found
      exact sound hostId hour rows found row member
  · exact sound hostId hour rows found row member

theorem Grows.execute {t : Tables κ R} (sound : Sound weight t) (s : Statement R) :
    Grows t (t.execute weight s) := by
  rcases t.execute_cases weight s with
    ⟨_, result⟩ | ⟨other, time, score, _, result⟩ | ⟨_, result⟩ <;> rw [result]
  · exact ⟨fun row member => List.mem_append_left _ member,
      fun _ rows found => ⟨rows, found, fun _ => id⟩⟩
  · refine ⟨fun _ => id, ?_⟩
    intro key rows found
    by_cases same : key = (weight other, hourStart time)
    · subst same
      refine ⟨_, AList.lookup_insert _, fun row member => ?_⟩
      exact Tables.mem_joined.mpr (sound other _ rows found row member)
    · exact ⟨rows, (AList.lookup_insert_ne same).trans found, fun _ => id⟩
  · exact .refl t

theorem Sound.executeAll {t : Tables κ R} (sound : Sound weight t)
    (statements : List (Statement R)) : Sound weight (t.executeAll weight statements) := by
  induction statements generalizing t with
  | nil => exact sound
  | cons s statements ih => exact ih (sound.execute s)

theorem Grows.executeAll {t : Tables κ R} (sound : Sound weight t)
    (statements : List (Statement R)) : Grows t (t.executeAll weight statements) := by
  induction statements generalizing t with
  | nil => exact .refl t
  | cons s statements ih => exact (Grows.execute sound s).trans (ih (sound.execute s))

/-! ## Where rows and buckets come from -/

/-- The rows after a run of statements are the rows before and the rows among them. -/
theorem mem_metrics_executeAll {t : Tables κ R} {statements : List (Statement R)}
    {row : Statement R} :
    row ∈ (t.executeAll weight statements).metrics ↔
      row ∈ t.metrics ∨ row ∈ statements ∧ row.stamp.isSome := by
  induction statements generalizing t with
  | nil => simp [Tables.executeAll]
  | cons s statements ih =>
      have step : row ∈ (t.execute weight s).metrics ↔
          row ∈ t.metrics ∨ row = s ∧ row.stamp.isSome := by
        rcases t.execute_cases weight s with ⟨stamped, result⟩ |
          ⟨other, time, score, rfl, result⟩ | ⟨unstamped, result⟩ <;> rw [result]
        · rw [List.mem_append, List.mem_singleton]
          refine or_congr_right ⟨fun same => ⟨same, same ▸ stamped⟩, And.left⟩
        · refine (or_iff_left ?_).symm
          rintro ⟨rfl, stamped⟩
          cases stamped
        · refine (or_iff_left ?_).symm
          rintro ⟨rfl, stamped⟩
          rw [unstamped] at stamped
          cases stamped
      rw [Tables.executeAll, List.foldl_cons, ← Tables.executeAll, ih, step, List.mem_cons,
        or_assoc, ← or_and_right]

/-- **A bucket comes from a summary of its hour.** -/
theorem bucket_of_lookup {t : Tables κ R} {statements : List (Statement R)} {key : κ}
    {hour : ℤ} {rows : List (Statement R)}
    (found : (t.executeAll weight statements).summaries.lookup (key, hour) = some rows) :
    (∃ rows', t.summaries.lookup (key, hour) = some rows') ∨
      ∃ hostId time score, .insertSummary hostId time score ∈ statements ∧ weight hostId = key ∧
        hourStart time = hour := by
  induction statements generalizing t with
  | nil => exact Or.inl ⟨rows, found⟩
  | cons s statements ih =>
      rcases ih found with ⟨rows', before⟩ | ⟨hostId, time, score, member, same⟩
      · rcases t.execute_cases weight s with ⟨_, result⟩ | ⟨other, time, score, rfl, result⟩ |
          ⟨_, result⟩ <;> rw [result] at before
        · exact Or.inl ⟨rows', before⟩
        · by_cases same : (key, hour) = (weight other, hourStart time)
          · obtain ⟨rfl, rfl⟩ := Prod.mk.inj same
            exact Or.inr ⟨other, time, score, List.mem_cons_self, rfl, rfl⟩
          · rw [AList.lookup_insert_ne same] at before
            exact Or.inl ⟨rows', before⟩
        · exact Or.inl ⟨rows', before⟩
      · exact Or.inr ⟨hostId, time, score, List.mem_cons_of_mem _ member, same⟩

/-- **A summary writes the bucket of its hour** with all rows in the window, provided a row
of `cpu_metrics` is among them. -/
theorem lookup_execute_summary {t : Tables κ R} {hostId : Text} {time : ℤ} (score : Option R)
    {cpu : Statement R} (member : cpu ∈ t.metrics) (isCpu : cpu.isCpu = true)
    (window : InWindow weight hostId (hourStart time) cpu) :
    (t.execute weight (.insertSummary hostId time score)).summaries.lookup
      (weight hostId, hourStart time) = some (t.joined weight hostId (hourStart time)) := by
  have leads : (t.joined weight hostId (hourStart time)).any Statement.isCpu = true :=
    List.any_eq_true.mpr ⟨cpu, Tables.mem_joined.mpr ⟨member, window⟩, isCpu⟩
  rw [Tables.execute, if_pos leads]
  exact AList.lookup_insert _

end LinuxMonitor.PerformanceServer
