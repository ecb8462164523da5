import LinuxMonitor.Library.KeyedStore
import LinuxMonitor.PerformanceServer.Summary

/-!
# Old rows are deleted

`cleanup_old_metrics` deletes the rows of the five metric tables that are older than a number of
days, the hourly buckets of `performance_summary` that are older than 7 days and the daily ones
that are older than 30; the event `daily_cleanup` calls it with 90 days.  The statements of the
procedure and those of the client are executed one at a time, in any order.

* `mem_rows_run`: which rows there are after a run.
* `retention`: **with a cleanup every day no row is older than 91 days, and none that is younger
  than 90 days is lost.**
* `filter_metrics_run`: what no DELETE concerns is as it would be without cleanups.
* `cleanup_harmless`: **a cleanup that keeps a day never changes what a later summary is computed
  from, unless the clock is set back by more than 22 hours.**
-/

set_option autoImplicit false

namespace LinuxMonitor.PerformanceServer

open Library Proto

variable {R : Type} {κ : Type}

/-! ## The procedure -/

/-- The tables from which `cleanup_old_metrics` deletes by `timestamp`. -/
inductive MetricTable where
  | cpu
  | softIrq
  | memory
  | disk
  | network
deriving DecidableEq, Repr

/-- The table to which a statement adds a row, and the `timestamp` of the row. -/
def Statement.row : Statement R → Option (MetricTable × ℤ)
  | .insertCpu _ time _ _ => some (.cpu, time)
  | .insertSoftIrq _ time _ => some (.softIrq, time)
  | .insertMemory _ time _ => some (.memory, time)
  | .insertDisk _ time _ => some (.disk, time)
  | .insertNetwork _ time _ => some (.network, time)
  | _ => none

/-- The tables with the rows of `soft_irq_metrics`, which the summary does not read. -/
structure MonitorDb (κ R : Type) where
  tables : Tables κ R
  softIrqMetrics : List (Statement R)

/-- What the server executes: a statement of the client that succeeds, or a DELETE of
`cleanup_old_metrics`, with the time at which the procedure was called, or for a summary the time
of the DELETE. -/
inductive DbEvent (R : Type) where
  | statement (s : Statement R)
  | deleteMetrics (table : MetricTable) (now : ℤ) (daysToKeep : ℤ)
  | deleteHourly (now : ℤ)
  | deleteDaily (now : ℤ)

/-- `DATE_SUB(now, INTERVAL days DAY)` -/
def dateSub (now days : ℤ) : ℤ := now - 86400 * days

/-- The row is in the table, and `timestamp < delete_cutoff`. -/
def Statement.olderThan (table : MetricTable) (deleteCutoff : ℤ) (s : Statement R) : Bool :=
  s.row.any fun row => row.1 = table && row.2 < deleteCutoff

/-- `cleanup_old_metrics(days_to_keep)`, called at `now`; the last two DELETEs read the clock
again. -/
def cleanupOldMetrics (daysToKeep now hourly daily : ℤ) : List (DbEvent R) :=
  [.deleteMetrics .cpu now daysToKeep, .deleteMetrics .softIrq now daysToKeep,
    .deleteMetrics .memory now daysToKeep, .deleteMetrics .disk now daysToKeep,
    .deleteMetrics .network now daysToKeep, .deleteHourly hourly, .deleteDaily daily]

namespace MonitorDb

def empty : MonitorDb κ R := ⟨.empty, []⟩

/-- The rows of the five metric tables. -/
def rows (db : MonitorDb κ R) : List (Statement R) := db.tables.metrics ++ db.softIrqMetrics

variable [DecidableEq κ] (weight : Text → κ)

def execute (db : MonitorDb κ R) (s : Statement R) : MonitorDb κ R where
  tables := db.tables.execute weight s
  softIrqMetrics :=
    match s with
    | .insertSoftIrq _ _ _ => db.softIrqMetrics ++ [s]
    | _ => db.softIrqMetrics

/-- One event.  The client writes hourly buckets only, so there are no daily ones to delete. -/
def apply (db : MonitorDb κ R) : DbEvent R → MonitorDb κ R
  | .statement s => db.execute weight s
  | .deleteMetrics table now daysToKeep =>
      let kept (row : Statement R) : Bool := !row.olderThan table (dateSub now daysToKeep)
      { tables := { db.tables with metrics := db.tables.metrics.filter kept }
        softIrqMetrics := db.softIrqMetrics.filter kept }
  | .deleteHourly now =>
      { db with
        tables :=
          { db.tables with
            summaries := keepKeys (fun key => !(key.2 < dateSub now 7)) db.tables.summaries } }
  | .deleteDaily _ => db

def run (db : MonitorDb κ R) (events : List (DbEvent R)) : MonitorDb κ R :=
  events.foldl (apply weight) db

theorem run_concat (db : MonitorDb κ R) (events : List (DbEvent R)) (event : DbEvent R) :
    db.run weight (events ++ [event]) = (db.run weight events).apply weight event :=
  List.foldl_concat _ _ _ _

end MonitorDb

variable [DecidableEq κ] {weight : Text → κ}

/-! ## Which rows there are -/

variable (weight) in
theorem metrics_execute (t : Tables κ R) (s : Statement R) :
    (t.execute weight s).metrics = t.metrics ++ if s.stamp.isSome then [s] else [] := by
  rcases t.execute_cases weight s with
    ⟨stamped, result⟩ | ⟨_, _, _, rfl, result⟩ | ⟨unstamped, result⟩
  · rw [result, if_pos stamped]
  · rw [result]
    exact (List.append_nil _).symm
  · rw [result, unstamped]
    exact (List.append_nil _).symm

/-- A statement adds the row that it inserts. -/
theorem mem_rows_execute (db : MonitorDb κ R) (s row : Statement R) :
    row ∈ (db.execute weight s).rows ↔ row ∈ db.rows ∨ row = s ∧ s.row.isSome := by
  have metrics := metrics_execute weight db.tables s
  cases s <;>
    simp only [MonitorDb.rows, MonitorDb.execute, metrics, Statement.stamp, Statement.row,
      List.mem_append] <;> simp <;> tauto

/-- No DELETE among the events concerns the row. -/
def Spared (row : Statement R) (events : List (DbEvent R)) : Prop :=
  ∀ table now daysToKeep, .deleteMetrics table now daysToKeep ∈ events →
    row.olderThan table (dateSub now daysToKeep) = false

theorem spared_cons {row : Statement R} {event : DbEvent R} {events : List (DbEvent R)} :
    Spared row (event :: events) ↔ Spared row [event] ∧ Spared row events := by
  simp only [Spared, List.mem_cons, List.not_mem_nil, or_false, or_imp, forall_and]

theorem mem_rows_apply (db : MonitorDb κ R) (event : DbEvent R) (row : Statement R) :
    row ∈ (db.apply weight event).rows ↔
      row ∈ db.rows ∧ Spared row [event] ∨ event = .statement row ∧ row.row.isSome := by
  cases event with
  | statement s =>
      rw [MonitorDb.apply, mem_rows_execute]
      simp [Spared, eq_comm (a := row)]
      grind
  | deleteMetrics table now daysToKeep =>
      simp [MonitorDb.apply, MonitorDb.rows, Spared]
      grind
  | deleteHourly now => simp [MonitorDb.apply, MonitorDb.rows, Spared]
  | deleteDaily now => simp [MonitorDb.apply, MonitorDb.rows, Spared]

/-- **Which rows there are**: those that were there or were inserted, and that no later DELETE
concerns. -/
theorem mem_rows_run (db : MonitorDb κ R) (events : List (DbEvent R)) (row : Statement R) :
    row ∈ (db.run weight events).rows ↔
      row ∈ db.rows ∧ Spared row events ∨
        ∃ before after, events = before ++ .statement row :: after ∧ row.row.isSome ∧
          Spared row after := by
  induction events generalizing db with
  | nil => simp [MonitorDb.run, Spared]
  | cons event events ih =>
      have later : row ∈ (db.run weight (event :: events)).rows ↔
          row ∈ ((db.apply weight event).run weight events).rows := Iff.rfl
      rw [later, ih, mem_rows_apply, @spared_cons _ row event events]
      constructor
      · rintro (⟨⟨there, spared⟩ | ⟨rfl, isRow⟩, rest⟩ | ⟨before, after, rfl, inserted⟩)
        · exact .inl ⟨there, spared, rest⟩
        · exact .inr ⟨[], events, rfl, isRow, rest⟩
        · exact .inr ⟨event :: before, after, rfl, inserted⟩
      · rintro (⟨there, spared, rest⟩ | ⟨_ | ⟨first, before⟩, after, split, isRow, rest⟩)
        · exact .inl ⟨.inl ⟨there, spared⟩, rest⟩
        · obtain ⟨rfl, rfl⟩ := List.cons.inj split
          exact .inl ⟨.inr ⟨rfl, isRow⟩, rest⟩
        · obtain ⟨rfl, rfl⟩ := List.cons.inj split
          exact .inr ⟨before, after, rfl, isRow, rest⟩

/-! ## A cleanup every day -/

theorem olderThan_eq_false_iff {row : Statement R} {table : MetricTable} {time : ℤ} (cutoff : ℤ)
    (isRow : row.row = some (table, time)) :
    row.olderThan table cutoff = false ↔ cutoff ≤ time := by
  simp [Statement.olderThan, isRow]

/-- `daily_cleanup` has been called every day up to `now`: every DELETE keeps 90 days, and for
each table the last one began within a day, and no row has been inserted since with a time before
its cutoff. -/
structure CleanedDaily (events : List (DbEvent R)) (now : ℤ) : Prop where
  ninety : ∀ table called daysToKeep, .deleteMetrics table called daysToKeep ∈ events →
    daysToKeep = 90 ∧ called ≤ now
  recent : ∀ table, ∃ before after called,
    events = before ++ .deleteMetrics table called 90 :: after ∧ now - 86400 ≤ called ∧
      ∀ row time, .statement row ∈ after → row.row = some (table, time) → dateSub called 90 ≤ time

variable (weight) in
/-- **With a cleanup every day** no row is older than 91 days, and no row that is younger than 90
days is lost. -/
theorem retention {events : List (DbEvent R)} {now : ℤ} (daily : CleanedDaily events now)
    {table : MetricTable} {time : ℤ} {row : Statement R} (isRow : row.row = some (table, time)) :
    (row ∈ (MonitorDb.empty.run weight events).rows → dateSub now 91 ≤ time) ∧
      (.statement row ∈ events → dateSub now 90 ≤ time →
        row ∈ (MonitorDb.empty.run weight events).rows) := by
  constructor
  · intro member
    obtain ⟨before, after, called, rfl, recent, present⟩ := daily.recent table
    have split : (MonitorDb.empty : MonitorDb κ R).run weight
        (before ++ .deleteMetrics table called 90 :: after) =
          (MonitorDb.empty.run weight (before ++ [.deleteMetrics table called 90])).run weight
            after := by
      simp [MonitorDb.run]
    have young : dateSub called 90 ≤ time := by
      rw [split, mem_rows_run, MonitorDb.run_concat, mem_rows_apply] at member
      rcases member with ⟨⟨_, spared⟩ | ⟨impossible, _⟩, _⟩ | ⟨older, younger, rfl, _, _⟩
      · have kept := spared table called 90 (List.mem_singleton.mpr rfl)
        exact (olderThan_eq_false_iff _ isRow).mp kept
      · cases impossible
      · exact present row time (List.mem_append_right _ List.mem_cons_self) isRow
    simp only [dateSub] at young ⊢
    omega
  · intro member young
    obtain ⟨before, after, rfl⟩ := List.append_of_mem member
    refine (mem_rows_run _ _ _).mpr (.inr ⟨before, after, rfl, by rw [isRow]; rfl, ?_⟩)
    intro other called daysToKeep inside
    obtain ⟨rfl, past⟩ := daily.ninety other called daysToKeep
      (List.mem_append_right _ (List.mem_cons_of_mem _ inside))
    have kept : dateSub called 90 ≤ time := by
      simp only [dateSub] at young ⊢
      omega
    simp [Statement.olderThan, isRow, kept]

/-- A row of `memory_metrics` whose monitor has filled in nothing. -/
def unfilled (time : ℤ) : Statement ℚ := .insertMemory "h".toList time .unset

/-- A row, a cleanup 100 days later, another row, and a summary. -/
def hundredDays : List (DbEvent ℚ) :=
  .statement (unfilled 0) :: (cleanupOldMetrics 90 8640000 8640000 8640000 ++
    [.statement (unfilled 8640000), .statement (.insertSummary "h".toList 8640000 none)])

theorem delete_mem_hundredDays {table : MetricTable} {now daysToKeep : ℤ}
    (member : .deleteMetrics table now daysToKeep ∈ hundredDays) :
    now = 8640000 ∧ daysToKeep = 90 := by
  simp [hundredDays, cleanupOldMetrics] at member
  omega

theorem cleanedDaily_hundredDays : CleanedDaily hundredDays 8640000 where
  ninety table called daysToKeep member := by
    obtain ⟨rfl, rfl⟩ := delete_mem_hundredDays member
    exact ⟨rfl, le_rfl⟩
  recent table := by
    have later : ∀ k, 1 ≤ k → ∀ row time, .statement row ∈ hundredDays.drop k →
        row.row = some (table, time) → dateSub 8640000 90 ≤ time := by
      intro k positive row time member isRow
      have inside := (List.drop_sublist_drop_left hundredDays positive).mem member
      simp [hundredDays, cleanupOldMetrics] at inside
      rcases inside with rfl | rfl
      · cases isRow
        decide
      · cases isRow
    cases table with
    | cpu =>
        exact ⟨_, _, _, (List.take_append_drop 1 hundredDays).symm, by decide, later 2 (by decide)⟩
    | softIrq =>
        exact ⟨_, _, _, (List.take_append_drop 2 hundredDays).symm, by decide, later 3 (by decide)⟩
    | memory =>
        exact ⟨_, _, _, (List.take_append_drop 3 hundredDays).symm, by decide, later 4 (by decide)⟩
    | disk =>
        exact ⟨_, _, _, (List.take_append_drop 4 hundredDays).symm, by decide, later 5 (by decide)⟩
    | network =>
        exact ⟨_, _, _, (List.take_append_drop 5 hundredDays).symm, by decide, later 6 (by decide)⟩

/-- The first row is gone, the second is there. -/
theorem retention_hundredDays : unfilled 0 ∉ (MonitorDb.empty.run id hundredDays).rows ∧
    unfilled 8640000 ∈ (MonitorDb.empty.run id hundredDays).rows := by
  constructor
  · intro member
    have young := (retention id cleanedDaily_hundredDays
      (show (unfilled 0).row = some (.memory, 0) from rfl)).1 member
    exact absurd young (by decide)
  · exact (retention id cleanedDaily_hundredDays
      (show (unfilled 8640000).row = some (.memory, 8640000) from rfl)).2 (by simp [hundredDays])
        (by decide)

/-! ## What summaries are computed from -/

/-- The event is a statement of the client. -/
def DbEvent.isStatement : DbEvent R → Bool
  | .statement _ => true
  | _ => false

variable (weight) in
/-- What there would be without cleanups. -/
def uncleaned (events : List (DbEvent R)) : MonitorDb κ R :=
  MonitorDb.empty.run weight (events.filter DbEvent.isStatement)

theorem uncleaned_concat_statement (events : List (DbEvent R)) (s : Statement R) :
    uncleaned weight (events ++ [.statement s]) = (uncleaned weight events).execute weight s := by
  rw [uncleaned, List.filter_append]
  exact MonitorDb.run_concat weight _ _ _

theorem uncleaned_concat_delete {events : List (DbEvent R)} {event : DbEvent R}
    (delete : event.isStatement = false) :
    uncleaned weight (events ++ [event]) = uncleaned weight events := by
  rw [uncleaned, List.filter_append, List.filter_singleton, delete]
  exact congrArg (MonitorDb.run weight .empty) (List.append_nil _)

theorem spared_of_concat {row : Statement R} {events : List (DbEvent R)} {event : DbEvent R}
    (spared : Spared row (events ++ [event])) : Spared row events :=
  fun table now daysToKeep member =>
    spared table now daysToKeep (List.mem_append_left _ member)

/-- **What no DELETE concerns is as it would be without cleanups.** -/
theorem filter_metrics_run (p : Statement R → Bool) {events : List (DbEvent R)}
    (untouched : ∀ row, p row = true → Spared row events) :
    (MonitorDb.empty.run weight events).tables.metrics.filter p =
      (uncleaned weight events).tables.metrics.filter p := by
  induction events using List.reverseRecOn with
  | nil => rfl
  | append_singleton events event ih =>
      have earlier := ih fun row passes => spared_of_concat (untouched row passes)
      rw [MonitorDb.run_concat]
      cases event with
      | statement s =>
          simp only [uncleaned_concat_statement, MonitorDb.apply, MonitorDb.execute,
            metrics_execute, List.filter_append, earlier]
      | deleteMetrics table now daysToKeep =>
          rw [uncleaned_concat_delete rfl, ← earlier, MonitorDb.apply, List.filter_filter]
          apply List.filter_congr
          intro row _
          rw [Bool.and_eq_left_iff_imp]
          intro passes
          rw [untouched row passes table now daysToKeep (by simp)]
          rfl
      | deleteHourly now => rwa [uncleaned_concat_delete rfl]
      | deleteDaily now => rwa [uncleaned_concat_delete rfl]

/-- The rows of a window that lies behind every cutoff. -/
theorem joined_run (hostId : Text) (hour : ℤ) {events : List (DbEvent R)}
    (behind : ∀ table now daysToKeep, .deleteMetrics table now daysToKeep ∈ events →
      dateSub now daysToKeep ≤ hour - 3600) :
    (MonitorDb.empty.run weight events).tables.joined weight hostId hour =
      (uncleaned weight events).tables.joined weight hostId hour := by
  refine filter_metrics_run _ fun row passes table now daysToKeep member => ?_
  obtain ⟨_, time, stamped, _, after, -⟩ := of_decide_eq_true passes
  have late := behind table now daysToKeep member
  cases row <;> cases stamped <;> simp [Statement.olderThan, Statement.row] <;> omega

/-- No summary reads a window that reaches back behind the cutoff of an earlier DELETE. -/
def Timely (events : List (DbEvent R)) : Prop :=
  events.Pairwise fun first second => ∀ table now daysToKeep hostId time score,
    first = .deleteMetrics table now daysToKeep →
      second = .statement (.insertSummary hostId time score) →
        dateSub now daysToKeep ≤ hourStart time - 3600

/-- A statement writes the same into a bucket of two databases that have the same rows in its
window, or leaves both alone. -/
theorem lookup_execute_cases {t t' : Tables κ R} {s : Statement R}
    (rows : ∀ hostId time score, s = .insertSummary hostId time score →
      t.joined weight hostId (hourStart time) = t'.joined weight hostId (hourStart time))
    (key : κ × ℤ) :
    (t.execute weight s).summaries.lookup key = (t'.execute weight s).summaries.lookup key ∨
      (t.execute weight s).summaries.lookup key = t.summaries.lookup key ∧
        (t'.execute weight s).summaries.lookup key = t'.summaries.lookup key := by
  cases s with
  | insertSummary hostId time score =>
      have joined := rows hostId time score rfl
      by_cases led : (t.joined weight hostId (hourStart time)).any Statement.isCpu
      · have led' := led
        rw [joined] at led'
        rw [Tables.execute, Tables.execute, if_pos led, if_pos led', joined]
        by_cases own : key = (weight hostId, hourStart time)
        · subst own
          left
          rw [AList.lookup_insert, AList.lookup_insert]
        · exact .inr ⟨AList.lookup_insert_ne own, AList.lookup_insert_ne own⟩
      · have led' := led
        rw [joined] at led'
        rw [Tables.execute, Tables.execute, if_neg led, if_neg led']
        exact .inr ⟨rfl, rfl⟩
  | _ => exact .inr ⟨rfl, rfl⟩

variable (weight) in
/-- The buckets are those that there would be without cleanups, but for deleted ones. -/
structure SameBuckets (events : List (DbEvent R)) : Prop where
  same : ∀ key rows, (MonitorDb.empty.run weight events).tables.summaries.lookup key = some rows →
    (uncleaned weight events).tables.summaries.lookup key = some rows
  kept : ∀ key, (∀ now, .deleteHourly now ∈ events → dateSub now 7 ≤ key.2) →
    (MonitorDb.empty.run weight events).tables.summaries.lookup key =
      (uncleaned weight events).tables.summaries.lookup key

/-- Every event keeps the buckets the same. -/
theorem SameBuckets.concat {events : List (DbEvent R)} {event : DbEvent R}
    (buckets : SameBuckets weight events) (timely : Timely (events ++ [event])) :
    SameBuckets weight (events ++ [event]) := by
  have kept (key : κ × ℤ) (recent : ∀ now, .deleteHourly now ∈ events ++ [event] →
      dateSub now 7 ≤ key.2) := buckets.kept key fun now member =>
    recent now (List.mem_append_left _ member)
  cases event with
  | statement s =>
      have rows : ∀ hostId time score, s = .insertSummary hostId time score →
          (MonitorDb.empty.run weight events).tables.joined weight hostId (hourStart time) =
            (uncleaned weight events).tables.joined weight hostId (hourStart time) := by
        rintro hostId time score rfl
        refine joined_run hostId (hourStart time) fun table now daysToKeep member => ?_
        exact (List.pairwise_append.mp timely).2.2 _ member _ List.mem_cons_self
          table now daysToKeep hostId time score rfl rfl
      constructor
      · intro key found
        rw [MonitorDb.run_concat, uncleaned_concat_statement]
        rcases lookup_execute_cases rows key with written | ⟨left, right⟩
        · exact fun after => written.symm.trans after
        · exact fun after => right.trans (buckets.same key found (left.symm.trans after))
      · intro key recent
        rw [MonitorDb.run_concat, uncleaned_concat_statement]
        rcases lookup_execute_cases rows key with written | ⟨left, right⟩
        · exact written
        · exact left.trans ((kept key recent).trans right.symm)
  | deleteMetrics table now daysToKeep =>
      constructor
      · rw [MonitorDb.run_concat, uncleaned_concat_delete rfl]
        exact buckets.same
      · rw [MonitorDb.run_concat, uncleaned_concat_delete rfl]
        exact kept
  | deleteHourly now =>
      constructor
      · intro key rows
        rw [MonitorDb.run_concat, uncleaned_concat_delete rfl, MonitorDb.apply, lookup_keepKeys]
        split
        · exact buckets.same key rows
        · exact nofun
      · intro key recent
        have young : (!decide (key.2 < dateSub now 7)) = true := by
          simpa using recent now (by simp)
        rw [MonitorDb.run_concat, uncleaned_concat_delete rfl, MonitorDb.apply, lookup_keepKeys,
          if_pos young]
        exact kept key recent
  | deleteDaily now =>
      constructor
      · rw [MonitorDb.run_concat, uncleaned_concat_delete rfl]
        exact buckets.same
      · rw [MonitorDb.run_concat, uncleaned_concat_delete rfl]
        exact kept

variable (weight) in
theorem sameBuckets_of_timely {events : List (DbEvent R)} (timely : Timely events) :
    SameBuckets weight events := by
  induction events using List.reverseRecOn with
  | nil => exact ⟨nofun, fun _ _ => rfl⟩
  | append_singleton events event ih =>
      exact (ih (List.pairwise_append.mp timely).1).concat timely

/-- Every cleanup keeps at least a day, and after its call the clock is not set back by more than
22 hours before a summary is computed. -/
structure Steady (events : List (DbEvent R)) : Prop where
  keeps : ∀ table now daysToKeep, .deleteMetrics table now daysToKeep ∈ events → 1 ≤ daysToKeep
  clock : events.Pairwise fun first second => ∀ table now daysToKeep hostId time score,
    first = .deleteMetrics table now daysToKeep →
      second = .statement (.insertSummary hostId time score) → now - 22 * 3600 ≤ time

theorem Steady.timely {events : List (DbEvent R)} (steady : Steady events) : Timely events := by
  refine steady.clock.imp_of_mem ?_
  intro first second before _ clock table now daysToKeep hostId time score first_eq second_eq
  have day := steady.keeps table now daysToKeep (first_eq ▸ before)
  have late := clock table now daysToKeep hostId time score first_eq second_eq
  simp only [dateSub, hourStart]
  omega

variable (weight) in
/-- **A cleanup that keeps a day changes no summary**: whatever the order of the client's
statements and the DELETEs, each bucket that is there was computed from the very rows from which
it would have been computed without cleanups, only buckets older than 7 days are missing, and the
query of the next summary of any host gives what it would give without cleanups. -/
theorem cleanup_harmless [Field R] [LinearOrder R] [IsStrictOrderedRing R]
    {events : List (DbEvent R)} (steady : Steady events) :
    (∀ key rows, (MonitorDb.empty.run weight events).tables.summaries.lookup key = some rows →
      (uncleaned weight events).tables.summaries.lookup key = some rows) ∧
    (∀ key, (∀ now, .deleteHourly now ∈ events → dateSub now 7 ≤ key.2) →
      (MonitorDb.empty.run weight events).tables.summaries.lookup key =
        (uncleaned weight events).tables.summaries.lookup key) ∧
    ∀ hostId time score, (∀ table now daysToKeep,
        .deleteMetrics table now daysToKeep ∈ events → now - 22 * 3600 ≤ time) →
      summaryRows weight hostId (hourStart time) score
          (metricTables (MonitorDb.empty.run weight events).tables.metrics) =
        summaryRows weight hostId (hourStart time) score
          (metricTables (uncleaned weight events).tables.metrics) := by
  obtain ⟨same, kept⟩ := sameBuckets_of_timely weight steady.timely
  refine ⟨same, kept, fun hostId time score clock => ?_⟩
  have rows : (MonitorDb.empty.run weight events).tables.joined weight hostId (hourStart time) =
      (uncleaned weight events).tables.joined weight hostId (hourStart time) := by
    refine joined_run hostId _ fun table now daysToKeep member => ?_
    have day := steady.keeps table now daysToKeep member
    have late := clock table now daysToKeep member
    simp only [dateSub, hourStart]
    omega
  rw [summaryRows_metricTables, summaryRows_metricTables, rows]

theorem steady_hundredDays : Steady hundredDays where
  keeps table now daysToKeep member := by
    obtain ⟨rfl, rfl⟩ := delete_mem_hundredDays member
    decide
  clock := by
    apply List.pairwise_of_forall_mem_list
    rintro _ delete _ summary table now daysToKeep hostId time score rfl rfl
    obtain ⟨rfl, rfl⟩ := delete_mem_hundredDays delete
    simp [hundredDays, cleanupOldMetrics, unfilled] at summary
    omega

/-- A summary after a cleanup. -/
theorem cleanup_harmless_hundredDays : summaryRows id "h".toList 8640000 (some (5 : ℚ))
      (metricTables (MonitorDb.empty.run id hundredDays).tables.metrics) =
    summaryRows id "h".toList 8640000 (some 5)
      (metricTables (uncleaned id hundredDays).tables.metrics) := by
  refine (cleanup_harmless id steady_hundredDays).2.2 "h".toList 8640000 (some 5) ?_
  intro table now daysToKeep member
  obtain ⟨rfl, rfl⟩ := delete_mem_hundredDays member
  decide

end LinuxMonitor.PerformanceServer
