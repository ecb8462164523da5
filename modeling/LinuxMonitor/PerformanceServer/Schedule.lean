import LinuxMonitor.PerformanceServer.Monitoring

/-!
# The hourly summaries of a run

In each round the host's rows are stamped with the local time, and the summary is computed
when the minute since the epoch is a multiple of sixty.  Its bucket is the local time
truncated to the hour, and its windows are `[hour − 1 h, hour]`, closed at both ends.  The
local time is the clock shifted by a fixed number of quarter hours: a zone whose offset changes
on the way has an hour twice, or none.  The join is led by the rows of the CPUs, so a report without
one leaves its rows in no bucket, as a query that fails does.  The database compares texts by
their weights; names that it cannot tell apart would share a host.

A round takes its own time and sleeps sixty seconds more, so it may step over the first
minute of an hour; and a row at a whole hour lies at the end of one window and at the
beginning of the next.

* `HostTurns.meets_boundary`: without such a step every whole hour is met by a check.
* `hourlyOnce_of_keeps`, `keeps_of_hourlyOnce`: the two directions of the main result.
* `hourly_once_iff`: **every old row is in one bucket, every hour is summarised and windows
  do not share rows, as long as each round is served, steps over no first minute and stamps no
  row at a whole hour; for a host that is served the last two are also necessary.**
* `hourly_once_drift`: rounds of one second step over the first minute of an hour.
-/

set_option autoImplicit false

namespace LinuxMonitor.PerformanceServer

open Library Proto

/-- The local time of a zone, in quarter hours from the clock. -/
def localTime (quarters : ℤ) (time : ℤ) : ℤ := time + 900 * quarters

variable {R : Type} [Field R] [LinearOrder R] {κ : Type} [DecidableEq κ]

/-! ## The condition and the property -/

namespace HostTurns

variable {run : Monitoring R} (host : HostTurns run)

/-- The hourly check before a round; before the first, the second before the run. -/
def lastCheck : ℕ → ℤ
  | 0 => run.begins 0 - 1
  | k + 1 => host.check k

end HostTurns

/-- In the round the host's report lists a CPU and its queries succeed, the round does not step
over the first minute of an hour, and none of the host's rows is stamped at a whole local hour. -/
structure KeepsHour {run : Monitoring R} (host : HostTurns run) (zone : ℤ → ℤ) (k : ℕ) :
    Prop where
  served : host.Served k
  meets : ∀ boundary, 3600 ∣ boundary → host.lastCheck k < boundary →
    host.check k < boundary + 60
  between : ∀ r ∈ host.stamps k, ¬ 3600 ∣ zone r

/-- When round `n` begins, each row of the host that is older than the last full hour is in
exactly one bucket; for each whole hour in the run that a check has passed there was a
summary; and no row lies in the windows of two buckets. -/
structure HourlyOnce {run : Monitoring R} (host : HostTurns run) (weight : Text → κ)
    (zone : ℤ → ℤ) (s : HostState) (n : ℕ) : Prop where
  once : ∀ row ∈ (run.tables weight zone s n).metrics, ∀ time,
    row.stamp = some (host.hostId weight s, time) → time < hourStart (zone (run.begins n)) - 3600 →
      ∃! hour, ∃ joined, host.bucket weight zone s n hour = some joined ∧ row ∈ joined
  computed : ∀ boundary, 3600 ∣ boundary → run.begins 0 ≤ boundary →
    (∃ k < n, boundary ≤ host.check k) →
      ∃ k < n, ∃ time score,
        .insertSummary (host.hostId weight s) time score ∈ (run.stored weight zone s k).executed ∧
          hourStart time = hourStart (zone boundary)
  apart : ∀ row ∈ (run.tables weight zone s n).metrics, ∀ hour hour',
    (host.bucket weight zone s n hour).isSome →
    (host.bucket weight zone s n hour').isSome →
      InWindow weight (host.hostId weight s) hour row →
        InWindow weight (host.hostId weight s) hour' row → hour = hour'

/-! ## The clock -/

namespace Monitoring

variable (run : Monitoring R)

theorem begins_le_ends (k : ℕ) : run.begins k ≤ run.ends k := by
  rw [begins, ends, second, second]
  omega

theorem ends_le (k : ℕ) : run.ends k ≤ run.begins k + 60 := by
  have short := run.short k
  rw [begins, ends, second, second]
  omega

theorem begins_succ (k : ℕ) : run.begins (k + 1) = run.ends k + 60 := by
  rw [begins, ends, beginning, second, second]
  omega

theorem begins_nonneg (k : ℕ) : 0 ≤ run.begins k := by
  rw [begins, second]
  omega

theorem ends_lt_begins {j k : ℕ} (earlier : j < k) : run.ends j + 60 ≤ run.begins k := by
  induction k, earlier using Nat.le_induction with
  | base => exact (run.begins_succ j).ge
  | succ k _ ih =>
      have here := run.begins_le_ends k
      have next := run.begins_succ k
      omega

theorem begins_ge (k : ℕ) : run.begins 0 + 60 * k ≤ run.begins k := by
  induction k with
  | zero => simp
  | succ k ih =>
      have here := run.begins_le_ends k
      have next := run.begins_succ k
      omega

end Monitoring

/-- The hourly check, for a clock that is past the epoch. -/
theorem onTheHour_iff {now : ℤ} (past : 0 ≤ now) : OnTheHour now ↔ now % 3600 < 60 := by
  rw [OnTheHour, Int.tdiv_eq_ediv_of_nonneg past,
    Int.tmod_eq_emod_of_nonneg (Int.ediv_nonneg past (by decide))]
  omega

namespace HostTurns

variable {run : Monitoring R} (host : HostTurns run)

/-- The order of the readings in the host's turn. -/
theorem readings (k : ℕ) : run.begins k ≤ (host.outcomes k).own.cpu.now ∧
    (∀ r ∈ host.stamps k, (host.outcomes k).own.cpu.now ≤ r ∧ r ≤ host.check k) ∧
    (host.outcomes k).own.cpu.now ≤ host.check k ∧
    host.check k ≤ (host.outcomes k).summary.now ∧
    (host.outcomes k).summary.now ≤ run.ends k := by
  have clocked := run.clocked k (host.index k)
  simp only [Clocked, List.isChain_cons_cons] at clocked
  obtain ⟨cpu, softIrq, memory, disk, network, check, summary, last, _⟩ := clocked
  refine ⟨cpu, ?_, ?_, summary, last⟩
  · intro r member
    simp only [stamps, PerformanceServer.stamps, List.mem_append, List.mem_cons,
      List.mem_map] at member
    rw [HostTurns.check]
    rcases member with ⟨_, _, rfl⟩ | rfl | ⟨_, _, rfl⟩ | ⟨_, _, rfl⟩ <;>
      simp only [outcomes] <;> omega
  · rw [HostTurns.check, outcomes]
    omega

theorem check_mono {j k : ℕ} (le : j ≤ k) : host.check j ≤ host.check k := by
  rcases le.lt_or_eq with earlier | rfl
  · have later := run.ends_lt_begins earlier
    obtain ⟨_, _, _, checkJ, lastJ⟩ := host.readings j
    obtain ⟨firstK, _, checkK, _, _⟩ := host.readings k
    omega
  · exact le_refl _

/-- **Without a step over a first minute every whole hour is met by a check.** -/
theorem meets_boundary {n : ℕ} {boundary : ℤ}
    (meets : ∀ k < n, host.lastCheck k < boundary → host.check k < boundary + 60)
    (inside : run.begins 0 ≤ boundary) (passed : ∃ k < n, boundary ≤ host.check k) :
    ∃ m < n, boundary ≤ host.check m ∧ host.check m < boundary + 60 := by
  classical
  obtain ⟨early, reached⟩ := Nat.find_spec passed
  refine ⟨Nat.find passed, early, reached, meets _ early ?_⟩
  cases first : Nat.find passed with
  | zero =>
      rw [lastCheck]
      omega
  | succ k =>
      have before := Nat.find_min passed (m := k) (by omega)
      rw [lastCheck]
      by_contra later
      exact before ⟨by omega, not_lt.mp later⟩

end HostTurns

/-! ## Local hours -/

section LocalHours

variable {quarters : ℤ}

/-- Within two minutes after a whole hour of the clock the local hour does not change. -/
theorem hourStart_localTime {boundary time : ℤ} (whole : 3600 ∣ boundary)
    (after : boundary ≤ time) (soon : time ≤ boundary + 120) :
    hourStart (localTime quarters time) = hourStart (localTime quarters boundary) := by
  simp only [hourStart, localTime]
  omega

/-- Each local hour is the hour of one whole hour of the clock. -/
theorem exists_boundary (quarters : ℤ) {hour : ℤ} (whole : 3600 ∣ hour) :
    ∃ boundary, 3600 ∣ boundary ∧
    hourStart (localTime quarters boundary) = hour ∧
    localTime quarters boundary ≤ hour + 2700 := by
  refine ⟨hour - 900 * quarters + 900 * quarters % 3600, ?_⟩
  simp only [hourStart, localTime]
  omega

theorem boundary_unique {boundary boundary' : ℤ} (whole : 3600 ∣ boundary)
    (whole' : 3600 ∣ boundary') (same : hourStart (localTime quarters boundary) =
      hourStart (localTime quarters boundary')) : boundary = boundary' := by
  simp only [hourStart, localTime] at same
  omega

end LocalHours

namespace HostTurns

variable {run : Monitoring R} (host : HostTurns run) {quarters : ℤ}

/-- A check in the first minute of an hour computes the summary of this hour. -/
theorem summary_of_met (quarters : ℤ) {m : ℕ} {boundary : ℤ} (whole : 3600 ∣ boundary)
    (after : boundary ≤ host.check m) (soon : host.check m < boundary + 60) :
    OnTheHour (host.check m) ∧
      hourStart (localTime quarters (host.outcomes m).summary.now) =
        hourStart (localTime quarters boundary) := by
  obtain ⟨first, _, cpu, summary, last⟩ := host.readings m
  have past := run.begins_nonneg m
  have short := run.ends_le m
  refine ⟨(onTheHour_iff (by omega)).mpr (by omega), ?_⟩
  exact hourStart_localTime whole (by omega) (by omega)

/-- A turn with a summary has its check in the first minute of an hour. -/
theorem met_of_onTheHour {m : ℕ} (onHour : OnTheHour (host.check m)) :
    ∃ boundary, 3600 ∣ boundary ∧ boundary ≤ host.check m ∧ host.check m < boundary + 60 := by
  obtain ⟨first, _, cpu, _, _⟩ := host.readings m
  have past := run.begins_nonneg m
  have minute := (onTheHour_iff (by omega)).mp onHour
  refine ⟨host.check m - host.check m % 3600, ?_⟩
  omega

variable {weight : Text → κ} {s : HostState} (apart : Apart weight run.names s.hostInfo)
  (agrees : CacheAgrees s) (obtained : host.hostId weight s ≠ [])
include apart agrees obtained

/-- **A row in the window of a summary is in its bucket.**  The row of `cpu_metrics` that the
join needs is of the same round, or of the next. -/
theorem in_bucket {m n k : ℕ} (served : ∀ k < n, host.Served k) (earlier : m < n) {boundary : ℤ}
    (whole : 3600 ∣ boundary) (after : boundary ≤ host.check m)
    (soon : host.check m < boundary + 60) {row : Statement R} {r : ℤ}
    (member : row ∈ host.rows weight (localTime quarters) s k) (reading : r ∈ host.stamps k)
    (stamp : row.stamp = some (host.hostId weight s, localTime quarters r))
    (since : hourStart (localTime quarters boundary) - 3600 ≤ localTime quarters r)
    (upto : localTime quarters r ≤ hourStart (localTime quarters boundary)) :
    ∃ joined, host.bucket weight (localTime quarters) s n
      (hourStart (localTime quarters boundary)) = some joined ∧ row ∈ joined := by
  obtain ⟨onHour, hourly⟩ := host.summary_of_met quarters whole after soon
  obtain ⟨_, low, _⟩ := hourStart_spec (localTime quarters boundary)
  obtain ⟨firstK, order, cpuK, checkK, lastK⟩ := host.readings k
  obtain ⟨firstM, _, _, checkM, lastM⟩ := host.readings m
  obtain ⟨cpuR, rCheck⟩ := order r reading
  have shortK := run.ends_le k
  have le : k ≤ m := by
    by_contra later
    have gap := run.ends_lt_begins (not_le.mp later)
    simp only [localTime] at *
    omega
  have hold : ∀ j ≤ m, hourStart (localTime quarters boundary) - 3600 ≤
      localTime quarters (host.outcomes j).own.cpu.now →
      localTime quarters (host.outcomes j).own.cpu.now ≤
        hourStart (localTime quarters boundary) →
      ∃ joined, host.bucket weight (localTime quarters) s n
        (hourStart (localTime quarters boundary)) = some joined ∧ row ∈ joined := by
    intro j cpuRound lower upper
    obtain ⟨joined, found, holds⟩ := host.bucket_holds (localTime quarters) apart agrees obtained
      served earlier onHour hourly cpuRound ⟨lower, upper⟩
    exact ⟨joined, found, holds k le row member ⟨_, _, stamp, rfl, since, upto⟩⟩
  by_cases early : localTime quarters (host.outcomes k).own.cpu.now <
      hourStart (localTime quarters boundary) - 3600
  · have next := run.begins_succ k
    have shortNext := run.ends_le (k + 1)
    obtain ⟨firstNext, _, cpuNext, checkNext, lastNext⟩ := host.readings (k + 1)
    have differs : k ≠ m := by
      rintro rfl
      simp only [localTime] at *
      omega
    refine hold (k + 1) (by omega) ?_ ?_ <;> simp only [localTime] at * <;> omega
  · apply hold k le (not_lt.mp early)
    simp only [localTime] at *
    omega

end HostTurns

/-! ## Both directions -/

section Directions

variable {run : Monitoring R} {host : HostTurns run} {quarters : ℤ} {weight : Text → κ}
  {s : HostState} (apart : Apart weight run.names s.hostInfo) (agrees : CacheAgrees s)
  (obtained : host.hostId weight s ≠ [])

section Origin

include apart agrees obtained

/-- A row of the host with the round and the reading that it comes from. -/
theorem reading_origin {n : ℕ} (served : ∀ k < n, host.Served k)
    {row : Statement R} {id : Text} {time : ℤ}
    (member : row ∈ (run.tables weight (localTime quarters) s n).metrics)
    (stamp : row.stamp = some (id, time)) (equal : weight id = weight (host.hostId weight s)) :
    ∃ k < n, row ∈ host.rows weight (localTime quarters) s k ∧
      ∃ r ∈ host.stamps k, time = localTime quarters r := by
  obtain ⟨k, early, inside⟩ := host.row_origin _ apart agrees obtained served member stamp equal
  exact ⟨k, early, inside, stamp_rowStatements inside stamp⟩

/-- The hour of a bucket is a whole one. -/
theorem bucket_whole {n : ℕ} {hour : ℤ} (served : ∀ k < n, host.Served k)
    {joined : List (Statement R)}
    (found : host.bucket weight (localTime quarters) s n hour = some joined) : 3600 ∣ hour := by
  obtain ⟨k, _, _, rfl⟩ := host.bucket_origin _ apart agrees obtained served found
  exact (hourStart_spec _).1

end Origin

variable (host) in
/-- The check of the last round comes after the hours that are over when the next begins. -/
theorem passed_of_old {n k : ℕ} (early : k < n) {time boundary : ℤ}
    (old : time < hourStart (localTime quarters (run.begins n)) - 3600)
    (near : localTime quarters boundary ≤ hourStart time + 3600 + 2700) :
    ∃ j < n, boundary ≤ host.check j := by
  obtain ⟨wholeHour, low, _⟩ := hourStart_spec time
  obtain ⟨wholeEnd, lowEnd, _⟩ := hourStart_spec (localTime quarters (run.begins n))
  obtain ⟨j, rfl⟩ := Nat.exists_eq_succ_of_ne_zero (Nat.ne_zero_of_lt early)
  refine ⟨j, Nat.lt_succ_self j, ?_⟩
  obtain ⟨firstJ, _, cpuJ, _, _⟩ := host.readings j
  have next := run.begins_succ j
  have short := run.ends_le j
  rw [Nat.succ_eq_add_one] at old lowEnd wholeEnd
  simp only [localTime] at *
  omega

section Keeps

variable {n : ℕ}
  (keeps : ∀ k < n, KeepsHour host (localTime quarters) k)
include keeps

/-- Each whole hour that a check has passed is met by a check in its first minute. -/
theorem met_of_keeps {boundary : ℤ} (whole : 3600 ∣ boundary) (inside : run.begins 0 ≤ boundary)
    (passed : ∃ k < n, boundary ≤ host.check k) :
    ∃ m < n, boundary ≤ host.check m ∧ host.check m < boundary + 60 :=
  host.meets_boundary (fun k early => (keeps k early).meets boundary whole) inside passed

include apart agrees obtained

/-- No row lies in the windows of two buckets. -/
theorem apart_of_keeps {row : Statement R}
    (member : row ∈ (run.tables weight (localTime quarters) s n).metrics) {hour hour' : ℤ}
    {joined joined' : List (Statement R)}
    (found : host.bucket weight (localTime quarters) s n hour = some joined)
    (found' : host.bucket weight (localTime quarters) s n hour' = some joined')
    (window : InWindow weight (host.hostId weight s) hour row)
    (window' : InWindow weight (host.hostId weight s) hour' row) : hour = hour' := by
  have served := fun k early => (keeps k early).served
  obtain ⟨_, time, stamp, equal, low, high⟩ := window
  obtain ⟨_, time', stamp', _, low', high'⟩ := window'
  obtain ⟨k, early, _, r, reading, rfl⟩ :=
    reading_origin apart agrees obtained served member stamp equal
  have whole := bucket_whole apart agrees obtained served found
  have whole' := bucket_whole apart agrees obtained served found'
  have between := (keeps k early).between r reading
  rw [stamp] at stamp'
  cases stamp'
  omega

/-- An old row is in the bucket of the next hour. -/
theorem bucketed_of_keeps {row : Statement R}
    (member : row ∈ (run.tables weight (localTime quarters) s n).metrics) {time : ℤ}
    (stamp : row.stamp = some (host.hostId weight s, time))
    (old : time < hourStart (localTime quarters (run.begins n)) - 3600) :
    ∃ hour joined, host.bucket weight (localTime quarters) s n hour = some joined ∧
      row ∈ joined := by
  have served := fun k early => (keeps k early).served
  obtain ⟨k, early, inside, r, reading, rfl⟩ :=
    reading_origin apart agrees obtained served member stamp rfl
  obtain ⟨wholeHour, low, high⟩ := hourStart_spec (localTime quarters r)
  have nextHour : 3600 ∣ hourStart (localTime quarters r) + 3600 := by omega
  obtain ⟨boundary, whole, same, near⟩ := exists_boundary quarters nextHour
  have passed := passed_of_old host early old near
  obtain ⟨firstK, order, _, _, _⟩ := host.readings k
  have reached := (order r reading).1
  obtain ⟨_, after, _⟩ := hourStart_spec (localTime quarters boundary)
  have start := run.begins_ge k
  have begun : run.begins 0 ≤ boundary := by
    simp only [localTime] at *
    omega
  obtain ⟨m, earlyM, afterM, soonM⟩ := met_of_keeps keeps whole begun passed
  obtain ⟨joined, found, holds⟩ := host.in_bucket apart agrees obtained served earlyM whole
    afterM soonM inside reading stamp (by omega) (by omega)
  exact ⟨_, joined, found, holds⟩

/-- **Rounds that keep the hours** summarise every hour once. -/
theorem hourlyOnce_of_keeps : HourlyOnce host weight (localTime quarters) s n := by
  constructor
  case computed =>
    intro boundary whole inside passed
    obtain ⟨m, early, after, soon⟩ := met_of_keeps keeps whole inside passed
    obtain ⟨onHour, hourly⟩ := host.summary_of_met quarters whole after soon
    have executed := host.summary_executed (localTime quarters) apart agrees obtained
      (keeps m early).served onHour
    exact ⟨m, early, _, _, executed, hourly⟩
  case apart =>
    intro row member hour hour' bucket bucket' window window'
    obtain ⟨joined, found⟩ := Option.isSome_iff_exists.mp bucket
    obtain ⟨joined', found'⟩ := Option.isSome_iff_exists.mp bucket'
    exact apart_of_keeps apart agrees obtained keeps member found found' window window'
  case once =>
    intro row member time stamp old
    obtain ⟨hour, joined, found, holds⟩ :=
      bucketed_of_keeps apart agrees obtained keeps member stamp old
    refine ⟨hour, ⟨joined, found, holds⟩, ?_⟩
    rintro hour' ⟨joined', found', holds'⟩
    have sound := run.sound_tables weight (localTime quarters) s n
    exact apart_of_keeps apart agrees obtained keeps member found' found
      (sound _ _ _ found' row holds').2 (sound _ _ _ found row holds).2

end Keeps

include apart agrees obtained in
/-- A summary of an hour in the first rounds was computed by a check in its first minute. -/
theorem met_of_computed {n : ℕ} (served : ∀ k < n, host.Served k)
    (hourly : HourlyOnce host weight (localTime quarters) s n) {boundary : ℤ}
    (whole : 3600 ∣ boundary) (inside : run.begins 0 ≤ boundary)
    (passed : ∃ k < n, boundary ≤ host.check k) :
    ∃ m < n, boundary ≤ host.check m ∧ host.check m < boundary + 60 := by
  obtain ⟨m, early, time, score, executed, same⟩ := hourly.computed boundary whole inside passed
  obtain ⟨onHour, rfl⟩ := host.summary_origin _ apart agrees obtained (served m early) executed rfl
  obtain ⟨boundary', whole', after, soon⟩ := host.met_of_onTheHour onHour
  have hour := (host.summary_of_met quarters whole' after soon).2
  obtain rfl := boundary_unique whole whole' (same.symm.trans hour)
  exact ⟨m, early, after, soon⟩

section Hourly

variable (served : ∀ k, host.Served k)
  (hourly : ∀ n, HourlyOnce host weight (localTime quarters) s n)
include apart agrees obtained served hourly

/-- No round steps over the first minute of an hour. -/
theorem meets_of_hourlyOnce {k : ℕ} {boundary : ℤ} (whole : 3600 ∣ boundary)
    (before : host.lastCheck k < boundary) : host.check k < boundary + 60 := by
  by_contra late
  have first : run.begins 0 ≤ boundary := by
    cases k with
    | zero =>
        rw [HostTurns.lastCheck] at before
        omega
    | succ j =>
        rw [HostTurns.lastCheck] at before
        have start := run.begins_ge j
        obtain ⟨firstJ, _, cpuJ, _, _⟩ := host.readings j
        omega
  obtain ⟨m, early, after, soon⟩ := met_of_computed apart agrees obtained (fun k _ => served k)
    (hourly (k + 1)) whole first ⟨k, by omega, by omega⟩
  cases k with
  | zero =>
      obtain rfl : m = 0 := by omega
      omega
  | succ j =>
      rw [HostTurns.lastCheck] at before
      rcases (Nat.lt_succ_iff.mp early).lt_or_eq with earlier | rfl
      · have mono := host.check_mono (Nat.lt_succ_iff.mp earlier)
        omega
      · omega

/-- A row at a whole hour would lie in two windows, each with a bucket in the end. -/
theorem between_of_hourlyOnce {k : ℕ} {r : ℤ} (reading : r ∈ host.stamps k) :
    ¬ 3600 ∣ localTime quarters r := by
  intro wholeRow
  -- the hour of the row, and the next, both with a summary some time
  obtain ⟨boundary, whole, same, _⟩ := exists_boundary quarters wholeRow
  have wholeNext : 3600 ∣ boundary + 3600 := by omega
  have next : hourStart (localTime quarters (boundary + 3600)) =
      localTime quarters r + 3600 := by
    simp only [hourStart, localTime] at *
    omega
  obtain ⟨firstK, order, _, _, _⟩ := host.readings k
  have reachedK := (order r reading).1
  obtain ⟨_, after, _⟩ := hourStart_spec (localTime quarters boundary)
  have late : r ≤ boundary := by
    simp only [localTime] at *
    omega
  have start := run.begins_ge k
  let far := (boundary + 3600 - run.begins 0).toNat
  have reached : boundary + 3600 ≤ host.check far := by
    have gap := run.begins_ge far
    obtain ⟨firstN, _, cpuN, _, _⟩ := host.readings far
    omega
  obtain ⟨m, early, after', soon⟩ := met_of_computed apart agrees obtained (fun k _ => served k)
    (hourly (far + 1)) whole (by omega) ⟨far, by omega, by omega⟩
  obtain ⟨m', early', after'', soon'⟩ := met_of_computed apart agrees obtained (fun k _ => served k)
    (hourly (far + 1)) wholeNext (by omega) ⟨far, by omega, reached⟩
  obtain ⟨row, member, stamp⟩ :=
    exists_rowStatement (localTime quarters) (host.hostId weight s) reading
  obtain ⟨joined, found, holds⟩ := host.in_bucket apart agrees obtained (fun k _ => served k)
    early whole after' soon member reading stamp (by omega) (by omega)
  obtain ⟨joined', found', holds'⟩ := host.in_bucket apart agrees obtained (fun k _ => served k)
    early' wholeNext after'' soon' member reading stamp (by omega) (by omega)
  obtain ⟨kept, window⟩ := run.sound_tables weight (localTime quarters) s _ _ _ _ found row holds
  obtain ⟨_, window'⟩ := run.sound_tables weight (localTime quarters) s _ _ _ _ found' row holds'
  have equal := (hourly (far + 1)).apart row kept _ _ (by rw [found]; rfl) (by rw [found']; rfl)
    window window'
  omega

/-- **A run that summarises every hour once** keeps the hours in every round. -/
theorem keeps_of_hourlyOnce (k : ℕ) : KeepsHour host (localTime quarters) k where
  served := served k
  meets := fun _ whole before =>
    meets_of_hourlyOnce apart agrees obtained served hourly whole before
  between := fun _ reading => between_of_hourlyOnce apart agrees obtained served hourly reading

end Hourly

end Directions

/-- **When the hourly summaries are right.**  Take a run of the loop, a host that is in every
round and gets an identifier in the first, a zone whose offset is the same number of quarter
hours all the time, and a collation that tells the names and identifiers apart.  If in each of the
first `n` rounds the host's report lists a CPU and its queries succeed, and the rounds step over no
first minute of an hour and stamp no row of the host at a whole hour, then when round `n` begins
each old row is in exactly one bucket, each whole hour passed has its summary, and no row lies in
two windows.  If that holds of all rounds of an unending run in which the host's reports list CPUs
and its queries succeed, then every round is so. -/
theorem hourly_once_iff {run : Monitoring R} (host : HostTurns run) {zone : ℤ → ℤ} {quarters : ℤ}
    (constant : ∀ time, zone time = time + 900 * quarters) (weight : Text → κ) (s : HostState)
    (apart : Apart weight run.names s.hostInfo) (agrees : CacheAgrees s)
    (obtained : host.hostId weight s ≠ []) :
    (∀ n, (∀ k < n, KeepsHour host zone k) → HourlyOnce host weight zone s n) ∧
    ((∀ k, host.Served k) → (∀ n, HourlyOnce host weight zone s n) →
      ∀ k, KeepsHour host zone k) := by
  obtain rfl : zone = localTime quarters := funext constant
  exact ⟨fun _ keeps => hourlyOnce_of_keeps apart agrees obtained keeps,
    fun served hourly k => keeps_of_hourlyOnce apart agrees obtained served hourly k⟩

/-! ## Even rounds -/

/-- Every query succeeds, and the clock stands at one second. -/
def punctual (now : ℤ) : HostOutcomes :=
  let lookup : Outcomes := ⟨true, true, true, now⟩
  let inserts : InsertOutcomes := ⟨now, fun _ => true⟩
  ⟨⟨lookup, inserts, inserts, inserts, inserts, inserts⟩, now, ⟨now, fun _ => lookup, true⟩⟩

/-- A report of the host `web` with one idle CPU. -/
def idleReport : MonitorInfo ℚ :=
  { MonitorInfo.named "web".toList with cpuStat := [⟨"cpu".toList, 0, 0, 0, 0, 100, 0, 0, 0⟩] }

/-- A round of `delay` seconds that begins at the given second. -/
def evenRound (now delay : ℕ) : Round ℚ :=
  ⟨some [idleReport], fun _ => punctual now, delay * 10 ^ 9⟩

theorem beginning_even (start delay k : ℕ) :
    beginning (start * 10 ^ 9) (fun k => evenRound (start + (delay + 60) * k) delay) k =
      (start + (delay + 60) * k) * 10 ^ 9 := by
  induction k with
  | zero => rfl
  | succ k ih =>
      rw [beginning, ih, evenRound]
      ring

theorem second_whole (n : ℕ) : second (n * 10 ^ 9) = n := by
  rw [second, Nat.mul_div_cancel _ (by decide)]

/-- A run whose rounds all take the same number of seconds. -/
def evenRun (start delay : ℕ) (short : delay < 60) : Monitoring ℚ where
  start := start * 10 ^ 9
  round k := evenRound (start + (delay + 60) * k) delay
  short _ := Nat.mul_lt_mul_of_pos_right short (by decide)
  clocked k _ := by
    have last : second (beginning (start * 10 ^ 9)
        (fun k => evenRound (start + (delay + 60) * k) delay) k + delay * 10 ^ 9) =
        (start + (delay + 60) * k + delay : ℕ) := by
      rw [beginning_even, ← Nat.add_mul, second_whole]
    have first := second_whole (start + (delay + 60) * k)
    rw [← beginning_even start delay k] at first
    change Clocked _ (second (_ + delay * 10 ^ 9)) (punctual _)
    rw [last, first, Clocked]
    simp [punctual]
  distinct _ _ fetched := by
    cases fetched
    exact List.nodup_singleton _

/-- The turns of `web` in such a run. -/
def webTurns (start delay : ℕ) (short : delay < 60) : HostTurns (evenRun start delay short) where
  name := "web".toList
  data _ := [idleReport]
  index _ := 0
  info _ := idleReport
  fetched _ := rfl
  found _ := rfl
  named _ := rfl

theorem served_webTurns (start delay : ℕ) (short : delay < 60) (k : ℕ) :
    (webTurns start delay short).Served k where
  cpus := List.cons_ne_nil _ _
  allOk := ⟨fun _ => rfl, fun _ => rfl, fun _ => rfl, fun _ => rfl, fun _ => rfl, rfl⟩

/-- A collation that ignores case tells the one name apart. -/
theorem apart_evenRun (start delay : ℕ) (short : delay < 60) :
    Apart ignoreCase (evenRun start delay short).names .empty := by
  have web : ∀ name ∈ (evenRun start delay short).names, name = "web".toList := by
    rintro name ⟨k, data, fetched, member⟩
    cases fetched
    exact List.mem_singleton.mp member
  exact apart_ignoreCase fun name own name' own' _ => (web name own).trans (web name' own').symm

theorem check_webTurns (start delay : ℕ) (short : delay < 60) (k : ℕ) :
    (webTurns start delay short).check k = (start + (delay + 60) * k : ℕ) := rfl

/-- Rounds without delay that begin five seconds after a whole minute keep every hour. -/
theorem hourly_once_steady : (webTurns 5 0 (by decide)).hostId ignoreCase ⟨∅, .empty⟩ ≠ [] ∧
    ∀ n, HourlyOnce (webTurns 5 0 (by decide)) ignoreCase (localTime 0) ⟨∅, .empty⟩ n := by
  have obtained : (webTurns 5 0 (by decide)).hostId ignoreCase ⟨∅, .empty⟩ ≠ [] := by decide
  refine ⟨obtained, fun n => ?_⟩
  refine (hourly_once_iff (webTurns 5 0 (by decide)) (fun time => Eq.refl (localTime 0 time))
    ignoreCase ⟨∅, .empty⟩ (apart_evenRun 5 0 (by decide)) (fun _ _ found => by cases found)
    obtained).1 n fun k _ => ?_
  constructor
  case served => exact served_webTurns 5 0 (by decide) k
  case meets =>
    intro boundary whole before
    rw [check_webTurns]
    cases k with
    | zero =>
        have first : (evenRun 5 0 (by decide)).begins 0 = 5 := second_whole 5
        rw [HostTurns.lastCheck, first] at before
        omega
    | succ j =>
        rw [HostTurns.lastCheck, check_webTurns] at before
        omega
  case between =>
    intro r reading
    have stamp : r = (5 + (0 + 60) * k : ℕ) := by
      rcases List.mem_cons.mp reading with first | later
      · exact first
      · exact List.mem_singleton.mp later
    rw [stamp, localTime]
    omega

/-- Rounds of one second, the first in the last second of an hour: the next begins after the
first minute, and the hour is never summarised. -/
theorem hourly_once_drift : ¬ ∀ n, HourlyOnce (webTurns 3599 1 (by decide)) ignoreCase
    (localTime 0) ⟨∅, .empty⟩ n := by
  intro hourly
  have obtained : (webTurns 3599 1 (by decide)).hostId ignoreCase ⟨∅, .empty⟩ ≠ [] := by decide
  have keeps := keeps_of_hourlyOnce (apart_evenRun 3599 1 (by decide))
    (fun _ _ found => by cases found) obtained (served_webTurns 3599 1 (by decide)) hourly 1
  have met := keeps.meets 3600 (dvd_refl 3600)
  rw [HostTurns.lastCheck, check_webTurns, check_webTurns] at met
  omega

end LinuxMonitor.PerformanceServer
