import LinuxMonitor.PerformanceServer.Statement

/-!
# Names in statements

A report holds names in five places: of the host, and of its CPUs, of the CPUs of the
soft interrupts, of the disks and of the interfaces.  Any client of the server can choose
them, and the statements put them between quotes as they are.

* `clean_newHostId`: a new host identifier is clean when the name is.
* `statements_faithful_iff`: **all statements of a report are faithful exactly when every
  name in it is verbatim and holds no NUL.**
* `statements_quote_unfaithful`: a report from a host named `o'neil` is not stored as
  submitted.
-/

set_option autoImplicit false

namespace LinuxMonitor.PerformanceServer

open Library Proto

section Names

variable {R : Type}

/-- The names in a report. -/
def names (info : MonitorInfo R) : List Text :=
  info.name :: (info.cpuStat.map CpuStat.cpuName ++ (info.softIrq.map SoftIrq.cpu ++
    (info.diskInfo.map DiskInfo.name ++ info.netInfo.map NetInfo.name)))

/-- The name stands in a statement as it is. -/
def Clean (name : Text) : Prop := Verbatim name ∧ '\x00' ∉ name

instance : DecidablePred Clean :=
  fun name => inferInstanceAs (Decidable (Verbatim name ∧ '\x00' ∉ name))

/-- When the functions that store a report read the clock. -/
structure StoreTimes where
  created : ℤ
  cpu : ℤ
  softIrq : ℤ
  memory : ℤ
  disk : ℤ
  network : ℤ

/-- The statements that `getOrCreateHostId` and the insert functions build for the report
of a new host. -/
def statements [Zero R] (info : MonitorInfo R) (times : StoreTimes) : List (Statement R) :=
  let hostId := newHostId info.name times.created
  [.selectHost info.name, .insertHost hostId info.name] ++
    (cpuStatements info hostId times.cpu ++ (softIrqStatements info hostId times.softIrq ++
      (memoryStatements info hostId times.memory ++ (diskStatements info hostId times.disk ++
        networkStatements info hostId times.network))))

end Names

/-! ## Verbatim texts -/

theorem verbatim_append {s t : Text} (first : Verbatim s) (second : Verbatim t) :
    Verbatim (s ++ t) := by
  induction s with
  | nil => exact second
  | cons c s ih =>
      obtain ⟨quote, escape, rest⟩ := first
      refine ⟨quote, fun backslash => ?_, ih rest⟩
      have next := escape backslash
      cases s with
      | nil => simp at next
      | cons d s => exact next

theorem verbatim_of_plain {t : Text} (plain : Plain t) : Verbatim t := by
  induction t with
  | nil => exact trivial
  | cons c t ih =>
      have here := plain c List.mem_cons_self
      refine ⟨here.1, fun backslash => absurd backslash here.2.1, ?_⟩
      exact ih fun d member => plain d (List.mem_cons_of_mem _ member)

theorem clean_of_plain {t : Text} (plain : Plain t) : Clean t :=
  ⟨verbatim_of_plain plain, plain.no_nul⟩

theorem clean_append {s t : Text} (first : Clean s) (second : Clean t) : Clean (s ++ t) := by
  refine ⟨verbatim_append first.1 second.1, ?_⟩
  simp [first.2, second.2]

/-- A new identifier is as clean as its name. -/
theorem clean_newHostId {hostName : Text} (clean : Clean hostName) (time : ℤ) :
    Clean (newHostId hostName time) := by
  have head : Clean "host_".toList := by decide
  have tail : Clean ('_' :: signedDecimal time) :=
    clean_of_plain ((plain_signedDecimal time).cons (by decide))
  exact clean_append head (clean_append clean tail)

/-! ## The statements of a report -/

section Faithful

variable {R : Type} [Div R] [NatCast R] [StdToString R]

theorem clean_timeStr (time : ℤ) : Clean (timeStr time) :=
  clean_of_plain (plain_strfSeconds _)

theorem faithful_row_iff {s : Statement R} {hostId name : Text} {time : ℤ}
    (insert : s.IsInsert [hostId, timeStr time, name]) (clean : Clean hostId) :
    s.Faithful ↔ Clean name := by
  rw [faithful_insert_iff insert]
  constructor
  · exact fun all => all name (by simp)
  · intro named v member
    rcases List.mem_cons.mp member with rfl | member
    · exact clean
    · rcases List.mem_pair.mp member with rfl | rfl
      · exact clean_timeStr time
      · exact named

/-- The rows of one table, each with one name. -/
theorem faithful_rows_iff {α : Type} {row : α → Statement R} {nameOf : α → Text} {hostId : Text}
    {time : ℤ} (insert : ∀ x, (row x).IsInsert [hostId, timeStr time, nameOf x])
    (clean : Clean hostId) (entries : List α) :
    (∀ s ∈ entries.map row, s.Faithful) ↔ ∀ name ∈ entries.map nameOf, Clean name := by
  rw [List.forall_mem_map, List.forall_mem_map]
  exact forall_congr' fun x => imp_congr_right fun _ => faithful_row_iff (insert x) clean

theorem faithful_host_iff (hostId hostName : Text) :
    (Statement.insertHost hostId hostName : Statement R).Faithful ↔
      Clean hostId ∧ Clean hostName := by
  rw [faithful_insert_iff (isInsert_host hostId hostName)]
  simp [Clean]

theorem faithful_memory_iff (hostId : Text) (time : ℤ) (memInfo : MemInfo R) :
    (Statement.insertMemory hostId time memInfo).Faithful ↔ Clean hostId := by
  rw [faithful_insert_iff (isInsert_memory hostId time memInfo)]
  constructor
  · exact fun all => all hostId List.mem_cons_self
  · intro clean v member
    rcases List.mem_pair.mp member with rfl | rfl
    · exact clean
    · exact clean_timeStr time

/-- **The statements of a report are faithful exactly when its names are clean.**  The
statements for the report of a new host, whatever the clock says, all lex to their fixed
text and numbers with each name as the value of one literal if and only if every name of
the report holds no quote, no NUL, and no backslash but before `%` or `_`. -/
theorem statements_faithful_iff [Zero R] (info : MonitorInfo R) (times : StoreTimes) :
    (∀ s ∈ statements info times, s.Faithful) ↔ ∀ name ∈ names info, Clean name := by
  simp only [statements, names, List.forall_mem_append, List.forall_mem_cons, List.not_mem_nil,
    false_implies, implies_true, and_true, faithful_host_iff, faithful_select_iff]
  change (Clean info.name ∧ _) ∧ _ ↔ _
  by_cases host : Clean info.name
  · have hostId := clean_newHostId host times.created
    rw [cpuStatements, softIrqStatements, memoryStatements, diskStatements, networkStatements,
      faithful_rows_iff (fun x => isInsert_cpu _ times.cpu x info.cpuLoadOrUnset) hostId,
      faithful_rows_iff (fun x => isInsert_softIrq _ times.softIrq x) hostId,
      faithful_rows_iff (fun x => isInsert_disk _ times.disk x) hostId,
      faithful_rows_iff (fun x => isInsert_network _ times.network x) hostId,
      List.forall_mem_singleton, faithful_memory_iff]
    simp only [host, hostId, true_and, and_self]
  · constructor
    · exact fun faithful => absurd faithful.1.1 host
    · exact fun clean => absurd clean.1 host

end Faithful

/-! ## A host with a quote in its name -/

/-- A report that holds nothing but the name `o'neil`. -/
def quoteReport : MonitorInfo ℚ := .named "o'neil".toList

/-- The first statement for this report has an open literal, so it is no statement at
all. -/
theorem statements_quote_unfaithful :
    ¬ ∀ s ∈ statements quoteReport ⟨0, 0, 0, 0, 0, 0⟩, s.Faithful := by
  intro faithful
  have select := faithful (.selectHost "o'neil".toList) List.mem_cons_self
  have open' : lex (cString (Statement.selectHost "o'neil".toList : Statement ℚ).text) = none := by
    decide +kernel
  rw [Statement.Faithful, open'] at select
  cases select

end LinuxMonitor.PerformanceServer
