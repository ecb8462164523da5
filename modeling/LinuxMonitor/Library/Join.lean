import Mathlib.Algebra.BigOperators.Group.Multiset.Basic
import Mathlib.Algebra.Order.Field.Basic
import Mathlib.Algebra.Order.Group.Multiset
import Mathlib.Data.List.Dedup
import Mathlib.Data.List.ReduceOption

/-!
# Left joins, groups and aggregates

A left join pairs every row of the left table with each row of the right table that matches
it, and with NULL when there is none.  An aggregate ignores NULL, and is NULL when nothing is
left.

When all left rows match the same right rows the join repeats every left row equally often,
and every right row, too.  Two lists are `Proportional` when one holds each item some fixed
number of times as often as the other.

* `filter_leftJoin`: a condition on the left rows may be checked before the join.
* `groupBy_perm`: the groups are those of the keys, in some order.
* `proportional_left`, `proportional_right`: **a join in which all left rows match the same
  right rows is proportional to both tables.**
* `SameValues.sqlAvg`, `SameValues.sqlMax`, `SameValues.sqlMin`: **columns that are
  proportional apart from NULL have the same aggregates.**
-/

set_option autoImplicit false

namespace LinuxMonitor.Library

variable {α β κ : Type*}

/-! ## Joins and groups -/

/-- The matching rows, or NULL when there is none. -/
def orNull (rows : List β) : List (Option β) :=
  match rows with
  | [] => [none]
  | rows => rows.map some

/-- `left LEFT JOIN right ON …` -/
def leftJoin (on : α → β → Bool) (left : List α) (right : List β) : List (α × Option β) :=
  left.flatMap fun a => (orNull (right.filter (on a))).map fun b => (a, b)

/-- `GROUP BY` -/
def groupBy [DecidableEq κ] (key : α → κ) (rows : List α) : List (List α) :=
  (rows.map key).dedup.map fun k => rows.filter fun row => key row = k

theorem orNull_ne_nil (rows : List β) : orNull rows ≠ [] := by
  cases rows <;> simp [orNull]

theorem mem_orNull {rows : List β} (nonempty : rows ≠ []) {x : Option β} :
    x ∈ orNull rows ↔ ∃ row ∈ rows, some row = x := by
  cases rows with
  | nil => exact absurd rfl nonempty
  | cons row rows => exact List.mem_map

/-- **A condition on the left rows may be checked before the join.** -/
theorem filter_leftJoin (on : α → β → Bool) (p : α → Bool) (left : List α) (right : List β) :
    (leftJoin on left right).filter (fun row => p row.1) = leftJoin on (left.filter p) right := by
  induction left with
  | nil => rfl
  | cons a left ih =>
      rw [leftJoin, List.flatMap_cons, List.filter_append, ← leftJoin, ih, List.filter_cons]
      by_cases kept : p a = true
      · rw [if_pos kept, List.filter_eq_self.mpr]
        · rfl
        · intro row member
          obtain ⟨b, _, rfl⟩ := List.mem_map.mp member
          exact kept
      · rw [if_neg kept, List.filter_eq_nil_iff.mpr]
        · rfl
        · intro row member
          obtain ⟨b, _, rfl⟩ := List.mem_map.mp member
          exact kept

theorem mem_of_mem_leftJoin {on : α → β → Bool} {left : List α} {right : List β}
    {row : α × Option β} (member : row ∈ leftJoin on left right) : row.1 ∈ left := by
  obtain ⟨a, inside, paired⟩ := List.mem_flatMap.mp member
  obtain ⟨b, _, rfl⟩ := List.mem_map.mp paired
  exact inside

theorem leftJoin_ne_nil (on : α → β → Bool) {left : List α} (right : List β)
    (nonempty : left ≠ []) : leftJoin on left right ≠ [] := by
  obtain ⟨a, left, rfl⟩ := List.exists_cons_of_ne_nil nonempty
  simp [leftJoin, orNull_ne_nil]

/-- Rows with one key are one group. -/
theorem groupBy_of_forall [DecidableEq κ] {key : α → κ} {rows : List α} {k : κ}
    (nonempty : rows ≠ []) (same : ∀ row ∈ rows, key row = k) : groupBy key rows = [rows] := by
  have keys : (rows.map key).dedup = [k] := by
    rw [List.map_congr_left same, List.map_const']
    exact List.replicate_dedup (List.length_pos_iff.mpr nonempty).ne'
  rw [groupBy, keys, List.map_singleton, List.filter_eq_self.mpr]
  exact fun row member => decide_eq_true (same row member)

/-- The groups of rows that have the given keys, in some order. -/
theorem groupBy_perm [DecidableEq κ] {key : α → κ} {rows : List α} {keys : List κ}
    (nodup : keys.Nodup) (same : ∀ k, k ∈ rows.map key ↔ k ∈ keys) :
    (groupBy key rows).Perm (keys.map fun k => rows.filter fun row => key row = k) := by
  have perm : (rows.map key).dedup.Perm keys :=
    (List.perm_ext_iff_of_nodup (List.nodup_dedup _) nodup).mpr fun k => by
      rw [List.mem_dedup, same]
  exact perm.map _

/-- A group that is left holds the rows of its key. -/
theorem mem_groupBy [DecidableEq κ] {key : α → κ} {rows group : List α} :
    group ∈ groupBy key rows ↔
      ∃ row ∈ rows, group = rows.filter fun other => key other = key row := by
  simp only [groupBy, List.mem_map, List.mem_dedup]
  constructor
  · rintro ⟨k, ⟨row, member, rfl⟩, rfl⟩
    exact ⟨row, member, rfl⟩
  · rintro ⟨row, member, rfl⟩
    exact ⟨key row, ⟨row, member, rfl⟩, rfl⟩

/-- The row with a key of its own. -/
theorem filter_key_eq [DecidableEq κ] {key : α → κ} {rows : List α} (nodup : (rows.map key).Nodup)
    {row : α} (member : row ∈ rows) : (rows.filter fun other => key other = key row) = [row] := by
  induction rows with
  | nil => cases member
  | cons first rows ih =>
      obtain ⟨fresh, rest⟩ := List.nodup_cons.mp nodup
      rcases List.mem_cons.mp member with rfl | later
      · rw [List.filter_cons_of_pos (by simp), List.filter_eq_nil_iff.mpr]
        intro other inside same
        exact fresh (List.mem_map.mpr ⟨other, inside, of_decide_eq_true same⟩)
      · have differs : key first ≠ key row := fun same =>
          fresh (List.mem_map.mpr ⟨row, later, same.symm⟩)
        rw [List.filter_cons_of_neg (by simpa using differs), ih rest later]

/-! ## Proportional lists -/

/-- The first list holds each item a fixed number of times as often as the second. -/
def Proportional (xs ys : List α) : Prop :=
  ∃ k, 0 < k ∧ (xs : Multiset α) = k • (ys : Multiset α)

theorem Proportional.trans {xs ys zs : List α} (first : Proportional xs ys)
    (second : Proportional ys zs) : Proportional xs zs := by
  obtain ⟨k, positive, xs_eq⟩ := first
  obtain ⟨l, positive', ys_eq⟩ := second
  exact ⟨k * l, Nat.mul_pos positive positive', by rw [xs_eq, ys_eq, mul_nsmul']⟩

theorem Proportional.map {xs ys : List α} (f : α → β) (proportional : Proportional xs ys) :
    Proportional (xs.map f) (ys.map f) := by
  obtain ⟨k, positive, same⟩ := proportional
  refine ⟨k, positive, ?_⟩
  rw [← Multiset.map_coe, same, Multiset.map_nsmul, Multiset.map_coe]

theorem Proportional.mem_iff {xs ys : List α} (proportional : Proportional xs ys) {x : α} :
    x ∈ xs ↔ x ∈ ys := by
  obtain ⟨k, positive, same⟩ := proportional
  rw [← Multiset.mem_coe, same, Multiset.mem_nsmul_of_ne_zero positive.ne', Multiset.mem_coe]

section Joins

variable {on : α → β → Bool} {left : List α} {right rows : List β}
  (same : ∀ a ∈ left, right.filter (on a) = rows)
include same

theorem leftJoin_eq : leftJoin on left right =
    left.flatMap fun a => (orNull rows).map fun b => (a, b) :=
  List.flatMap_congr fun a member => by rw [same a member]

/-- **The left rows of a join.** -/
theorem proportional_left : Proportional ((leftJoin on left right).map Prod.fst) left := by
  refine ⟨(orNull rows).length, List.length_pos_iff.mpr (orNull_ne_nil rows), ?_⟩
  rw [leftJoin_eq same]
  clear same
  induction left with
  | nil => simp
  | cons a left ih =>
      have first : ((orNull rows).map fun b => (a, b)).map Prod.fst =
          List.replicate (orNull rows).length a := by
        rw [List.map_map]
        exact List.map_const'
      rw [List.flatMap_cons, List.map_append, ← Multiset.coe_add, ih, first, ← Multiset.cons_coe,
        Multiset.nsmul_cons, Multiset.coe_replicate, Multiset.nsmul_singleton]

/-- **The right rows of a join.** -/
theorem proportional_right (nonempty : left ≠ []) :
    Proportional ((leftJoin on left right).map Prod.snd) (orNull rows) := by
  refine ⟨left.length, List.length_pos_iff.mpr nonempty, ?_⟩
  rw [leftJoin_eq same]
  clear same nonempty
  induction left with
  | nil => simp
  | cons a left ih =>
      have second : ((orNull rows).map fun b => (a, b)).map Prod.snd = orNull rows := by
        rw [List.map_map]
        exact List.map_id _
      rw [List.flatMap_cons, List.map_append, ← Multiset.coe_add, ih, second, List.length_cons,
        succ_nsmul']

variable {γ : Type*}

/-- A column of the left table. -/
theorem proportional_left_column (column : α → γ) :
    Proportional ((leftJoin on left right).map fun row => column row.1) (left.map column) := by
  have rows := (proportional_left same).map column
  rwa [List.map_map] at rows

/-- A column of the right table, which may be NULL. -/
theorem proportional_right_column (nonempty : left ≠ []) (column : Option β → γ) :
    Proportional ((leftJoin on left right).map fun row => column row.2)
      ((orNull rows).map column) := by
  have rows := (proportional_right same nonempty).map column
  rwa [List.map_map] at rows

end Joins

/-! ## Aggregates -/

section Aggregates

variable {R : Type*}

/-- `AVG` -/
def sqlAvg [Field R] (column : List (Option R)) : Option R :=
  match column.reduceOption with
  | [] => none
  | values => some (values.sum / values.length)

/-- `MAX` -/
def sqlMax [LinearOrder R] (column : List (Option R)) : Option R := column.reduceOption.max?

/-- `MIN` -/
def sqlMin [LinearOrder R] (column : List (Option R)) : Option R := column.reduceOption.min?

theorem Proportional.reduceOption {column column' : List (Option R)}
    (proportional : Proportional column column') :
    Proportional column.reduceOption column'.reduceOption := by
  obtain ⟨k, positive, same⟩ := proportional
  have scaled : ∀ n : ℕ, (n • (column' : Multiset (Option R))).filterMap id =
      n • (column' : Multiset (Option R)).filterMap id := by
    intro n
    induction n with
    | zero => simp
    | succ n ih => rw [succ_nsmul, succ_nsmul, Multiset.filterMap_add, ih]
  refine ⟨k, positive, ?_⟩
  change ((column.filterMap id : List R) : Multiset R) = k • (column'.filterMap id : List R)
  rw [← Multiset.filterMap_coe, same, scaled, Multiset.filterMap_coe]

/-- The columns are proportional apart from NULL. -/
def SameValues (column column' : List (Option R)) : Prop :=
  Proportional column.reduceOption column'.reduceOption

/-- A column of rows that may be NULL holds the column of the rows. -/
theorem sameValues_orNull {column : List (Option R)} {rows : List β} {value : β → Option R}
    (proportional : Proportional column ((orNull rows).map fun row => row.bind value)) :
    SameValues column (rows.map value) := by
  have values : ((orNull rows).map fun row => row.bind value).reduceOption =
      (rows.map value).reduceOption := by
    cases rows with
    | nil => rfl
    | cons row rows => exact congrArg List.reduceOption (List.map_map (l := row :: rows))
  rw [SameValues, ← values]
  exact proportional.reduceOption

theorem sqlAvg_eq [Field R] (column : List (Option R)) :
    sqlAvg column =
      if column.reduceOption.length = 0 then none
      else some (column.reduceOption.sum / column.reduceOption.length) := by
  rw [Library.sqlAvg]
  cases column.reduceOption <;> rfl

/-- **Such columns have the same average.** -/
theorem SameValues.sqlAvg [Field R] [CharZero R] {column column' : List (Option R)}
    (same : SameValues column column') : sqlAvg column = sqlAvg column' := by
  obtain ⟨k, positive, scaled⟩ := same
  have length : column.reduceOption.length = k * column'.reduceOption.length := by
    rw [← Multiset.coe_card, scaled, Multiset.card_nsmul, Multiset.coe_card]
  have sum : column.reduceOption.sum = k * column'.reduceOption.sum := by
    rw [← Multiset.sum_coe, scaled, Multiset.sum_nsmul, Multiset.sum_coe, nsmul_eq_mul]
  rw [sqlAvg_eq, sqlAvg_eq, length, sum, Nat.cast_mul,
    mul_div_mul_left _ _ (Nat.cast_ne_zero.mpr positive.ne')]
  simp [positive.ne']

/-- **Such columns have the same maximum.** -/
theorem SameValues.sqlMax [LinearOrder R] {column column' : List (Option R)}
    (same : SameValues column column') : sqlMax column = sqlMax column' := by
  ext a
  rw [Library.sqlMax, Library.sqlMax, List.max?_eq_some_iff, List.max?_eq_some_iff]
  simp only [same.mem_iff]

/-- **Such columns have the same minimum.** -/
theorem SameValues.sqlMin [LinearOrder R] {column column' : List (Option R)}
    (same : SameValues column column') : sqlMin column = sqlMin column' := by
  ext a
  rw [Library.sqlMin, Library.sqlMin, List.min?_eq_some_iff, List.min?_eq_some_iff]
  simp only [same.mem_iff]

theorem sqlMax_map_eq_some_iff [LinearOrder R] {value : β → Option R} {rows : List β} {a : R} :
    sqlMax (rows.map value) = some a ↔ (∃ row ∈ rows, value row = some a) ∧
      ∀ row ∈ rows, ∀ b, value row = some b → b ≤ a := by
  rw [sqlMax, List.max?_eq_some_iff]
  simp only [List.reduceOption_mem_iff, List.mem_map]
  refine and_congr_right fun _ => ⟨?_, ?_⟩
  · exact fun upper row member b found => upper b ⟨row, member, found⟩
  · rintro upper b ⟨row, member, found⟩
    exact upper row member b found

/-- A column with a value has a maximum. -/
theorem exists_sqlMax [LinearOrder R] (value : β → Option R) {rows : List β} {row : β} {b : R}
    (member : row ∈ rows) (found : value row = some b) :
    ∃ a, sqlMax (rows.map value) = some a := by
  refine Option.ne_none_iff_exists'.mp fun none => ?_
  have empty := List.max?_eq_none_iff.mp none
  have inside : b ∈ (rows.map value).reduceOption :=
    List.reduceOption_mem_iff.mpr (List.mem_map.mpr ⟨row, member, found⟩)
  rw [empty] at inside
  cases inside

/-- The maximum of a column with at most one value. -/
theorem sqlMax_eq_of_mem_iff [LinearOrder R] {column : List (Option R)} {m : Option R}
    (values : ∀ a, a ∈ column.reduceOption ↔ m = some a) : sqlMax column = m := by
  ext a
  rw [sqlMax, List.max?_eq_some_iff]
  simp only [values]
  constructor
  · exact And.left
  · rintro rfl
    exact ⟨rfl, fun b same => (Option.some.inj same).ge⟩

end Aggregates

end LinuxMonitor.Library
