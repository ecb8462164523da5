import Mathlib.Algebra.Order.Group.Abs
import Mathlib.Data.List.Forall2
import Mathlib.Tactic.Linarith
import Mathlib.Tactic.Ring
import LinuxMonitor.Library.Join

/-!
# Aggregates of close columns

Two values of a column are close when both are NULL, or when they are numbers that differ
by at most a bound.  The aggregates of columns that are close entry by entry are as close as
the entries.

* `Close.sqlAvg`, `Close.sqlMax`, `Close.sqlMin`: **an aggregate moves by no more than its
  column does.**
-/

set_option autoImplicit false

namespace LinuxMonitor.Library

variable {R : Type*} [Field R] [LinearOrder R] {ε : R}

/-- Both are NULL, or the numbers differ by at most `ε`. -/
def Close (ε : R) (x y : Option R) : Prop := Option.Rel (fun a b => |a - b| ≤ ε) x y

/-- Only the numbers of a column count. -/
theorem forall₂_reduceOption {column column' : List (Option R)}
    (close : List.Forall₂ (Close ε) column column') :
    List.Forall₂ (fun a b => |a - b| ≤ ε) column.reduceOption column'.reduceOption := by
  induction close with
  | nil => exact .nil
  | cons entry _ ih =>
      cases entry with
      | some near => exact .cons near ih
      | none => exact ih

/-- Each value has a close one in the other list. -/
theorem exists_close {xs ys : List R} (close : List.Forall₂ (fun a b => |a - b| ≤ ε) xs ys) :
    (∀ a ∈ xs, ∃ b ∈ ys, |a - b| ≤ ε) ∧ ∀ b ∈ ys, ∃ a ∈ xs, |a - b| ≤ ε := by
  induction close with
  | nil => simp
  | @cons a b xs ys near _ ih =>
      constructor
      · intro x member
        rcases List.mem_cons.mp member with rfl | later
        · exact ⟨b, List.mem_cons_self, near⟩
        · obtain ⟨y, inside, found⟩ := ih.1 x later
          exact ⟨y, List.mem_cons_of_mem _ inside, found⟩
      · intro y member
        rcases List.mem_cons.mp member with rfl | later
        · exact ⟨a, List.mem_cons_self, near⟩
        · obtain ⟨x, inside, found⟩ := ih.2 y later
          exact ⟨x, List.mem_cons_of_mem _ inside, found⟩

/-- An aggregate that is NULL of the empty list only. -/
theorem close_of_values {xs ys : List R} (close : List.Forall₂ (fun a b => |a - b| ≤ ε) xs ys)
    {m m' : Option R} (empty : m = none ↔ xs = []) (empty' : m' = none ↔ ys = [])
    (values : ∀ a b, m = some a → m' = some b → |a - b| ≤ ε) : Close ε m m' := by
  cases m with
  | none =>
      rw [empty.mp rfl] at close
      rw [empty'.mpr (List.forall₂_nil_left_iff.mp close)]
      exact .none
  | some a =>
      cases m' with
      | none =>
          rw [empty'.mp rfl] at close
          cases empty.mpr (List.forall₂_nil_right_iff.mp close)
      | some b => exact .some (values a b rfl rfl)

variable [IsStrictOrderedRing R]

/-- **So are the maxima.** -/
theorem Close.sqlMax {column column' : List (Option R)}
    (close : List.Forall₂ (Close ε) column column') :
    Close ε (sqlMax column) (sqlMax column') := by
  have values := forall₂_reduceOption close
  obtain ⟨toRight, toLeft⟩ := exists_close values
  refine close_of_values values List.max?_eq_none_iff List.max?_eq_none_iff ?_
  intro a b first second
  obtain ⟨aMem, aMax⟩ := List.max?_eq_some_iff.mp first
  obtain ⟨bMem, bMax⟩ := List.max?_eq_some_iff.mp second
  obtain ⟨b', b'Mem, left⟩ := toRight a aMem
  obtain ⟨a', a'Mem, right⟩ := toLeft b bMem
  have below := bMax b' b'Mem
  have above := aMax a' a'Mem
  rw [abs_le] at left right ⊢
  constructor <;> linarith

/-- **And the minima.** -/
theorem Close.sqlMin {column column' : List (Option R)}
    (close : List.Forall₂ (Close ε) column column') :
    Close ε (sqlMin column) (sqlMin column') := by
  have values := forall₂_reduceOption close
  obtain ⟨toRight, toLeft⟩ := exists_close values
  refine close_of_values values List.min?_eq_none_iff List.min?_eq_none_iff ?_
  intro a b first second
  obtain ⟨aMem, aMin⟩ := List.min?_eq_some_iff.mp first
  obtain ⟨bMem, bMin⟩ := List.min?_eq_some_iff.mp second
  obtain ⟨b', b'Mem, left⟩ := toRight a aMem
  obtain ⟨a', a'Mem, right⟩ := toLeft b bMem
  have above := bMin b' b'Mem
  have below := aMin a' a'Mem
  rw [abs_le] at left right ⊢
  constructor <;> linarith

theorem dist_sum_le {xs ys : List R} (close : List.Forall₂ (fun a b => |a - b| ≤ ε) xs ys) :
    |xs.sum - ys.sum| ≤ xs.length * ε := by
  induction close with
  | nil => simp
  | @cons a b xs ys near _ ih =>
      calc |(a :: xs).sum - (b :: ys).sum|
          = |(a - b) + (xs.sum - ys.sum)| := by
            rw [List.sum_cons, List.sum_cons]
            congr 1
            ring
        _ ≤ |a - b| + |xs.sum - ys.sum| := abs_add_le _ _
        _ ≤ ε + xs.length * ε := add_le_add near ih
        _ = (a :: xs).length * ε := by
            rw [List.length_cons]
            push_cast
            ring

/-- **The averages are as close as the entries.** -/
theorem Close.sqlAvg {column column' : List (Option R)}
    (close : List.Forall₂ (Close ε) column column') :
    Close ε (sqlAvg column) (sqlAvg column') := by
  have values := forall₂_reduceOption close
  have sums := dist_sum_le values
  rw [sqlAvg_eq, sqlAvg_eq, ← values.length_eq]
  by_cases empty : column.reduceOption.length = 0
  · rw [if_pos empty, if_pos empty]
    exact .none
  · rw [if_neg empty, if_neg empty]
    have positive : (0 : R) < column.reduceOption.length :=
      Nat.cast_pos.mpr (Nat.pos_of_ne_zero empty)
    refine .some ?_
    rw [← sub_div, abs_div, abs_of_pos positive, div_le_iff₀ positive, mul_comm]
    exact sums

end LinuxMonitor.Library
