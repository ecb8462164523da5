import Mathlib.Algebra.BigOperators.Group.Finset.Basic
import Mathlib.Data.Int.ModEq
import Mathlib.Data.UInt
import Mathlib.Data.List.Chain

/-!
# Differences of 64-bit counters

A counter of 64 bits holds the residue of a true count.  The difference of two
readings is the growth of the count as long as the count grew by less than `2 ^ 64`
(`toNat_sub_of_residue`); a reading below the earlier one gives a difference that
exceeds the reading itself (`toNat_sub_le_iff`), which is how a wrapped difference
shows.  A counter of fewer bits gives the growth only while it does not start again
(`toNat_sub_of_narrow`).  A sum of 64-bit numbers is the sum of the numbers modulo `2 ^ 64`
(`toNat_finsetSum_modEq`, `toNat_listSum_modEq`).
-/

set_option autoImplicit false

namespace LinuxMonitor.Library

/-- The counter reads the residue of the count. -/
def ReadsResidue (reading : UInt64) (count : ℕ) : Prop := reading.toNat = count % 2 ^ 64

/-- Counts that never decrease and grow by less than `2 ^ 64` from one to the next. -/
def GrowsSlowly (counts : List ℕ) : Prop :=
  counts.IsChain fun earlier later => earlier ≤ later ∧ later < earlier + 2 ^ 64

/-- **The difference of two readings is the growth of the count.** -/
theorem toNat_sub_of_residue {earlier later : UInt64} {x y : ℕ}
    (readsEarlier : ReadsResidue earlier x) (readsLater : ReadsResidue later y)
    (grows : x ≤ y) (slowly : y < x + 2 ^ 64) : (later - earlier).toNat = y - x := by
  rw [ReadsResidue] at readsEarlier readsLater
  rw [UInt64.toNat_sub, readsEarlier, readsLater]
  omega

theorem ReadsResidue.zero : ReadsResidue 0 0 := rfl

theorem ReadsResidue.add {a b : UInt64} {x y : ℕ} (readsFirst : ReadsResidue a x)
    (readsSecond : ReadsResidue b y) : ReadsResidue (a + b) (x + y) := by
  rw [ReadsResidue] at readsFirst readsSecond ⊢
  rw [UInt64.toNat_add, readsFirst, readsSecond]
  omega

/-- A sum of numbers stored in 64 bits reads the sum of the numbers. -/
theorem readsResidue_sum {α : Type*} (xs : List α) {stored : α → UInt64} {count : α → ℕ}
    (reads : ∀ x ∈ xs, ReadsResidue (stored x) (count x)) :
    ReadsResidue (xs.map stored).sum (xs.map count).sum := by
  induction xs with
  | nil => exact .zero
  | cons x xs ih =>
      rw [List.map_cons, List.sum_cons, List.map_cons, List.sum_cons]
      exact (reads x List.mem_cons_self).add (ih fun y member =>
        reads y (List.mem_cons_of_mem _ member))

/-- A difference is at most the newer reading exactly when the reading did not go
down. -/
theorem toNat_sub_le_iff {earlier later : UInt64} :
    (later - earlier).toNat ≤ later.toNat ↔ earlier ≤ later := by
  have bound := earlier.toNat_lt
  have bound' := later.toNat_lt
  rw [UInt64.toNat_sub, UInt64.le_iff_toNat_le]
  omega

/-- **A counter of 32 bits that is subtracted in 64 bits.**  The difference is the growth of
the count exactly when the counter has not started again in between. -/
theorem toNat_sub_of_narrow {earlier later : UInt64} {x y : ℕ}
    (readsEarlier : earlier.toNat = x % 2 ^ 32) (readsLater : later.toNat = y % 2 ^ 32)
    (grows : x ≤ y) (slowly : y < x + 2 ^ 32) :
    (later - earlier).toNat = y - x ↔ x / 2 ^ 32 = y / 2 ^ 32 := by
  rw [UInt64.toNat_sub, readsEarlier, readsLater]
  omega

/-- A difference is the newer reading exactly when the earlier one is zero. -/
theorem toNat_sub_eq_self_iff {earlier later : UInt64} :
    (later - earlier).toNat = later.toNat ↔ earlier.toNat = 0 := by
  have bound := earlier.toNat_lt
  have bound' := later.toNat_lt
  rw [UInt64.toNat_sub]
  omega

/-! ## Sums of 64-bit numbers -/

theorem toNat_add_modEq (a b : UInt64) : (a + b).toNat ≡ a.toNat + b.toNat [MOD 2 ^ 64] := by
  rw [UInt64.toNat_add]
  exact Nat.mod_modEq _ _

theorem toNat_finsetSum_modEq {ι : Type*} (s : Finset ι) (f : ι → UInt64) :
    (∑ i ∈ s, f i).toNat ≡ ∑ i ∈ s, (f i).toNat [MOD 2 ^ 64] := by
  classical
  induction s using Finset.induction_on with
  | empty => rfl
  | insert i s fresh ih =>
      rw [Finset.sum_insert fresh, Finset.sum_insert fresh]
      exact (toNat_add_modEq _ _).trans (Nat.ModEq.add_left _ ih)

theorem toNat_listSum_modEq (xs : List UInt64) :
    xs.sum.toNat ≡ (xs.map UInt64.toNat).sum [MOD 2 ^ 64] := by
  induction xs with
  | nil => rfl
  | cons x xs ih =>
      rw [List.sum_cons, List.map_cons, List.sum_cons]
      exact (toNat_add_modEq _ _).trans (Nat.ModEq.add_left _ ih)

end LinuxMonitor.Library
