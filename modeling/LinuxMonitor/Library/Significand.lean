import Mathlib.Data.Nat.Dist
import Mathlib.Data.Nat.Log
import Mathlib.Tactic.Ring

/-!
# Rounding to a significand

A floating-point type with a significand of `p` bits holds the natural numbers `m * 2 ^ e`
with `m < 2 ^ p`, as long as the exponent fits.  Converting a number to it rounds to the
nearest such number, and to the even one of two.

* `dist_roundTo_le`: no number with a significand of `p` bits is nearer.
* `representable_roundTo`: the rounded number has a significand of `p` bits.
* `roundTo_mono`: rounding keeps the order.
* `dist_roundTo_mul_le`: the relative error.
* `dist_roundTo_le_errorBound`: the error against the unit of the number.
* `roundTo_eq_self_iff`: **exactly the numbers with a significand of `p` bits are kept.**
-/

set_option autoImplicit false

namespace LinuxMonitor.Library

/-- The number has a significand of `p` bits. -/
def Representable (p n : ℕ) : Prop := ∃ m e, m < 2 ^ p ∧ n = m * 2 ^ e

/-- The distance of the neighbours of `n` with a significand of `p` bits. -/
def ulp (p n : ℕ) : ℕ := 2 ^ (n.log2 + 1 - p)

/-- The nearest number with a significand of `p` bits, ties to even. -/
def roundTo (p n : ℕ) : ℕ :=
  let below := n / ulp p n
  let part := n % ulp p n
  if 2 * part < ulp p n ∨ (2 * part = ulp p n ∧ below % 2 = 0) then below * ulp p n
  else (below + 1) * ulp p n

theorem ulp_pos (p n : ℕ) : 0 < ulp p n := Nat.two_pow_pos _

/-- Below the leading bit the significand of `n` has room for all its units. -/
theorem div_ulp_lt (p n : ℕ) : n / ulp p n < 2 ^ p := by
  rw [Nat.div_lt_iff_lt_mul (ulp_pos p n), ulp, ← Nat.pow_add]
  exact Nat.lt_log2_self.trans_le (Nat.pow_le_pow_right (by decide) (by omega))

/-- Between a multiple of the unit and the next there is no number with a significand of
`p` bits. -/
theorem le_or_le_of_representable {p n k : ℕ} (representable : Representable p k) :
    k ≤ n / ulp p n * ulp p n ∨ (n / ulp p n + 1) * ulp p n ≤ k := by
  obtain ⟨m, e, small, rfl⟩ := representable
  by_cases aligned : ulp p n ∣ m * 2 ^ e
  · obtain ⟨t, multiple⟩ := aligned
    rw [multiple, Nat.mul_comm _ t]
    rcases Nat.lt_or_ge (n / ulp p n) t with above | below
    · exact Or.inr (Nat.mul_le_mul_right _ above)
    · exact Or.inl (Nat.mul_le_mul_right _ below)
  · -- a finer number is below the leading bit, which is a multiple of the unit
    left
    have fine : e < n.log2 + 1 - p := by
      by_contra coarse
      exact aligned (Dvd.dvd.mul_left (Nat.pow_dvd_pow 2 (Nat.le_of_not_lt coarse)) m)
    have room : 0 < p := by
      rcases Nat.eq_zero_or_pos p with rfl | room
      · rw [Nat.lt_one_iff.mp small, Nat.zero_mul] at aligned
        exact absurd (Nat.dvd_zero _) aligned
      · exact room
    have nonzero : n ≠ 0 := by
      rintro rfl
      rw [Nat.log2_zero] at fine
      omega
    have leading : 2 ^ (p - 1) * ulp p n = 2 ^ n.log2 := by
      rw [ulp, ← Nat.pow_add]
      congr 1
      omega
    have multiple : 2 ^ (p - 1) ≤ n / ulp p n := by
      rw [Nat.le_div_iff_mul_le (ulp_pos p n), leading]
      exact Nat.log2_self_le nonzero
    calc m * 2 ^ e ≤ 2 ^ p * 2 ^ e := Nat.mul_le_mul_right _ small.le
      _ = 2 ^ (p + e) := (Nat.pow_add 2 p e).symm
      _ ≤ 2 ^ n.log2 := Nat.pow_le_pow_right (by decide) (by omega)
      _ = 2 ^ (p - 1) * ulp p n := leading.symm
      _ ≤ n / ulp p n * ulp p n := Nat.mul_le_mul_right _ multiple

/-- **No number with a significand of `p` bits is nearer.** -/
theorem dist_roundTo_le {p n k : ℕ} (representable : Representable p k) :
    Nat.dist n (roundTo p n) ≤ Nat.dist n k := by
  have parts : n / ulp p n * ulp p n + n % ulp p n = n := Nat.div_add_mod' n (ulp p n)
  have part := Nat.mod_lt n (ulp_pos p n)
  have next : (n / ulp p n + 1) * ulp p n = n / ulp p n * ulp p n + ulp p n := Nat.succ_mul _ _
  have outside := le_or_le_of_representable (n := n) representable
  simp only [roundTo, Nat.dist]
  split <;> omega

/-- **The rounded number has a significand of `p` bits.** -/
theorem representable_roundTo {p : ℕ} (room : 0 < p) (n : ℕ) : Representable p (roundTo p n) := by
  have below := div_ulp_lt p n
  simp only [roundTo]
  split
  · exact ⟨_, _, below, rfl⟩
  · rcases Nat.lt_or_eq_of_le (Nat.succ_le_of_lt below) with inside | carry
    · exact ⟨_, _, inside, rfl⟩
    · refine ⟨1, p + (n.log2 + 1 - p), Nat.one_lt_two_pow (by omega), ?_⟩
      rw [Nat.one_mul, Nat.pow_add]
      exact congrArg (· * ulp p n) carry

/-- Rounding keeps the order: of two numbers that it brings into the other order each would be
nearer to what the other becomes. -/
theorem roundTo_mono {p : ℕ} (room : 0 < p) {a b : ℕ} (le : a ≤ b) : roundTo p a ≤ roundTo p b := by
  by_contra swapped
  have nearA := dist_roundTo_le (n := a) (representable_roundTo room b)
  have nearB := dist_roundTo_le (n := b) (representable_roundTo room a)
  simp only [Nat.dist] at nearA nearB
  have same : a = b := by omega
  rw [same] at swapped
  exact swapped le_rfl

/-- **Exactly the numbers with a significand of `p` bits are kept.** -/
theorem roundTo_eq_self_iff {p : ℕ} (room : 0 < p) (n : ℕ) :
    roundTo p n = n ↔ Representable p n := by
  constructor
  · intro kept
    rw [← kept]
    exact representable_roundTo room n
  · intro representable
    have near := dist_roundTo_le (n := n) representable
    rw [Nat.dist_self, Nat.le_zero] at near
    exact (Nat.eq_of_dist_eq_zero near).symm

/-- The error is at most half a unit. -/
theorem two_mul_dist_roundTo_le (p n : ℕ) : 2 * Nat.dist n (roundTo p n) ≤ ulp p n := by
  have parts : n / ulp p n * ulp p n + n % ulp p n = n := Nat.div_add_mod' n (ulp p n)
  have part := Nat.mod_lt n (ulp_pos p n)
  have next : (n / ulp p n + 1) * ulp p n = n / ulp p n * ulp p n + ulp p n := Nat.succ_mul _ _
  simp only [roundTo, Nat.dist]
  split <;> omega

/-- Half the unit of a number, and nothing when the number is a multiple of its unit. -/
def errorBound (p n : ℕ) : ℕ := if n % ulp p n = 0 then 0 else ulp p n / 2

/-- **The error against the unit of the number.** -/
theorem dist_roundTo_le_errorBound (p n : ℕ) : Nat.dist n (roundTo p n) ≤ errorBound p n := by
  have half := two_mul_dist_roundTo_le p n
  by_cases multiple : n % ulp p n = 0
  · have whole : n / ulp p n * ulp p n = n := Nat.div_mul_cancel (Nat.dvd_of_mod_eq_zero multiple)
    have kept : roundTo p n = n := by
      simp only [roundTo, multiple, Nat.mul_zero, ulp_pos, true_or, if_true, whole]
    rw [kept, Nat.dist_self]
    exact Nat.zero_le _
  · rw [errorBound, if_neg multiple]
    omega

/-- There is no error where the number has the significand. -/
theorem errorBound_of_representable {p n : ℕ} (room : 0 < p) (representable : Representable p n) :
    errorBound p n = 0 := by
  have kept := (roundTo_eq_self_iff room n).mpr representable
  have part := Nat.mod_lt n (ulp_pos p n)
  have whole : n % ulp p n = 0 := by
    have parts : n / ulp p n * ulp p n + n % ulp p n = n := Nat.div_add_mod' n (ulp p n)
    have next : (n / ulp p n + 1) * ulp p n = n / ulp p n * ulp p n + ulp p n :=
      Nat.succ_mul _ _
    simp only [roundTo] at kept
    split at kept <;> omega
  rw [errorBound, if_pos whole]

/-- **The relative error is at most a half of the last bit of the significand.** -/
theorem dist_roundTo_mul_le {p : ℕ} (room : 0 < p) (n : ℕ) :
    Nat.dist n (roundTo p n) * 2 ^ p ≤ n := by
  by_cases exact : n.log2 + 1 ≤ p
  · have small : n < 2 ^ p := Nat.lt_log2_self.trans_le (Nat.pow_le_pow_right (by decide) exact)
    have kept := (roundTo_eq_self_iff room n).mpr ⟨n, 0, small, (Nat.mul_one n).symm⟩
    rw [kept, Nat.dist_self, Nat.zero_mul]
    exact Nat.zero_le n
  · have half := two_mul_dist_roundTo_le p n
    have nonzero : n ≠ 0 := by
      rintro rfl
      rw [Nat.log2_zero] at exact
      omega
    have leading : ulp p n * 2 ^ (p - 1) = 2 ^ n.log2 := by
      rw [ulp, ← Nat.pow_add]
      congr 1
      omega
    calc Nat.dist n (roundTo p n) * 2 ^ p
        = 2 * Nat.dist n (roundTo p n) * 2 ^ (p - 1) := by
          rw [Nat.mul_comm 2, Nat.mul_assoc, ← Nat.pow_succ']
          congr 2
          omega
      _ ≤ ulp p n * 2 ^ (p - 1) := Nat.mul_le_mul_right _ half
      _ = 2 ^ n.log2 := leading
      _ ≤ n := Nat.log2_self_le nonzero

end LinuxMonitor.Library
