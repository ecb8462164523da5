import Mathlib.Data.Int.Log
import Mathlib.Algebra.Order.Field.Rat
import Mathlib.Data.Rat.Floor
import LinuxMonitor.Library.Number
import LinuxMonitor.Library.Significand

/-!
# Rounding numbers with a fraction

The nearest number with a significand of `p` bits to a rational number, the one with an even
significand of two.  The exponent is not bounded here.

* `dist_roundFloat_le`: **the relative error is at most a half of the last bit.**
* `roundFloat_natCast`: of a natural number it is the rounding to a significand of natural
  numbers.
* `dist_roundFloat_twice_le`: rounding to a wider significand first adds little.
-/

set_option autoImplicit false

namespace LinuxMonitor.Library

/-- The distance of the neighbours of `x` with a significand of `p` bits. -/
def floatUnit (p : ℕ) (x : ℚ) : ℚ := 2 ^ (Int.log 2 |x| + 1 - p)

/-- The nearest number with a significand of `p` bits, ties to even. -/
def roundFloat (p : ℕ) (x : ℚ) : ℚ :=
  let size := roundHalfEven (|x| / floatUnit p x) * floatUnit p x
  if x < 0 then -size else size

theorem floatUnit_pos (p : ℕ) (x : ℚ) : 0 < floatUnit p x := zpow_pos (by decide) _

/-- The leading bit counts for at most the number. -/
theorem floatUnit_mul_le (p : ℕ) {x : ℚ} (nonzero : x ≠ 0) :
    floatUnit p x * 2 ^ p ≤ 2 * |x| := by
  have leading : (2 : ℚ) ^ Int.log 2 |x| ≤ |x| := by
    exact_mod_cast Int.zpow_log_le_self (b := 2) (by decide) (abs_pos.mpr nonzero)
  calc floatUnit p x * 2 ^ p = 2 ^ (Int.log 2 |x| + 1 - p + p) := by
        rw [floatUnit, zpow_add₀ two_ne_zero _ (p : ℤ), zpow_natCast]
    _ = 2 * 2 ^ Int.log 2 |x| := by
        rw [sub_add_cancel, zpow_add₀ two_ne_zero, zpow_one, mul_comm]
    _ ≤ 2 * |x| := by linarith

theorem abs_roundFloat_sub (p : ℕ) (x : ℚ) : |roundFloat p x - x| =
    |(roundHalfEven (|x| / floatUnit p x) : ℚ) * floatUnit p x - abs x| := by
  rw [roundFloat]
  split
  · rename_i negative
    rw [abs_of_neg negative, ← abs_neg]
    congr 1
    ring
  · rename_i positive
    rw [abs_of_nonneg (not_lt.mp positive)]

/-- **The relative error is at most a half of the last bit of the significand.** -/
theorem dist_roundFloat_le (p : ℕ) (x : ℚ) : |roundFloat p x - x| * 2 ^ p ≤ |x| := by
  by_cases zero : x = 0
  · rw [zero]
    simp [roundFloat, roundHalfEven]
  · have unit := floatUnit_pos p x
    have near := dist_roundHalfEven_le (x := |x| / floatUnit p x) (by positivity)
    have scaled : |roundFloat p x - x| =
        |(roundHalfEven (|x| / floatUnit p x) : ℚ) - |x| / floatUnit p x| * floatUnit p x := by
      rw [abs_roundFloat_sub, ← abs_of_pos unit, ← abs_mul, abs_of_pos unit, sub_mul,
        div_mul_cancel₀ _ unit.ne']
    have leading := floatUnit_mul_le p zero
    have step : (0 : ℚ) < floatUnit p x * 2 ^ p := mul_pos unit (pow_pos two_pos p)
    calc |roundFloat p x - x| * 2 ^ p
        = |(roundHalfEven (|x| / floatUnit p x) : ℚ) - |x| / floatUnit p x| *
            (floatUnit p x * 2 ^ p) := by rw [scaled, mul_assoc]
      _ ≤ 1 / 2 * (floatUnit p x * 2 ^ p) := mul_le_mul_of_nonneg_right near step.le
      _ ≤ |x| := by linarith

/-! ## Natural numbers -/

theorem roundHalfEven_div (n : ℕ) {d : ℕ} (positive : 0 < d) :
    roundHalfEven ((n : ℚ) / d) =
      if 2 * (n % d) < d ∨ (2 * (n % d) = d ∧ n / d % 2 = 0) then n / d else n / d + 1 := by
  have unit : (0 : ℚ) < d := Nat.cast_pos.mpr positive
  have floor : ⌊(n : ℚ) / d⌋.toNat = n / d := by
    rw [Rat.floor_natCast_div_natCast]
    rfl
  have parts : (n : ℚ) = d * (n / d : ℕ) + (n % d : ℕ) := by
    exact_mod_cast (Nat.div_add_mod n d).symm
  have part : (n : ℚ) / d - (n / d : ℕ) = (n % d : ℕ) / d := by
    rw [sub_eq_iff_eq_add, div_eq_iff unit.ne', add_mul, div_mul_cancel₀ _ unit.ne']
    linarith
  have small : (n : ℚ) / d - (n / d : ℕ) < 1 / 2 ↔ 2 * (n % d) < d := by
    rw [part, div_lt_div_iff₀ unit two_pos, ← Nat.cast_lt (α := ℚ)]
    push_cast
    rw [one_mul, mul_comm]
  have tie : (n : ℚ) / d - (n / d : ℕ) = 1 / 2 ↔ 2 * (n % d) = d := by
    rw [part, div_eq_div_iff unit.ne' two_ne_zero, ← Nat.cast_inj (R := ℚ)]
    push_cast
    rw [one_mul, mul_comm]
  unfold roundHalfEven
  rw [floor]
  simp only [small, tie]
  by_cases below : 2 * (n % d) < d
  · rw [if_pos below, if_pos (Or.inl below)]
  · rw [if_neg below]
    simp only [below, false_or]

/-- **A natural number is rounded as among the natural numbers.** -/
theorem roundFloat_natCast (p n : ℕ) : roundFloat p n = (roundTo p n : ℕ) := by
  have nonneg : ¬ (n : ℚ) < 0 := not_lt.mpr (Nat.cast_nonneg n)
  have exponent : Int.log 2 |(n : ℚ)| = (n.log2 : ℤ) := by
    rw [abs_of_nonneg (Nat.cast_nonneg n), Int.log_natCast, Nat.log2_eq_log_two]
  have size : roundFloat p n =
      roundHalfEven ((n : ℚ) / floatUnit p n) * floatUnit p n := by
    rw [roundFloat, if_neg nonneg, abs_of_nonneg (Nat.cast_nonneg n)]
  rw [size]
  rcases Nat.lt_or_ge (n.log2 + 1) p with fine | coarse
  · -- the unit is below one, and the number a multiple of it
    obtain ⟨k, split⟩ := Nat.exists_eq_add_of_lt fine
    have unit : floatUnit p n = 1 / (2 ^ (k + 1) : ℕ) := by
      rw [floatUnit, exponent, one_div, Nat.cast_pow, Nat.cast_two, ← zpow_natCast, ← zpow_neg]
      congr 1
      omega
    have whole : (n : ℚ) / floatUnit p n = ((n * 2 ^ (k + 1) : ℕ) : ℚ) / (1 : ℕ) := by
      rw [unit]
      push_cast
      field_simp
    have one : ulp p n = 1 := by
      rw [ulp, show n.log2 + 1 - p = 0 by omega, pow_zero]
    rw [whole, roundHalfEven_div _ one_pos, unit, roundTo, one]
    simp [Nat.mod_one]
  · have unit : floatUnit p n = (ulp p n : ℕ) := by
      rw [floatUnit, exponent, ulp, Nat.cast_pow, Nat.cast_two, ← zpow_natCast]
      congr 1
      omega
    rw [unit, roundHalfEven_div n (ulp_pos p n), roundTo]
    split <;> push_cast <;> rfl

/-! ## Rounding twice -/

/-- **Rounding to 53 bits before rounding to 24** at most doubles the relative error. -/
theorem dist_roundFloat_twice_le (x : ℚ) :
    |roundFloat 24 (roundFloat 53 x) - x| ≤ |x| / 2 ^ 23 := by
  have first := dist_roundFloat_le 53 x
  have second := dist_roundFloat_le 24 (roundFloat 53 x)
  have size : |roundFloat 53 x| ≤ |roundFloat 53 x - x| + |x| := by
    calc |roundFloat 53 x| = |roundFloat 53 x - x + x| := by rw [sub_add_cancel]
      _ ≤ |roundFloat 53 x - x| + |x| := abs_add_le _ _
  have steps : |roundFloat 24 (roundFloat 53 x) - x| ≤
      |roundFloat 24 (roundFloat 53 x) - roundFloat 53 x| + |roundFloat 53 x - x| := by
    calc |roundFloat 24 (roundFloat 53 x) - x|
        = |(roundFloat 24 (roundFloat 53 x) - roundFloat 53 x) + (roundFloat 53 x - x)| := by
          rw [sub_add_sub_cancel]
      _ ≤ _ := abs_add_le _ _
  rw [le_div_iff₀ (by positivity)]
  norm_num at first second ⊢
  linarith [abs_nonneg x]

end LinuxMonitor.Library
