import Mathlib.Algebra.Order.Floor.Ring
import Mathlib.Tactic.FieldSimp
import Mathlib.Tactic.Linarith
import LinuxMonitor.Library.StdToString

/-!
# Printed numbers, read back

A reader of the decimal numbers that `std::to_string` prints: digits, digits with a
fraction, and either of them behind a sign.

* `readNumber_decimal`: a natural number is read exactly.
* `readNumber_fixedPoint`: what is read of a printed floating-point number is the number
  with six decimals that is nearest to it.
* `dist_sixDecimals_le`: **that is off by at most half a millionth**, and no number with six
  decimals is nearer (`dist_roundHalfEven_le`).
* `readNumber_toString`: the words for infinities and NaNs are no numbers.
-/

set_option autoImplicit false

namespace LinuxMonitor.Library

/-! ## The reader -/

/-- The text is a run of digits. -/
def IsNumeral (t : Text) : Prop := t ≠ [] ∧ ∀ c ∈ t, c.isDigit = true

instance : DecidablePred IsNumeral := fun t =>
  have := List.decidableBAll (p := fun c : Char => c.isDigit = true) t
  inferInstanceAs (Decidable (t ≠ [] ∧ ∀ c ∈ t, c.isDigit = true))

/-- The value of digits, or of digits with a fraction. -/
def readUnsigned (t : Text) : Option ℚ :=
  match t.splitOn '.' with
  | [whole] => if IsNumeral whole then some (digitsValue whole) else none
  | [whole, part] =>
      if IsNumeral whole ∧ IsNumeral part then
        some (digitsValue whole + digitsValue part / 10 ^ part.length)
      else none
  | _ => none

/-- The value of a decimal number with an optional sign. -/
def readNumber (t : Text) : Option ℚ :=
  if t.head? = some '-' then (readUnsigned t.tail).map Neg.neg else readUnsigned t

/-! ## Natural numbers -/

theorem isNumeral_decimal (n : ℕ) : IsNumeral (decimal n) :=
  ⟨decimal_ne_nil n, fun _ => isDigit_of_mem_decimal⟩

theorem IsNumeral.not_mem {t : Text} (numeral : IsNumeral t) {c : Char}
    (other : c.isDigit = false) : c ∉ t :=
  fun member => ne_of_isDigit (numeral.2 c member) other rfl

theorem IsNumeral.no_sign {t u : Text} (numeral : IsNumeral t) : (t ++ u).head? ≠ some '-' := by
  obtain ⟨c, t, rfl⟩ := List.exists_cons_of_ne_nil numeral.1
  intro sign
  exact ne_of_isDigit (numeral.2 c List.mem_cons_self) (by decide) (Option.some.inj sign)

theorem readUnsigned_numeral {t : Text} (numeral : IsNumeral t) :
    readUnsigned t = some (digitsValue t : ℚ) := by
  rw [readUnsigned, List.splitOn_eq_singleton (numeral.not_mem rfl)]
  exact if_pos numeral

theorem readUnsigned_point {whole part : Text} (first : IsNumeral whole)
    (second : IsNumeral part) : readUnsigned (whole ++ '.' :: part) =
      some (digitsValue whole + digitsValue part / 10 ^ part.length : ℚ) := by
  rw [readUnsigned, List.splitOn_append_cons_self_of_not_mem (first.not_mem rfl),
    List.splitOn_eq_singleton (second.not_mem rfl)]
  exact if_pos ⟨first, second⟩

theorem readNumber_negative (t : Text) :
    readNumber ('-' :: t) = (readUnsigned t).map Neg.neg :=
  if_pos rfl

/-- **A printed natural number is read back.** -/
theorem readNumber_decimal (n : ℕ) : readNumber (decimal n) = some (n : ℚ) := by
  have unsigned : (decimal n).head? ≠ some '-' := by
    have sign := (isNumeral_decimal n).no_sign (u := [])
    rwa [List.append_nil] at sign
  rw [readNumber, if_neg unsigned, readUnsigned_numeral (isNumeral_decimal n),
    digitsValue_decimal]

/-! ## Zeros in front -/

theorem isNumeral_padZero {width n : ℕ} : IsNumeral (padZero width (decimal n)) := by
  refine ⟨List.append_ne_nil_of_right_ne_nil _ (decimal_ne_nil n), ?_⟩
  intro c member
  rcases List.mem_append.mp member with zero | digit
  · rw [List.eq_of_mem_replicate zero]
    rfl
  · exact isDigit_of_mem_decimal digit

/-- Zeros in front do not count. -/
theorem digitsValue_padZero (width n : ℕ) : digitsValue (padZero width (decimal n)) = n := by
  rw [digitsValue, padZero, Nat.ofDigitChars_append, Nat.ofDigitChars_replicate_zero, Nat.mul_zero]
  exact digitsValue_decimal n

theorem length_padZero {width n : ℕ} (room : 0 < width) (small : n < 10 ^ width) :
    (padZero width (decimal n)).length = width := by
  have short : (decimal n).length ≤ width :=
    (Nat.length_toDigits_le_iff (by decide) room).mpr small
  rw [padZero, List.length_append, List.length_replicate]
  omega

/-! ## Six decimals -/

/-- The nearest number with six decimals, the even one of two. -/
def sixDecimals (x : ℚ) : ℚ :=
  let size : ℚ := roundHalfEven (|x| * 10 ^ 6) / 10 ^ 6
  if x < 0 then -size else size

/-- No natural number is nearer than the rounded one. -/
theorem dist_roundHalfEven_le {x : ℚ} (nonneg : 0 ≤ x) :
    |(roundHalfEven x : ℚ) - x| ≤ 1 / 2 := by
  have floor : ((⌊x⌋.toNat : ℕ) : ℚ) = ⌊x⌋ := by
    rw [← Int.cast_natCast, Int.toNat_of_nonneg (Int.floor_nonneg.mpr nonneg)]
  have below := Int.floor_le x
  have above := Int.lt_floor_add_one x
  unfold roundHalfEven
  dsimp only
  rw [floor]
  split
  · rw [floor, abs_le]
    constructor <;> linarith
  · split
    · rename_i tie
      rw [floor, abs_le]
      constructor <;> linarith [tie.1]
    · rw [Nat.cast_add, floor, Nat.cast_one, abs_le]
      constructor <;> linarith

/-- **A value and what is printed of it differ by at most half a millionth.** -/
theorem dist_sixDecimals_le (x : ℚ) : |sixDecimals x - x| ≤ 1 / (2 * 10 ^ 6) := by
  have near := dist_roundHalfEven_le (x := |x| * 10 ^ 6) (by positivity)
  have scaled : |(roundHalfEven (|x| * 10 ^ 6) : ℚ) / 10 ^ 6 - abs x| ≤ 1 / (2 * 10 ^ 6) := by
    have whole : (roundHalfEven (|x| * 10 ^ 6) : ℚ) / 10 ^ 6 - |x| =
        ((roundHalfEven (|x| * 10 ^ 6) : ℚ) - |x| * 10 ^ 6) / 10 ^ 6 := by
      field_simp
    rw [whole, abs_div, abs_of_pos (by norm_num : (0 : ℚ) < 10 ^ 6), div_le_iff₀ (by norm_num)]
    linarith
  rw [sixDecimals]
  split
  · rename_i negative
    rw [abs_of_neg negative] at scaled ⊢
    rw [← abs_neg]
    convert scaled using 2
    ring
  · rename_i positive
    rwa [abs_of_nonneg (not_lt.mp positive)] at scaled ⊢

/-- The digits before and behind the point make up the rounded number. -/
theorem readUnsigned_scaled (scaled : ℕ) :
    readUnsigned (decimal (scaled / 10 ^ 6) ++ '.' :: padZero 6 (decimal (scaled % 10 ^ 6))) =
      some (scaled / 10 ^ 6 : ℚ) := by
  have small : scaled % 10 ^ 6 < 10 ^ 6 := Nat.mod_lt _ (by decide)
  rw [readUnsigned_point (isNumeral_decimal _) isNumeral_padZero, digitsValue_decimal,
    digitsValue_padZero, length_padZero (by decide) small]
  have parts : (scaled : ℚ) = (10 ^ 6 : ℕ) * (scaled / 10 ^ 6 : ℕ) + (scaled % 10 ^ 6 : ℕ) := by
    exact_mod_cast (Nat.div_add_mod scaled (10 ^ 6)).symm
  rw [parts]
  congr 1
  push_cast
  ring

/-- **A printed floating-point number is read as the nearest number with six decimals.** -/
theorem readNumber_fixedPoint (x : ℚ) : readNumber (fixedPoint x) = some (sixDecimals x) := by
  rw [fixedPoint, sixDecimals]
  split
  · rw [readNumber_negative, readUnsigned_scaled]
    rfl
  · rw [readNumber, if_neg (isNumeral_decimal _).no_sign, readUnsigned_scaled]

theorem mem_fixedPoint {x : ℚ} {c : Char} (member : c ∈ fixedPoint x) :
    c = '-' ∨ c = '.' ∨ c.isDigit = true := by
  have digits : ∀ {n : ℕ}, c ∈ decimal (n / 10 ^ 6) ++ '.' :: padZero 6 (decimal (n % 10 ^ 6)) →
      c = '.' ∨ c.isDigit = true := by
    intro n member
    rcases List.mem_append.mp member with whole | rest
    · exact Or.inr (isDigit_of_mem_decimal whole)
    · rcases List.mem_cons.mp rest with point | part
      · exact Or.inl point
      · exact Or.inr (isNumeral_padZero.2 c part)
  rw [fixedPoint] at member
  split at member
  · rcases List.mem_cons.mp member with sign | rest
    · exact Or.inl sign
    · exact Or.inr (digits rest)
  · exact Or.inr (digits member)

theorem fixedPoint_ne_nil (x : ℚ) : fixedPoint x ≠ [] := by
  rw [fixedPoint]
  split
  · exact List.cons_ne_nil _ _
  · exact List.append_ne_nil_of_left_ne_nil (decimal_ne_nil _) _

/-- What is read of a value that `std::to_string` printed. -/
def FloatValue.printed : FloatValue → Option ℚ
  | .finite x => some (sixDecimals x)
  | _ => none

/-- **Only the finite values are printed as numbers.** -/
theorem readNumber_toString (x : FloatValue) : readNumber x.toString = x.printed := by
  cases x with
  | finite x => exact readNumber_fixedPoint x
  | infinite negative => cases negative <;> rfl
  | nan negative => cases negative <;> rfl

end LinuxMonitor.Library
