import Mathlib.Algebra.Order.Floor.Defs
import Mathlib.Data.Rat.Floor
import Mathlib.Data.UInt
import LinuxMonitor.Library.Text

/-!
# `std::to_string`

What the conversions of numbers to text print.  A floating-point number is printed with
six decimals, rounded to the nearest and to even between two; infinities and NaNs are
printed as words.

A printed number holds no quote, no backslash and no NUL (`plain_decimal`, and the field
`plain` of the class for floating-point types).
-/

set_option autoImplicit false

namespace LinuxMonitor.Library

/-- The character is no quote, no backslash and no NUL. -/
def PlainChar (c : Char) : Prop := c ≠ '\'' ∧ c ≠ '\\' ∧ c ≠ '\x00'

/-- The text holds no quote, no backslash and no NUL. -/
def Plain (t : Text) : Prop := ∀ c ∈ t, PlainChar c

instance : DecidablePred PlainChar :=
  fun c => inferInstanceAs (Decidable (c ≠ '\'' ∧ c ≠ '\\' ∧ c ≠ '\x00'))

instance : DecidablePred Plain := fun t => List.decidableBAll (p := PlainChar) t

theorem Plain.append {s t : Text} (first : Plain s) (second : Plain t) : Plain (s ++ t) := by
  intro c member
  rcases List.mem_append.mp member with here | there
  · exact first c here
  · exact second c there

theorem Plain.cons {c : Char} {t : Text} (plain : PlainChar c) (rest : Plain t) :
    Plain (c :: t) := by
  intro d member
  rcases List.mem_cons.mp member with rfl | there
  · exact plain
  · exact rest d there

theorem Plain.no_quote {t : Text} (plain : Plain t) : '\'' ∉ t :=
  fun member => (plain _ member).1 rfl

theorem Plain.no_nul {t : Text} (plain : Plain t) : '\x00' ∉ t :=
  fun member => (plain _ member).2.2 rfl

theorem plain_intercalate {separator : Text} {values : List Text} (between : Plain separator)
    (each : ∀ value ∈ values, Plain value) : Plain (List.intercalate separator values) := by
  induction values with
  | nil => exact fun _ member => by cases member
  | cons value values ih =>
      have first : Plain value := each value List.mem_cons_self
      have rest := ih fun other member => each other (List.mem_cons_of_mem _ member)
      cases values with
      | nil => simpa [List.intercalate] using first
      | cons next values =>
          rw [List.intercalate_cons_of_ne_nil (List.cons_ne_nil _ _)]
          exact (first.append between).append rest

theorem plain_ofList {cs : Text} (plain : Plain cs) : Plain (String.ofList cs).toList := by
  rwa [String.toList_ofList]

theorem plain_of_digits {t : Text} (digits : ∀ c ∈ t, c.isDigit = true) : Plain t := by
  intro c member
  have digit := digits c member
  exact ⟨ne_of_isDigit digit rfl, ne_of_isDigit digit rfl, ne_of_isDigit digit rfl⟩

theorem plain_decimal (n : ℕ) : Plain (decimal n) :=
  plain_of_digits fun _ => isDigit_of_mem_decimal

theorem plain_signedDecimal (z : ℤ) : Plain (signedDecimal z) := by
  cases z with
  | ofNat n => exact plain_decimal n
  | negSucc n => exact (plain_decimal (n + 1)).cons (by decide)

/-- Zeros in front up to the given width, as `%0*d` prints them. -/
def padZero (width : ℕ) (t : Text) : Text := List.replicate (width - t.length) '0' ++ t

theorem plain_padZero (width : ℕ) {t : Text} (plain : Plain t) : Plain (padZero width t) := by
  refine Plain.append (plain_of_digits fun c member => ?_) plain
  rw [List.eq_of_mem_replicate member]
  decide

/-! ## Floating-point numbers -/

/-- The nearest natural number, the even one between two. -/
def roundHalfEven (x : ℚ) : ℕ :=
  let below := ⌊x⌋.toNat
  let part := x - below
  if part < 1 / 2 then below
  else if part = 1 / 2 ∧ below % 2 = 0 then below
  else below + 1

/-- `%f`: six decimals. -/
def fixedPoint (x : ℚ) : Text :=
  let scaled := roundHalfEven (|x| * 10 ^ 6)
  let digits := decimal (scaled / 10 ^ 6) ++ '.' :: padZero 6 (decimal (scaled % 10 ^ 6))
  if x < 0 then '-' :: digits else digits

theorem plain_fixedPoint (x : ℚ) : Plain (fixedPoint x) := by
  have digits : Plain (decimal (roundHalfEven (|x| * 10 ^ 6) / 10 ^ 6) ++
      '.' :: padZero 6 (decimal (roundHalfEven (|x| * 10 ^ 6) % 10 ^ 6))) :=
    (plain_decimal _).append ((plain_padZero 6 (plain_decimal _)).cons (by decide))
  unfold fixedPoint
  dsimp only
  split
  · exact digits.cons (by decide)
  · exact digits

/-- A type of floating-point values and what `std::to_string` prints of them. -/
class StdToString (R : Type) where
  toString : R → Text
  plain : ∀ x, Plain (toString x)

instance : StdToString ℚ := ⟨fixedPoint, plain_fixedPoint⟩

/-- Finite values, infinities and NaNs. -/
inductive FloatValue where
  | finite (x : ℚ)
  | infinite (negative : Bool)
  | nan (negative : Bool)
deriving DecidableEq

namespace FloatValue

def toString : FloatValue → Text
  | .finite x => fixedPoint x
  | .infinite negative => (if negative then "-inf" else "inf").toList
  | .nan negative => (if negative then "-nan" else "nan").toList

instance : StdToString FloatValue where
  toString := FloatValue.toString
  plain := by
    intro x
    cases x with
    | finite x => exact plain_fixedPoint x
    | infinite negative => cases negative <;> decide
    | nan negative => cases negative <;> decide

instance : NatCast FloatValue := ⟨fun n => .finite n⟩

/-- Division without rounding of the finite quotients. -/
def div : FloatValue → FloatValue → FloatValue
  | .nan negative, _ => .nan negative
  | _, .nan negative => .nan negative
  | .infinite _, .infinite _ => .nan true
  | .infinite negative, .finite y => .infinite (negative.xor (y < 0))
  | .finite _, .infinite _ => .finite 0
  | .finite x, .finite y =>
      if y ≠ 0 then .finite (x / y) else if x = 0 then .nan true else .infinite (x < 0)

instance : Div FloatValue := ⟨div⟩

/-- Multiplication without rounding of the finite products. -/
def mul : FloatValue → FloatValue → FloatValue
  | .nan negative, _ => .nan negative
  | _, .nan negative => .nan negative
  | .infinite negative, .infinite negative' => .infinite (negative.xor negative')
  | .infinite negative, .finite y => if y = 0 then .nan true else .infinite (negative.xor (y < 0))
  | .finite x, .infinite negative => if x = 0 then .nan true else .infinite (negative.xor (x < 0))
  | .finite x, .finite y => .finite (x * y)

instance : Mul FloatValue := ⟨mul⟩

/-- The number, and any other in the place of an infinity or a NaN. -/
def number (other : FloatValue → ℚ) : FloatValue → ℚ
  | .finite x => x
  | x => other x

@[simp] theorem number_finite (other : FloatValue → ℚ) (x : ℚ) :
    number other (.finite x) = x := rfl

end FloatValue

end LinuxMonitor.Library
