import Mathlib.Data.List.Basic
import Mathlib.Data.List.TakeWhile

/-!
# Texts: blanks, digits and decimal numbers

A text is a list of characters.  A character stands for one `char` of C, that is for a
byte; whoever counts the characters of an encoding counts the same in a text of ASCII.
The module fixes the two character classes that C's text functions rest on, the blanks
of `isspace` and the decimal digits, and the decimal printing of natural numbers.

* `decimal_plain`: a printed number is non-empty, consists of digits and holds
  no blank.
* `digitsValue_decimal`: reading the digits of a printed number gives the number.
* `takeWhile_append_stop`, `dropWhile_append_stop`: a run of characters of one
  class ends where a character outside the class stands.
* `runs_append_blank`, `runs_visible`: the words of a text, taken apart at a blank.
-/

set_option autoImplicit false

namespace LinuxMonitor.Library

/-- A text, as the list of its characters. -/
abbrev Text := List Char

/-- The blanks of the C locale: space, tab, newline, vertical tab, form feed and
carriage return. -/
def isSpace (c : Char) : Bool :=
  c = ' ' || c = '\t' || c = '\n' || c = '\x0b' || c = '\x0c' || c = '\r'

/-- The value of a run of decimal digits. -/
def digitsValue (digits : Text) : Nat := Nat.ofDigitChars 10 digits 0

/-- A natural number in decimal, as `%lu` and `std::to_string` print it. -/
def decimal (n : Nat) : Text := Nat.toDigits 10 n

/-- An integer in decimal, as `%ld` and `std::to_string` print it. -/
def signedDecimal : Int → Text
  | .ofNat n => decimal n
  | .negSucc n => '-' :: decimal (n + 1)

/-- Blanks in front up to the given width, as `%*d` prints them. -/
def padLeft (width : Nat) (t : Text) : Text := List.replicate (width - t.length) ' ' ++ t

/-- The maximal runs of characters that are no blanks. -/
def runs (t : Text) : List Text := (t.splitOnP isSpace).filter fun run => !run.isEmpty

/-- The text has a last character and that is no blank. -/
def endsVisible (t : Text) : Bool := t.getLast?.any fun c => !isSpace c

/-- Decimal numbers, each behind one blank. -/
def columns (numbers : List ℕ) : Text := numbers.flatMap fun n => ' ' :: decimal n

/-! ## Character classes -/

theorem isDigit_bounds {c : Char} (digit : c.isDigit = true) : 48 ≤ c.toNat ∧ c.toNat ≤ 57 := by
  have bounds := Char.isDigit_iff_toNat.mp digit
  exact bounds

/-- A digit is no blank. -/
theorem isSpace_of_isDigit {c : Char} (digit : c.isDigit = true) : isSpace c = false := by
  have bounds := isDigit_bounds digit
  have differs : ∀ d : Char, d.toNat < 48 → c ≠ d := by
    rintro d below rfl
    omega
  simp [isSpace, differs]

theorem ne_of_isDigit {c d : Char} (digit : c.isDigit = true) (other : d.isDigit = false) :
    c ≠ d := by
  rintro rfl
  rw [digit] at other
  cases other

theorem visible_of_all {t : Text} (visible : t.all (fun c => !isSpace c) = true) :
    ∀ c ∈ t, isSpace c = false := by
  simpa using visible

/-! ## Runs of one class -/

section Runs

variable {α : Type*} (p : α → Bool)

/-- A run of one class ends at the first element outside it. -/
theorem takeWhile_append_stop {run rest : List α} (inside : ∀ a ∈ run, p a = true)
    (stop : ∀ a ∈ rest.head?, p a = false) : (run ++ rest).takeWhile p = run := by
  rw [List.takeWhile_append_of_pos inside]
  cases rest with
  | nil => simp
  | cons a rest =>
      have outside : p a = false := stop a rfl
      simp [outside]

theorem dropWhile_append_stop {run rest : List α} (inside : ∀ a ∈ run, p a = true)
    (stop : ∀ a ∈ rest.head?, p a = false) : (run ++ rest).dropWhile p = rest := by
  rw [List.dropWhile_append_of_pos inside]
  cases rest with
  | nil => rfl
  | cons a rest =>
      have outside : p a = false := stop a rfl
      simp [outside]

end Runs

/-! ## Words -/

/-- Blanks in front of a word are skipped. -/
theorem dropWhile_blanks {blanks word : Text} (blank : ∀ c ∈ blanks, isSpace c = true)
    (nonempty : word ≠ []) (visible : ∀ c ∈ word, isSpace c = false) (tail : Text) :
    (blanks ++ (word ++ tail)).dropWhile isSpace = word ++ tail := by
  obtain ⟨c, w, rfl⟩ := List.exists_cons_of_ne_nil nonempty
  apply dropWhile_append_stop _ blank
  intro d head
  cases head
  exact visible c List.mem_cons_self

section Word

variable {word tail : Text} (visible : ∀ c ∈ word, isSpace c = false)
  (stop : ∀ c ∈ tail.head?, isSpace c = true)

include visible stop

/-- A word ends in front of a blank. -/
theorem takeWhile_visible : (word ++ tail).takeWhile (fun c => !isSpace c) = word := by
  apply takeWhile_append_stop
  · intro c member
    simp [visible c member]
  · intro c head
    simp [stop c head]

theorem dropWhile_visible : (word ++ tail).dropWhile (fun c => !isSpace c) = tail := by
  apply dropWhile_append_stop
  · intro c member
    simp [visible c member]
  · intro c head
    simp [stop c head]

end Word

/-- A blank parts the words before it from those behind it. -/
theorem runs_append_blank (t u : Text) {c : Char} (blank : isSpace c = true) :
    runs (t ++ c :: u) = runs t ++ runs u := by
  rw [runs, List.splitOnP_append_cons t u blank, List.filter_append]
  rfl

theorem runs_visible {t : Text} (nonempty : t ≠ []) (visible : ∀ c ∈ t, isSpace c = false) :
    runs t = [t] := by
  rw [runs, List.splitOnP_eq_singleton visible]
  simp [nonempty]

/-- Blanks hold no words. -/
theorem runs_blanks {t : Text} (blank : ∀ c ∈ t, isSpace c = true) (u : Text) :
    runs (t ++ u) = runs u := by
  induction t with
  | nil => rfl
  | cons c t ih =>
      have rest := ih fun d member => blank d (List.mem_cons_of_mem c member)
      exact (runs_append_blank [] (t ++ u) (blank c List.mem_cons_self)).trans rest

theorem runs_word {word u : Text} (nonempty : word ≠ []) (visible : ∀ c ∈ word, isSpace c = false)
    (stop : ∀ c ∈ u.head?, isSpace c = true) : runs (word ++ u) = word :: runs u := by
  cases u with
  | nil => rw [List.append_nil, runs_visible nonempty visible]; rfl
  | cons c u =>
      have blank : isSpace c = true := stop c rfl
      have alone : runs (c :: u) = runs u := runs_append_blank [] u blank
      rw [runs_append_blank word u blank, runs_visible nonempty visible, alone]
      rfl

theorem endsVisible_append {t u : Text} (nonempty : u ≠ []) :
    endsVisible (t ++ u) = endsVisible u := by
  rw [endsVisible, List.getLast?_append_of_ne_nil t nonempty]
  rfl

theorem endsVisible_of_visible {t : Text} (nonempty : t ≠ [])
    (visible : ∀ c ∈ t, isSpace c = false) : endsVisible t = true := by
  rw [endsVisible, List.getLast?_eq_some_getLast nonempty, Option.any_some,
    visible _ (List.getLast_mem nonempty)]
  rfl

theorem endsVisible_of_blanks {t : Text} (blank : ∀ c ∈ t, isSpace c = true) :
    endsVisible t = false := by
  cases last : t.getLast? with
  | none => rw [endsVisible, last]; rfl
  | some c =>
      rw [endsVisible, last, Option.any_some, blank c (List.mem_of_getLast? last)]
      rfl

/-- **A text is blank, or its first word stands behind blanks and before a blank or the
end.** -/
theorem blank_or_word (t : Text) :
    (∀ c ∈ t, isSpace c = true) ∨
      ∃ blanks word tail, t = blanks ++ (word ++ tail) ∧ (∀ c ∈ blanks, isSpace c = true) ∧
        word ≠ [] ∧ (∀ c ∈ word, isSpace c = false) ∧ ∀ c ∈ tail.head?, isSpace c = true := by
  cases ahead : t.dropWhile isSpace with
  | nil =>
      left
      exact List.dropWhile_eq_nil_iff.mp ahead
  | cons c u =>
      right
      have first : isSpace c = false := by
        have head := List.head?_dropWhile_not isSpace t
        rw [ahead] at head
        exact head
      refine ⟨t.takeWhile isSpace, (c :: u).takeWhile fun d => !isSpace d,
        (c :: u).dropWhile fun d => !isSpace d, ?_, ?_, ?_, ?_, ?_⟩
      · rw [List.takeWhile_append_dropWhile, ← ahead, List.takeWhile_append_dropWhile]
      · intro d member
        exact List.mem_takeWhile_imp member
      · simp [first]
      · intro d member
        simpa using List.mem_takeWhile_imp member
      · intro d head
        have outside := List.head?_dropWhile_not (fun d => !isSpace d) (c :: u)
        rw [head] at outside
        simpa using outside

/-! ## Printed numbers -/

theorem isDigit_of_mem_decimal {n : Nat} {c : Char} (member : c ∈ decimal n) :
    c.isDigit = true :=
  Nat.isDigit_of_mem_toDigits (by decide) (by decide) member

theorem decimal_ne_nil (n : Nat) : decimal n ≠ [] := Nat.toDigits_ne_nil

theorem decimal_plain {n : Nat} {c : Char} (member : c ∈ decimal n) : isSpace c = false :=
  isSpace_of_isDigit (isDigit_of_mem_decimal member)

/-- **Reading a printed number back gives the number.** -/
theorem digitsValue_decimal (n : Nat) : digitsValue (decimal n) = n :=
  Nat.ofDigitChars_ten_toDigits

/-- A printed integer consists of digits, after a sign when it is negative. -/
theorem mem_signedDecimal {z : Int} {c : Char} (member : c ∈ signedDecimal z) :
    c = '-' ∨ c.isDigit = true := by
  cases z with
  | ofNat n => exact Or.inr (isDigit_of_mem_decimal member)
  | negSucc n =>
      rcases List.mem_cons.mp member with sign | digit
      · exact Or.inl sign
      · exact Or.inr (isDigit_of_mem_decimal digit)

theorem signedDecimal_visible {z : ℤ} {c : Char} (member : c ∈ signedDecimal z) :
    isSpace c = false := by
  rcases mem_signedDecimal member with rfl | digit
  · rfl
  · exact isSpace_of_isDigit digit

theorem signedDecimal_ne_nil (z : ℤ) : signedDecimal z ≠ [] := by
  cases z with
  | ofNat n => exact decimal_ne_nil n
  | negSucc n => exact List.cons_ne_nil _ _

end LinuxMonitor.Library
