import Mathlib.Data.UInt
import LinuxMonitor.Library.Text

/-!
# Formatted input: `std::istream` and its extraction operators

A stream is the text not yet read together with the two state bits that the
extraction operators set and test.  An extraction starts with the sentry, which
fails on a stream that is not good and otherwise skips blanks; it then takes the
longest run of characters its target accepts.

An extraction returns the value it stores, or nothing when the sentry failed
and the target keeps its old value.  A run without digits stores zero, a number
out of range stores the nearest bound, and both set the fail bit.

* `extractWord_blank_word`: a word between blanks is extracted as it stands.
* `extractUInt64_blank_decimal`, `extractInt32_blank_decimal`: a number printed in
  decimal between blanks is extracted as that number.
* `lines_append_newline`: the lines of a text made of lines are those lines.
* `getline_line`, `getline_last`: `std::getline` reads up to a newline, or up to the end
  and sets the end bit.
-/

set_option autoImplicit false

namespace LinuxMonitor.Library

/-- An input stream: the text ahead, the end bit and the fail bit. -/
structure InputStream where
  rest : Text
  eof : Bool
  fail : Bool
deriving DecidableEq, Repr

namespace InputStream

/-- A fresh `std::istringstream` on a text. -/
def ofText (t : Text) : InputStream := ⟨t, false, false⟩

/-- The sentry of a formatted extraction, and whether it lets the extraction
proceed. -/
def sentry (s : InputStream) : Bool × InputStream :=
  if s.eof || s.fail then (false, { s with fail := true })
  else
    match s.rest.dropWhile isSpace with
    | [] => (false, ⟨[], true, true⟩)
    | ahead => (true, ⟨ahead, false, false⟩)

/-- `stream >> word` for a `std::string`. -/
def extractWord (s : InputStream) : Option Text × InputStream :=
  match s.sentry with
  | (false, s) => (none, s)
  | (true, s) =>
      let tail := s.rest.dropWhile (fun c => !isSpace c)
      (some (s.rest.takeWhile (fun c => !isSpace c)), ⟨tail, tail.isEmpty, false⟩)

/-- The sign of a number and the text behind it. -/
def sign : Text → Bool × Text
  | '-' :: t => (true, t)
  | '+' :: t => (false, t)
  | t => (false, t)

/-- Extraction of a number.  `store` gives the value stored for a sign and a
magnitude, and whether the number is in range. -/
def extractNumber {α : Type} (store : Bool → Nat → α × Bool) (s : InputStream) :
    Option α × InputStream :=
  match s.sentry with
  | (false, s) => (none, s)
  | (true, s) =>
      let signed := sign s.rest
      let digits := signed.2.takeWhile Char.isDigit
      let tail := signed.2.dropWhile Char.isDigit
      let stored := store signed.1 (digitsValue digits)
      (some stored.1, ⟨tail, tail.isEmpty, digits.isEmpty || !stored.2⟩)

/-- A `uint64_t` takes a negative number modulo `2 ^ 64`. -/
def storeUInt64 (negative : Bool) (magnitude : Nat) : UInt64 × Bool :=
  if magnitude < 2 ^ 64 then
    (if negative then -UInt64.ofNat magnitude else UInt64.ofNat magnitude, true)
  else (UInt64.ofNat (2 ^ 64 - 1), false)

/-- An `int` is stored in two's complement of 32 bits. -/
def storeInt32 (negative : Bool) (magnitude : Nat) : Int × Bool :=
  if negative then
    if magnitude ≤ 2 ^ 31 then (-(magnitude : Int), true) else (-2 ^ 31, false)
  else
    if magnitude < 2 ^ 31 then ((magnitude : Int), true) else (2 ^ 31 - 1, false)

/-- `std::getline(stream, line)`: the line and the stream behind its newline.  The end bit
is set where the newline is missing, the fail bit where there is nothing to read. -/
def getline (s : InputStream) : Text × InputStream :=
  if s.eof || s.fail then ([], { s with fail := true })
  else
    match s.rest.dropWhile fun c => c ≠ '\n' with
    | [] => (s.rest, ⟨[], true, s.rest.isEmpty⟩)
    | _ :: rest => (s.rest.takeWhile fun c => c ≠ '\n', ⟨rest, false, false⟩)

/-- `stream >> number` for a `uint64_t`. -/
def extractUInt64 : InputStream → Option UInt64 × InputStream := extractNumber storeUInt64

/-- `stream >> number` for an `int`. -/
def extractInt32 : InputStream → Option Int × InputStream := extractNumber storeInt32

/-! ## The words of a text -/

theorem extractWord_blanks {t : Text} (blank : ∀ c ∈ t, isSpace c = true) :
    (ofText t).extractWord = (none, ⟨[], true, true⟩) := by
  have nothing : t.dropWhile isSpace = [] := List.dropWhile_eq_nil_iff.mpr blank
  simp [extractWord, sentry, ofText, nothing]

theorem extractWord_word {blanks word tail : Text} (blank : ∀ c ∈ blanks, isSpace c = true)
    (nonempty : word ≠ []) (visible : ∀ c ∈ word, isSpace c = false)
    (stop : ∀ c ∈ tail.head?, isSpace c = true) :
    (ofText (blanks ++ (word ++ tail))).extractWord =
      (some word, ⟨tail, tail.isEmpty, false⟩) := by
  obtain ⟨c, w, rfl⟩ := List.exists_cons_of_ne_nil nonempty
  have ahead := dropWhile_blanks blank nonempty visible tail
  have taken := takeWhile_visible visible stop
  have dropped := dropWhile_visible visible stop
  rw [List.cons_append] at ahead taken dropped
  simp only [extractWord, sentry, ofText, Bool.or_self, Bool.false_eq_true, if_false, ahead,
    List.cons_append, taken, dropped]

/-! ## Extraction between blanks -/

theorem sentry_blank (count : Nat) {c : Char} {t : Text} (visible : isSpace c = false) :
    (ofText (List.replicate count ' ' ++ c :: t)).sentry = (true, ofText (c :: t)) := by
  have skipped : (List.replicate count ' ' ++ c :: t).dropWhile isSpace = c :: t := by
    apply dropWhile_append_stop
    · intro blank member
      rw [List.eq_of_mem_replicate member]
      rfl
    · intro first head
      simp only [List.head?_cons, Option.mem_def, Option.some.injEq] at head
      rw [← head, visible]
  simp [sentry, ofText, skipped]

/-- **A word between blanks is extracted as it stands.** -/
theorem extractWord_blank_word (count : Nat) {word tail : Text} (nonempty : word ≠ [])
    (visible : ∀ c ∈ word, isSpace c = false) :
    (ofText (List.replicate count ' ' ++ (word ++ ' ' :: tail))).extractWord =
      (some word, ofText (' ' :: tail)) := by
  have blank : ∀ c ∈ List.replicate count ' ', isSpace c = true := by
    intro c member
    rw [List.eq_of_mem_replicate member]
    rfl
  have stop : ∀ c ∈ (' ' :: tail).head?, isSpace c = true := by
    intro c head
    cases head
    rfl
  exact extractWord_word blank nonempty visible stop

theorem sign_of_isDigit {c : Char} {t : Text} (digit : c.isDigit = true) :
    sign (c :: t) = (false, c :: t) := by
  have minus : c ≠ '-' := ne_of_isDigit digit rfl
  have plus : c ≠ '+' := ne_of_isDigit digit rfl
  rw [sign.eq_3 _ (by simpa using fun same => absurd same minus)
    (by simpa using fun same => absurd same plus)]

/-- **A printed number between blanks is extracted as that number**, when its
target holds it. -/
theorem extractNumber_blank_decimal {α : Type} {store : Bool → Nat → α × Bool} {n : Nat}
    {value : α} (count : Nat) {tail : Text} (holds : store false n = (value, true)) :
    extractNumber store (ofText (List.replicate count ' ' ++ (decimal n ++ ' ' :: tail))) =
      (some value, ofText (' ' :: tail)) := by
  have inside : ∀ d ∈ decimal n, d.isDigit = true := fun _ => isDigit_of_mem_decimal
  have stop : ∀ d ∈ (' ' :: tail).head?, d.isDigit = false := by
    intro d head
    simp only [List.head?_cons, Option.mem_def, Option.some.injEq] at head
    rw [← head]
    rfl
  have taken := takeWhile_append_stop _ inside stop
  have dropped := dropWhile_append_stop _ inside stop
  have value := digitsValue_decimal n
  obtain ⟨c, digits, printed⟩ := List.exists_cons_of_ne_nil (decimal_ne_nil n)
  rw [printed] at inside taken dropped value ⊢
  have digit : c.isDigit = true := inside c List.mem_cons_self
  rw [extractNumber, List.cons_append, sentry_blank count (isSpace_of_isDigit digit)]
  rw [List.cons_append] at taken dropped
  simp only [ofText, sign_of_isDigit digit, taken, dropped, value, holds]
  rfl

theorem extractUInt64_blank_decimal (count : Nat) (n : UInt64) (tail : Text) :
    (ofText (List.replicate count ' ' ++ (decimal n.toNat ++ ' ' :: tail))).extractUInt64 =
      (some n, ofText (' ' :: tail)) := by
  apply extractNumber_blank_decimal
  simp [storeUInt64, n.toNat_lt]

theorem extractInt32_blank_decimal (count : Nat) {n : Nat} (tail : Text) (small : n < 2 ^ 31) :
    (ofText (List.replicate count ' ' ++ (decimal n ++ ' ' :: tail))).extractInt32 =
      (some (n : Int), ofText (' ' :: tail)) := by
  apply extractNumber_blank_decimal
  simp only [storeInt32, if_pos small]
  rfl

/-! ## `std::getline` -/

theorem getline_line {line : Text} (inside : ∀ c ∈ line, c ≠ '\n') (t : Text) :
    (ofText (line ++ '\n' :: t)).getline = (line, ofText t) := by
  have before : ∀ c ∈ line, (fun c => decide (c ≠ '\n')) c = true := by
    intro c member
    simp [inside c member]
  have newline : ∀ c ∈ ('\n' :: t).head?, (fun c => decide (c ≠ '\n')) c = false := by
    intro c head
    cases head
    rfl
  simp only [getline, ofText, Bool.or_self, Bool.false_eq_true, if_false,
    dropWhile_append_stop _ before newline, takeWhile_append_stop _ before newline]

theorem getline_last {t : Text} (inside : ∀ c ∈ t, c ≠ '\n') :
    (ofText t).getline = (t, ⟨[], true, t.isEmpty⟩) := by
  have nothing : (t.dropWhile fun c => decide (c ≠ '\n')) = [] := by
    apply List.dropWhile_eq_nil_iff.mpr
    intro c member
    simp [inside c member]
  simp only [getline, ofText, Bool.or_self, Bool.false_eq_true, if_false, nothing]

/-- A line that is read before the end leaves less of the stream. -/
theorem getline_length_lt {s : InputStream} {line : Text} {s' : InputStream}
    (read : s.getline = (line, s')) (more : s'.eof = false) (nonempty : line ≠ []) :
    s'.rest.length < s.rest.length := by
  unfold getline at read
  split at read
  · cases read
    exact absurd rfl nonempty
  · split at read
    · cases read
      cases more
    · next c rest ahead =>
        cases read
        have shorter : (s.rest.dropWhile fun c => decide (c ≠ '\n')).length ≤ s.rest.length :=
          (List.dropWhile_suffix _).length_le
        rw [ahead] at shorter
        exact shorter

end InputStream

/-! ## Lines -/

/-- The lines that a loop `while (std::getline(stream, line))` yields: the last
one may lack its newline. -/
def lines : Text → List Text
  | [] => []
  | '\n' :: t => [] :: lines t
  | c :: t =>
      match lines t with
      | [] => [[c]]
      | line :: others => (c :: line) :: others

theorem lines_append_newline {line : Text} (inside : ∀ c ∈ line, c ≠ '\n') (t : Text) :
    lines (line ++ '\n' :: t) = line :: lines t := by
  induction line with
  | nil => rfl
  | cons c line ih =>
      have rest := ih fun d member => inside d (List.mem_cons_of_mem _ member)
      have other : c ≠ '\n' := inside c List.mem_cons_self
      rw [List.cons_append, lines.eq_3 _ _ other, rest]

/-- The lines of a text made of lines are those lines. -/
theorem lines_flatMap_newline {α : Type*} (print : α → Text) (items : List α)
    (inside : ∀ item ∈ items, ∀ c ∈ print item, c ≠ '\n') :
    lines (items.flatMap fun item => print item ++ ['\n']) = items.map print := by
  induction items with
  | nil => rfl
  | cons item items ih =>
      have rest := ih fun other member => inside other (List.mem_cons_of_mem _ member)
      rw [List.flatMap_cons, List.append_assoc, List.singleton_append,
        lines_append_newline (inside item List.mem_cons_self), rest, List.map_cons]

theorem lines_last {t : Text} (inside : ∀ c ∈ t, c ≠ '\n') (nonempty : t ≠ []) :
    lines t = [t] := by
  induction t with
  | nil => exact absurd rfl nonempty
  | cons c t ih =>
      have other : c ≠ '\n' := inside c List.mem_cons_self
      rw [lines.eq_3 _ _ other]
      cases t with
      | nil => rfl
      | cons d t =>
          rw [ih (fun e member => inside e (List.mem_cons_of_mem c member)) (List.cons_ne_nil d t)]

theorem lines_ne_nil {t : Text} (nonempty : t ≠ []) : lines t ≠ [] := by
  obtain ⟨c, u, rfl⟩ := List.exists_cons_of_ne_nil nonempty
  by_cases newline : c = '\n'
  · subst newline
    exact List.cons_ne_nil [] (lines u)
  · rw [lines.eq_3 _ _ newline]
    split
    · exact List.cons_ne_nil _ _
    · exact List.cons_ne_nil _ _

/-- **Induction over the lines of a text**, from the last one, which lacks its newline. -/
theorem lines_induction {motive : Text → Prop} (last : ∀ t, (∀ c ∈ t, c ≠ '\n') → motive t)
    (line : ∀ l t, (∀ c ∈ l, c ≠ '\n') → motive t → motive (l ++ '\n' :: t)) (t : Text) :
    motive t := by
  induction size : t.length using Nat.strong_induction_on generalizing t with
  | _ n ih =>
      by_cases newline : '\n' ∈ t
      · obtain ⟨l, u, rfl, outside⟩ := List.eq_append_cons_of_mem newline
        apply line
        · rintro c member rfl
          exact outside member
        · apply ih u.length _ u rfl
          rw [← size, List.length_append, List.length_cons]
          omega
      · apply last
        rintro c member rfl
        exact newline member

end LinuxMonitor.Library
