import LinuxMonitor.Library.InputStream

/-!
# The text functions of the C library

`fgets`, `strtok`, `atoi`, `std::stoll` and two conversions of `sscanf` as functions on texts.  A C
string ends at its first NUL.  `strtok` keeps a position between calls; here it takes
the text behind that position and returns the text behind the next one, and so do the
conversions.

`strtok` skips a run of separators before a token, so it never returns an empty
token (`strtok_ne_nil`), and `fgets` always makes progress (`fgets_length_lt`).
-/

set_option autoImplicit false

namespace LinuxMonitor.Library

/-- The characters of a C string, up to the first NUL. -/
def cString (t : Text) : Text := t.takeWhile fun c => c ≠ '\x00'

/-- At most `room` characters, up to and including the first newline. -/
def takeLine : ℕ → Text → Text × Text
  | 0, t => ([], t)
  | _ + 1, [] => ([], [])
  | _ + 1, '\n' :: t => (['\n'], t)
  | room + 1, c :: t =>
      let (line, rest) := takeLine room t
      (c :: line, rest)

/-- `fgets(line, size, file)`: the buffer's content and what is left of the file, or
nothing at the end of the file. -/
def fgets (size : ℕ) : Text → Option (Text × Text)
  | [] => none
  | file => some (takeLine (size - 1) file)

/-- `strtok(s, separator)`: the next token, if there is one, and the text behind the
separator that ends it. -/
def strtok (separator : Char) (s : Text) : Option Text × Text :=
  match s.dropWhile fun c => c = separator with
  | [] => (none, [])
  | token => (some (token.takeWhile fun c => c ≠ separator),
      (token.dropWhile fun c => c ≠ separator).tail)

/-- `strtol(s, NULL, 10)` for a 64-bit `long`: the nearest bound out of range. -/
def strtol (s : Text) : ℤ :=
  let value (digits : Text) : ℤ := digitsValue (digits.takeWhile Char.isDigit)
  match s.dropWhile isSpace with
  | '-' :: t => max (-value t) (-2 ^ 63)
  | '+' :: t => min (value t) (2 ^ 63 - 1)
  | t => min (value t) (2 ^ 63 - 1)

/-- `atoi(s)`: the low 32 bits of `strtol`, as glibc computes it. -/
def atoi (s : Text) : ℤ := (strtol s).bmod (2 ^ 32)

/-- `std::stoll(s)`: nothing where it throws, without a digit or out of range. -/
def stoll (s : Text) : Option Int64 :=
  let signed := InputStream.sign (s.dropWhile isSpace)
  match signed.2.takeWhile Char.isDigit with
  | [] => none
  | digits =>
      let value : ℤ := if signed.1 then -digitsValue digits else digitsValue digits
      if -2 ^ 63 ≤ value ∧ value < 2 ^ 63 then some (Int64.ofInt value) else none

/-- The conversion `%s` of `sscanf`: a word, and the text behind it. -/
def scanWord (s : Text) : Option (Text × Text) :=
  match s.dropWhile isSpace with
  | [] => none
  | ahead => some (ahead.takeWhile (fun c => !isSpace c), ahead.dropWhile (fun c => !isSpace c))

/-- The conversion `%lu` of `sscanf`, which converts as `strtoul` does: it needs a digit,
a minus sign negates modulo `2 ^ 64`, and the largest number stands for those out of
range. -/
def scanUlong (s : Text) : Option (UInt64 × Text) :=
  let signed := InputStream.sign (s.dropWhile isSpace)
  match signed.2.takeWhile Char.isDigit with
  | [] => none
  | digits => some ((InputStream.storeUInt64 signed.1 (digitsValue digits)).1,
      signed.2.dropWhile Char.isDigit)

/-- The conversions `%lu %lu … %lu`, as many as asked for. -/
def scanUlongs : ℕ → Text → Option (List UInt64)
  | 0, _ => some []
  | number + 1, s => do
      let (value, s) ← scanUlong s
      let values ← scanUlongs number s
      return value :: values

/-! ## Progress -/

theorem takeLine_length_le (room : ℕ) (t : Text) : (takeLine room t).2.length ≤ t.length := by
  induction room generalizing t with
  | zero => exact Nat.le_refl _
  | succ room ih =>
      cases t with
      | nil => exact Nat.le_refl _
      | cons c t =>
          by_cases newline : c = '\n'
          · subst newline
            exact Nat.le_succ _
          · rw [takeLine.eq_4 _ _ _ newline]
            exact (ih t).trans (Nat.le_succ _)

/-- A read that returns a line leaves less of the file. -/
theorem fgets_length_lt {size : ℕ} {file line rest : Text} (room : 1 < size)
    (read : fgets size file = some (line, rest)) : rest.length < file.length := by
  obtain ⟨room', rfl⟩ : ∃ room', size = room' + 2 := ⟨size - 2, by omega⟩
  cases file with
  | nil => cases read
  | cons c t =>
      have taken : takeLine (room' + 1) (c :: t) = (line, rest) := Option.some.inj read
      by_cases newline : c = '\n'
      · subst newline
        cases taken
        exact Nat.lt_succ_self _
      · rw [takeLine.eq_4 _ _ _ newline] at taken
        cases taken
        exact Nat.lt_succ_of_le (takeLine_length_le room' t)

/-! ## Numbers -/

theorem takeWhile_isDigit_decimal (n : ℕ) : (decimal n).takeWhile Char.isDigit = decimal n := by
  apply List.takeWhile_eq_self_iff.mpr
  intro c member
  exact isDigit_of_mem_decimal member

/-- **A printed number is read back as it is.** -/
theorem stoll_signedDecimal (n : Int64) : stoll (signedDecimal n.toInt) = some n := by
  have lower : -2 ^ 63 ≤ n.toInt := n.le_toInt
  have upper : n.toInt < 2 ^ 63 := n.toInt_lt
  have kept : Int64.ofInt n.toInt = n := Int64.ofInt_toInt n
  generalize n.toInt = z at lower upper kept
  cases z with
  | ofNat m =>
      obtain ⟨c, digits, printed⟩ := List.exists_cons_of_ne_nil (decimal_ne_nil m)
      have taken := takeWhile_isDigit_decimal m
      have value := digitsValue_decimal m
      have digit : c.isDigit = true := by
        apply isDigit_of_mem_decimal (n := m)
        rw [printed]
        exact List.mem_cons_self
      rw [printed] at taken value
      have ahead : (c :: digits).dropWhile isSpace = c :: digits :=
        List.dropWhile_cons_of_neg (by rw [isSpace_of_isDigit digit]; exact Bool.false_ne_true)
      simp only [signedDecimal, stoll, printed, ahead, InputStream.sign_of_isDigit digit, taken,
        value, Bool.false_eq_true, if_false]
      rw [if_pos ⟨lower, upper⟩]
      exact congrArg some kept
  | negSucc m =>
      obtain ⟨c, digits, printed⟩ := List.exists_cons_of_ne_nil (decimal_ne_nil (m + 1))
      have taken := takeWhile_isDigit_decimal (m + 1)
      have value := digitsValue_decimal (m + 1)
      rw [printed] at taken value
      have ahead : ('-' :: c :: digits).dropWhile isSpace = '-' :: c :: digits := rfl
      simp only [signedDecimal, stoll, printed, ahead, InputStream.sign, taken, value, if_true]
      rw [if_pos ⟨lower, upper⟩]
      exact congrArg some kept

theorem cString_of_no_nul {t : Text} (inside : ∀ c ∈ t, c ≠ '\x00') : cString t = t := by
  apply List.takeWhile_eq_self_iff.mpr
  intro c member
  simpa using inside c member

/-! ## Conversions of `sscanf` -/

/-- `%s` takes the word behind the blanks. -/
theorem scanWord_word {blanks word tail : Text} (blank : ∀ c ∈ blanks, isSpace c = true)
    (nonempty : word ≠ []) (visible : ∀ c ∈ word, isSpace c = false)
    (stop : ∀ c ∈ tail.head?, isSpace c = true) :
    scanWord (blanks ++ (word ++ tail)) = some (word, tail) := by
  obtain ⟨c, w, rfl⟩ := List.exists_cons_of_ne_nil nonempty
  have ahead := dropWhile_blanks blank nonempty visible tail
  have taken := takeWhile_visible visible stop
  have dropped := dropWhile_visible visible stop
  rw [List.cons_append] at ahead taken dropped
  simp only [scanWord, List.cons_append, ahead, taken, dropped]

/-- `%lu` takes the number behind the blanks. -/
theorem scanUlong_decimal {blanks tail : Text} (blank : ∀ c ∈ blanks, isSpace c = true)
    (n : UInt64) (stop : ∀ c ∈ tail.head?, c.isDigit = false) :
    scanUlong (blanks ++ (decimal n.toNat ++ tail)) = some (n, tail) := by
  have inside : ∀ d ∈ decimal n.toNat, d.isDigit = true := fun _ => isDigit_of_mem_decimal
  have taken := takeWhile_append_stop _ inside stop
  have dropped := dropWhile_append_stop _ inside stop
  have value := digitsValue_decimal n.toNat
  obtain ⟨c, digits, printed⟩ := List.exists_cons_of_ne_nil (decimal_ne_nil n.toNat)
  rw [printed] at inside taken dropped value ⊢
  have digit : c.isDigit = true := inside c List.mem_cons_self
  have ahead := dropWhile_blanks blank (List.cons_ne_nil c digits)
    (fun d member => isSpace_of_isDigit (inside d member)) tail
  have stored : InputStream.storeUInt64 false n.toNat = (n, true) := by
    simp [InputStream.storeUInt64, n.toNat_lt]
  rw [List.cons_append] at ahead taken dropped
  simp only [scanUlong, List.cons_append, ahead, InputStream.sign_of_isDigit digit, taken,
    dropped, value, stored]

/-- Numbers in columns of given widths, each behind at least one blank. -/
def paddedColumns : (ℕ → ℕ) → List UInt64 → Text
  | _, [] => []
  | width, n :: numbers =>
      ' ' :: (padLeft (width 0) (decimal n.toNat) ++
        paddedColumns (fun column => width (column + 1)) numbers)

theorem mem_paddedColumns {width : ℕ → ℕ} {numbers : List UInt64} {c : Char}
    (member : c ∈ paddedColumns width numbers) : c = ' ' ∨ c.isDigit = true := by
  induction numbers generalizing width with
  | nil => cases member
  | cons n numbers ih =>
      rcases List.mem_cons.mp member with blank | rest
      · exact Or.inl blank
      · rcases List.mem_append.mp rest with cell | later
        · rcases List.mem_append.mp cell with padding | digit
          · exact Or.inl (List.eq_of_mem_replicate padding)
          · exact Or.inr (isDigit_of_mem_decimal digit)
        · exact ih later

/-- **Numbers printed in columns are scanned as those numbers, whatever the widths.** -/
theorem scanUlongs_paddedColumns (width : ℕ → ℕ) (numbers : List UInt64) :
    scanUlongs numbers.length (paddedColumns width numbers) = some numbers := by
  induction numbers generalizing width with
  | nil => rfl
  | cons n numbers ih =>
      have blank : ∀ c ∈ ' ' :: List.replicate (width 0 - (decimal n.toNat).length) ' ',
          isSpace c = true := by
        intro c member
        rcases List.mem_cons.mp member with rfl | padding
        · rfl
        · rw [List.eq_of_mem_replicate padding]
          rfl
      have stop : ∀ c ∈ (paddedColumns (fun column => width (column + 1)) numbers).head?,
          c.isDigit = false := by
        intro c head
        cases numbers with
        | nil => cases head
        | cons next numbers =>
            cases head
            rfl
      have here := scanUlong_decimal blank n stop
      rw [List.cons_append, ← List.append_assoc] at here
      rw [List.length_cons, paddedColumns, padLeft, scanUlongs, here]
      change (scanUlongs numbers.length _).bind (fun values => some (n :: values)) = _
      rw [ih fun column => width (column + 1)]
      rfl

/-! ## Lines read into a buffer -/

/-- A buffer takes a line with its newline as far as it has room, and what it has no room for
is left. -/
theorem takeLine_line (room : ℕ) {line : Text} (inside : ∀ c ∈ line, c ≠ '\n') (rest : Text) :
    takeLine room (line ++ '\n' :: rest) =
      ((line ++ ['\n']).take room, (line ++ ['\n']).drop room ++ rest) := by
  induction room generalizing line with
  | zero => simp [takeLine]
  | succ room ih =>
      cases line with
      | nil => simp [takeLine]
      | cons c line =>
          have other : c ≠ '\n' := inside c List.mem_cons_self
          have taken := ih fun d member => inside d (List.mem_cons_of_mem c member)
          rw [List.cons_append, takeLine.eq_4 _ _ _ other, taken]
          rfl

/-- A text in pieces of a length, of which the last one may be shorter. -/
def bufferPieces (size : ℕ) (t : Text) : List Text :=
  if t = [] ∨ size = 0 then [] else t.take size :: bufferPieces size (t.drop size)
termination_by t.length
decreasing_by
  next more =>
    rw [not_or] at more
    have positive := List.length_pos_iff.mpr more.1
    rw [List.length_drop]
    omega

theorem bufferPieces_nil (size : ℕ) : bufferPieces size [] = [] := by
  rw [bufferPieces, if_pos (Or.inl rfl)]

theorem bufferPieces_cons {size : ℕ} {t : Text} (nonempty : t ≠ []) (positive : size ≠ 0) :
    bufferPieces size t = t.take size :: bufferPieces size (t.drop size) := by
  rw [bufferPieces, if_neg (not_or.mpr ⟨nonempty, positive⟩)]

/-- A text that is not too long is one piece. -/
theorem bufferPieces_of_fits {size : ℕ} {t : Text} (nonempty : t ≠ []) (fits : t.length ≤ size) :
    bufferPieces size t = [t] := by
  have positive := List.length_pos_iff.mpr nonempty
  rw [bufferPieces_cons nonempty (by omega), List.take_of_length_le fits,
    List.drop_of_length_le fits, bufferPieces_nil]

/-- The pieces have the characters of the text. -/
theorem mem_of_mem_bufferPieces {size : ℕ} {t : Text} :
    ∀ piece ∈ bufferPieces size t, ∀ c ∈ piece, c ∈ t := by
  induction t using bufferPieces.induct size with
  | case1 t ended =>
      rw [bufferPieces, if_pos ended]
      exact fun piece member => absurd member List.not_mem_nil
  | case2 t more ih =>
      rw [bufferPieces, if_neg more]
      intro piece member c inside
      rcases List.mem_cons.mp member with rfl | later
      · exact List.mem_of_mem_take inside
      · exact List.mem_of_mem_drop (ih piece later c inside)

/-! ## Tokens -/

section Tokens

variable {separator : Char}

/-- Separators in front of a token are skipped. -/
theorem strtok_separator (t : Text) : strtok separator (separator :: t) = strtok separator t := by
  simp [strtok]

/-- **A field that is not empty is a token.** -/
theorem strtok_field {field : Text} (nonempty : field ≠ [])
    (inside : ∀ c ∈ field, c ≠ separator) (rest : Text) :
    strtok separator (field ++ separator :: rest) = (some field, rest) := by
  obtain ⟨c, u, rfl⟩ := List.exists_cons_of_ne_nil nonempty
  have first : c ≠ separator := inside c List.mem_cons_self
  have ahead : (c :: u ++ separator :: rest).dropWhile (fun d => decide (d = separator)) =
      c :: (u ++ separator :: rest) := List.dropWhile_cons_of_neg (by simpa using first)
  have kept : ∀ d ∈ c :: u, (fun d => decide (d ≠ separator)) d = true := by
    intro d member
    simpa using inside d member
  have stop : ∀ d ∈ (separator :: rest).head?, (fun d => decide (d ≠ separator)) d = false := by
    intro d head
    cases head
    simp
  have taken := takeWhile_append_stop _ kept stop
  have dropped := dropWhile_append_stop _ kept stop
  rw [List.cons_append] at taken dropped
  simp only [strtok, ahead, taken, dropped, List.tail_cons]

/-- The last field is a token too. -/
theorem strtok_last {field : Text} (nonempty : field ≠ [])
    (inside : ∀ c ∈ field, c ≠ separator) : strtok separator field = (some field, []) := by
  obtain ⟨c, u, rfl⟩ := List.exists_cons_of_ne_nil nonempty
  have first : c ≠ separator := inside c List.mem_cons_self
  have ahead : (c :: u).dropWhile (fun d => decide (d = separator)) = c :: u :=
    List.dropWhile_cons_of_neg (by simpa using first)
  have kept : ∀ d ∈ c :: u, (fun d => decide (d ≠ separator)) d = true := by
    intro d member
    simpa using inside d member
  simp only [strtok, ahead, List.takeWhile_eq_self_iff.mpr kept,
    List.dropWhile_eq_nil_iff.mpr kept, List.tail_nil]

/-- The tokens of a text: the fields between separators that are not empty. -/
def tokens (separator : Char) (t : Text) : List Text :=
  (t.splitOnP fun c => c = separator).filter fun token => !token.isEmpty

theorem tokens_separator (t : Text) : tokens separator (separator :: t) = tokens separator t := by
  simp [tokens, List.splitOnP_cons_eq_if_modifyHead]

theorem tokens_last {field : Text} (nonempty : field ≠ [])
    (inside : ∀ c ∈ field, c ≠ separator) : tokens separator field = [field] := by
  have whole : field.splitOnP (fun c => decide (c = separator)) = [field] :=
    List.splitOnP_eq_singleton (by simpa using inside)
  simp [tokens, whole, nonempty]

theorem tokens_field {field : Text} (nonempty : field ≠ [])
    (inside : ∀ c ∈ field, c ≠ separator) (rest : Text) :
    tokens separator (field ++ separator :: rest) = field :: tokens separator rest := by
  have split : tokens separator (field ++ separator :: rest) =
      tokens separator field ++ tokens separator rest := by
    rw [tokens, List.splitOnP_append_cons field rest (by simp), List.filter_append]
    rfl
  rw [split, tokens_last nonempty inside, List.singleton_append]

/-- **`strtok` returns the tokens one after the other.** -/
theorem strtok_tokens (separator : Char) (t : Text) :
    (strtok separator t).1 = (tokens separator t).head? ∧
      tokens separator (strtok separator t).2 = (tokens separator t).tail := by
  induction t with
  | nil => simp [strtok, tokens]
  | cons c t ih =>
      by_cases same : c = separator
      · rw [same, strtok_separator, tokens_separator]
        exact ih
      · have parts := List.takeWhile_append_dropWhile (p := fun d => decide (d ≠ separator))
          (l := t)
        have nonempty : c :: t.takeWhile (fun d => decide (d ≠ separator)) ≠ [] :=
          List.cons_ne_nil _ _
        have inside : ∀ d ∈ c :: t.takeWhile (fun d => decide (d ≠ separator)), d ≠ separator := by
          intro d member
          rcases List.mem_cons.mp member with rfl | later
          · exact same
          · simpa using List.mem_takeWhile_imp later
        cases behind : t.dropWhile (fun d => decide (d ≠ separator)) with
        | nil =>
            rw [behind, List.append_nil] at parts
            rw [parts] at nonempty inside
            rw [strtok_last nonempty inside, tokens_last nonempty inside]
            exact ⟨rfl, rfl⟩
        | cons d rest =>
            have stop : d = separator := by
              have first := List.head?_dropWhile_not (fun d => decide (d ≠ separator)) t
              rw [behind] at first
              simpa using first
            rw [behind, stop] at parts
            rw [← parts, ← List.cons_append, strtok_field nonempty inside,
              tokens_field nonempty inside]
            exact ⟨rfl, rfl⟩

end Tokens

theorem atoi_digits {digits : Text} (nonempty : digits ≠ [])
    (each : ∀ c ∈ digits, c.isDigit = true) (small : digitsValue digits < 2 ^ 31) :
    atoi digits = digitsValue digits := by
  obtain ⟨c, u, rfl⟩ := List.exists_cons_of_ne_nil nonempty
  have digit : c.isDigit = true := each c List.mem_cons_self
  have ahead : (c :: u).dropWhile isSpace = c :: u :=
    List.dropWhile_cons_of_neg (by rw [isSpace_of_isDigit digit]; exact Bool.false_ne_true)
  have taken : (c :: u).takeWhile Char.isDigit = c :: u := List.takeWhile_eq_self_iff.mpr each
  have minus : c ≠ '-' := ne_of_isDigit digit rfl
  have plus : c ≠ '+' := ne_of_isDigit digit rfl
  have read : strtol (c :: u) = digitsValue (c :: u) := by
    unfold strtol
    rw [ahead]
    dsimp only
    split
    · next same => exact absurd (List.cons.inj same).1 minus
    · next same => exact absurd (List.cons.inj same).1 plus
    · rw [taken]
      omega
  rw [atoi, read, Int.bmod]
  split <;> omega

end LinuxMonitor.Library
