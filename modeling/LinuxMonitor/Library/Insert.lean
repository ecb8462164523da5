import LinuxMonitor.Library.Number
import LinuxMonitor.Library.QuotedLiteral

/-!
# Statements that insert a row

A reader of the lexed statement `INSERT INTO table (columns) VALUES (cells)`.  Names of
columns stand between backquotes or without; a cell is a literal or one word of code.

* `splitOn_listed`: a list is taken apart at its commas.
* `readCell_pieces`: a literal is a text whatever it holds, and a word is read as code.
* `readInsert_pieces`: **a statement is read back as its table, its columns and its cells,
  whatever the literals hold.**
* `readInsert_open`: with a literal between the columns and the next bracket it is no such
  statement.
-/

set_option autoImplicit false

namespace LinuxMonitor.Library

/-- A value of an inserted row: a text between quotes, or a word of code. -/
inductive Cell where
  | text (value : Text)
  | word (t : Text)
deriving DecidableEq, Repr

/-- A statement `INSERT INTO table (columns) VALUES (cells)`. -/
structure InsertStatement where
  table : Text
  columns : List Text
  cells : List Cell
deriving DecidableEq, Repr

/-! ## The reader -/

/-- The character of a piece of code. -/
def Piece.char? : Piece → Option Char
  | .code c => some c
  | .literal _ => none

/-- The words of code that holds no literal. -/
def words (ps : List Piece) : Option (List Text) := (ps.mapM Piece.char?).map runs

/-- The only word of code. -/
def onlyWord (ps : List Piece) : Option Text := do
  let [word] ← words ps | none
  some word

/-- What stands before the first such character of the code, and what behind it. -/
def cutAt (c : Char) (ps : List Piece) : Option (List Piece × List Piece) :=
  match ps.dropWhile (· != .code c) with
  | [] => none
  | _ :: rest => some (ps.takeWhile (· != .code c), rest)

/-- The cell between two commas. -/
def readCell (ps : List Piece) : Option Cell :=
  match ps.filter fun p => !p.char?.any isSpace with
  | [.literal value] => some (.text value)
  | _ => (onlyWord ps).map .word

/-- The name without backquotes. -/
def unquoteName (name : Text) : Text := name.filter (· != '\x60')

/-- The parts of an INSERT statement with one row of values. -/
def readInsert (ps : List Piece) : Option InsertStatement := do
  let (head, rest) ← cutAt '(' ps
  let (columns, rest) ← cutAt ')' rest
  let (between, rest) ← cutAt '(' rest
  let [insert, into, table] ← words head | none
  let [values] ← words between | none
  if insert = "INSERT".toList ∧ into = "INTO".toList ∧ values = "VALUES".toList ∧
      rest.getLast? = some (.code ')') then
    let columns ← (columns.splitOn (.code ',')).mapM onlyWord
    let cells ← (rest.dropLast.splitOn (.code ',')).mapM readCell
    some ⟨table, columns.map unquoteName, cells⟩
  else none

/-! ## The statement -/

/-- Code as pieces. -/
def codes (t : Text) : List Piece := t.map .code

def Cell.pieces : Cell → List Piece
  | .text value => [.literal value]
  | .word t => codes t

/-- Items with a comma and a blank between them. -/
def listed (items : List (List Piece)) : List Piece :=
  List.intercalate [.code ',', .code ' '] items

def InsertStatement.pieces (i : InsertStatement) : List Piece :=
  codes ("INSERT INTO ".toList ++ (i.table ++ [' '])) ++ .code '(' ::
    (listed (i.columns.map codes) ++ .code ')' :: (codes " VALUES ".toList ++ .code '(' ::
      (listed (i.cells.map Cell.pieces) ++ [.code ')'])))

/-- The text is a word that holds none of the given characters. -/
def IsWord (others : Text) (t : Text) : Prop :=
  t ≠ [] ∧ ∀ c ∈ t, isSpace c = false ∧ c ∉ others

instance (others : Text) : DecidablePred (IsWord others) := fun t =>
  have := List.decidableBAll (p := fun c => isSpace c = false ∧ c ∉ others) t
  inferInstanceAs (Decidable (t ≠ [] ∧ ∀ c ∈ t, isSpace c = false ∧ c ∉ others))

/-- A character of a name. -/
def isNameChar (c : Char) : Bool := c.isAlphanum || c == '_'

/-- The text is made of letters, digits and underscores. -/
structure IsName (t : Text) : Prop where
  nonempty : t ≠ []
  chars : ∀ c ∈ t, isNameChar c = true

/-- The names and the words of code can be told apart. -/
structure InsertStatement.Proper (i : InsertStatement) : Prop where
  table : IsWord ['('] i.table
  columns : ∀ column ∈ i.columns, IsWord [',', ')'] column
  cells : ∀ t, Cell.word t ∈ i.cells → IsWord [','] t
  someColumn : i.columns ≠ []
  someCell : i.cells ≠ []

/-! ## Names -/

theorem isSpace_of_isNameChar {c : Char} (name : isNameChar c = true) : isSpace c = false := by
  rw [Bool.eq_false_iff]
  intro space
  simp only [isSpace, Bool.or_eq_true, decide_eq_true_eq] at space
  rcases space with ((((rfl | rfl) | rfl) | rfl) | rfl) | rfl
  all_goals cases name

/-- A literal is a name by its list of characters. -/
theorem isName_ofList {cs : Text} (name : (!cs.isEmpty && cs.all isNameChar) = true) :
    IsName (String.ofList cs).toList := by
  simp only [Bool.and_eq_true, Bool.not_eq_true', List.isEmpty_eq_false_iff, List.all_eq_true]
    at name
  rw [String.toList_ofList]
  exact ⟨name.1, name.2⟩

namespace IsName

variable {t : Text}

theorem not_mem (name : IsName t) {c : Char} (other : isNameChar c = false) : c ∉ t := by
  intro member
  rw [name.chars c member] at other
  cases other

theorem isWord (name : IsName t) {others : Text} (apart : others.all (!isNameChar ·) = true) :
    IsWord others t := by
  refine ⟨name.nonempty, fun c member => ⟨isSpace_of_isNameChar (name.chars c member), ?_⟩⟩
  intro other
  have same := List.all_eq_true.mp apart c other
  rw [name.chars c member] at same
  cases same

theorem isWord_quoted (name : IsName t) {others : Text}
    (apart : others.all (!isNameChar ·) = true) (unquoted : '\x60' ∉ others) :
    IsWord others ('\x60' :: (t ++ ['\x60'])) := by
  refine ⟨List.cons_ne_nil _ _, fun c member => ?_⟩
  have possible : c = '\x60' ∨ c ∈ t ∨ c = '\x60' := by simpa using member
  rcases possible with rfl | inside | rfl
  · exact ⟨rfl, unquoted⟩
  · exact (name.isWord apart).2 c inside
  · exact ⟨rfl, unquoted⟩

theorem unquoteName_eq (name : IsName t) : unquoteName t = t := by
  apply List.filter_eq_self.mpr
  intro c member
  exact bne_iff_ne.mpr fun same => name.not_mem rfl (same ▸ member)

theorem unquoteName_quoted (name : IsName t) : unquoteName ('\x60' :: (t ++ ['\x60'])) = t := by
  rw [unquoteName, List.filter_cons_of_neg (by simp), List.filter_append,
    List.filter_cons_of_neg (by simp), List.filter_nil, List.append_nil]
  exact name.unquoteName_eq

end IsName

/-! ## Words -/

theorem words_codes (t : Text) : words (codes t) = some (runs t) := by
  have chars : (codes t).mapM Piece.char? = some t := by
    rw [codes, List.mapM_map]
    induction t with
    | nil => rfl
    | cons c t ih =>
        rw [List.mapM_cons, ih]
        rfl
  rw [words, chars]
  rfl

theorem words_literal {ps : List Piece} {value : Text} (member : .literal value ∈ ps) :
    words ps = none := by
  have chars : ps.mapM Piece.char? = none := by
    induction ps with
    | nil => cases member
    | cons p ps ih =>
        rw [List.mapM_cons]
        rcases List.mem_cons.mp member with rfl | later
        · rfl
        · rw [ih later]
          cases p <;> rfl
  rw [words, chars]
  rfl

theorem runs_word_blank {others t : Text} (word : IsWord others t) :
    runs t = [t] ∧ runs (' ' :: t) = [t] :=
  have visible := fun c member => (word.2 c member).1
  ⟨runs_visible word.1 visible,
    (runs_append_blank [] t (c := ' ') rfl).trans (runs_visible word.1 visible)⟩

theorem onlyWord_codes {t word : Text} (run : runs t = [word]) :
    onlyWord (codes t) = some word := by
  rw [onlyWord, words_codes, run]
  rfl

theorem mem_codes {t : Text} {c : Char} : Piece.code c ∈ codes t ↔ c ∈ t := by
  simp [codes]

theorem isWord_decimal (n : ℕ) : IsWord [','] (decimal n) := by
  refine ⟨decimal_ne_nil n, ?_⟩
  intro c member
  have digit := isDigit_of_mem_decimal member
  exact ⟨isSpace_of_isDigit digit, by simpa using ne_of_isDigit digit (by decide)⟩

theorem isWord_fixedPoint (x : ℚ) : IsWord [','] (fixedPoint x) := by
  refine ⟨fixedPoint_ne_nil x, ?_⟩
  intro c member
  rcases mem_fixedPoint member with rfl | rfl | digit
  · decide
  · decide
  · exact ⟨isSpace_of_isDigit digit, by simpa using ne_of_isDigit digit (by decide)⟩

/-- What `std::to_string` prints is a word. -/
theorem isWord_toString (x : FloatValue) : IsWord [','] x.toString := by
  cases x with
  | finite x => exact isWord_fixedPoint x
  | infinite negative => cases negative <;> decide
  | nan negative => cases negative <;> decide

/-- A type of floating-point values, with the number that is read of what is printed. -/
class ReadBack (R : Type) [StdToString R] where
  printed : R → Option ℚ
  read : ∀ x : R, readNumber (StdToString.toString x) = printed x
  word : ∀ x : R, IsWord [','] (StdToString.toString x)

instance : ReadBack ℚ where
  printed x := some (sixDecimals x)
  read := readNumber_fixedPoint
  word := isWord_fixedPoint

instance : ReadBack FloatValue where
  printed := FloatValue.printed
  read := readNumber_toString
  word := isWord_toString

/-! ## Commas -/

theorem listed_singleton (item : List Piece) : listed [item] = item :=
  List.intercalate_singleton

theorem listed_cons (item : List Piece) {items : List (List Piece)} (nonempty : items ≠ []) :
    listed (item :: items) = item ++ .code ',' :: .code ' ' :: listed items := by
  rw [listed, List.intercalate_cons_of_ne_nil nonempty, List.append_assoc]
  rfl

/-- Code between commas is the code of the text with commas. -/
theorem listed_codes (ts : List Text) :
    listed (ts.map codes) = codes (List.intercalate ", ".toList ts) := by
  induction ts with
  | nil => rfl
  | cons t ts ih =>
      cases ts with
      | nil => rw [List.map_singleton, listed_singleton, List.intercalate_singleton]
      | cons next ts =>
          have more : (next :: ts).map codes ≠ [] := List.cons_ne_nil _ _
          rw [List.map_cons, listed_cons _ more, ih,
            List.intercalate_cons_of_ne_nil (List.cons_ne_nil _ _)]
          simp [codes]

/-- **A list is taken apart at its commas**, which leaves the blanks in front of the items. -/
theorem splitOn_listed {first : List Piece} {items : List (List Piece)}
    (commas : ∀ item ∈ first :: items, .code ',' ∉ item) :
    (listed (first :: items)).splitOn (.code ',') =
      first :: items.map fun item => .code ' ' :: item := by
  induction items generalizing first with
  | nil =>
      rw [listed_singleton]
      exact List.splitOn_eq_singleton (commas first List.mem_cons_self)
  | cons next items ih =>
      have rest := ih fun item member => commas item (List.mem_cons_of_mem _ member)
      have blank : ((.code ' ' :: listed (next :: items)).splitOn (.code ',')) =
          ((listed (next :: items)).splitOn (.code ',')).modifyHead (List.cons (.code ' ')) := by
        rw [List.splitOn_cons_eq_if_modifyHead]
        exact if_neg (by decide)
      rw [listed_cons _ (List.cons_ne_nil _ _),
        List.splitOn_append_cons_self_of_not_mem (commas first List.mem_cons_self), blank, rest]
      rfl

theorem cutAt_append {c : Char} {ps : List Piece} (absent : .code c ∉ ps) (rest : List Piece) :
    cutAt c (ps ++ .code c :: rest) = some (ps, rest) := by
  have inside : ∀ p ∈ ps, (p != .code c) = true := by
    rintro p member
    rw [bne_iff_ne]
    rintro rfl
    exact absent member
  have stop : ∀ p ∈ (Piece.code c :: rest).head?, (p != .code c) = false := by
    rintro p head
    cases head
    exact bne_self_eq_false _
  rw [cutAt, dropWhile_append_stop _ inside stop, takeWhile_append_stop _ inside stop]

theorem not_mem_listed {c : Char} (other : c ≠ ',' ∧ c ≠ ' ') {items : List (List Piece)}
    (absent : ∀ item ∈ items, .code c ∉ item) : .code c ∉ listed items := by
  induction items with
  | nil => exact List.not_mem_nil
  | cons item items ih =>
      have here := absent item List.mem_cons_self
      have rest := ih fun other member => absent other (List.mem_cons_of_mem _ member)
      cases items with
      | nil =>
          rw [listed_singleton]
          exact here
      | cons next items =>
          rw [listed_cons _ (List.cons_ne_nil _ _)]
          simp only [List.mem_append, List.mem_cons, Piece.code.injEq]
          rintro (member | comma | blank | member)
          · exact here member
          · exact other.1 comma
          · exact other.2 blank
          · exact rest member

/-! ## Cells and columns -/

/-- **A literal is a text whatever it holds; a word of code is a word.** -/
theorem readCell_pieces {cell : Cell} (proper : ∀ t, cell = .word t → IsWord [','] t) :
    readCell cell.pieces = some cell ∧ readCell (.code ' ' :: cell.pieces) = some cell := by
  cases cell with
  | text value => exact ⟨rfl, rfl⟩
  | word t =>
      have word := proper t rfl
      obtain ⟨c, u, rfl⟩ := List.exists_cons_of_ne_nil word.1
      have visible : isSpace c = false := (word.2 c List.mem_cons_self).1
      have runs := runs_word_blank word
      have plain := onlyWord_codes runs.1
      have blank := onlyWord_codes runs.2
      constructor
      · rw [readCell, Cell.pieces, plain]
        simp [codes, Piece.char?, visible]
      · rw [readCell, Cell.pieces]
        change onlyWord (.code ' ' :: codes (c :: u)) = some (c :: u) at blank
        rw [blank]
        simp [codes, Piece.char?, visible, show isSpace ' ' = true from rfl]

/-- What is read item by item is read of the list. -/
theorem mapM_splitOn_listed {α : Type} (read : List Piece → Option α) (render : α → List Piece)
    {items : List α} (nonempty : items ≠ []) (commas : ∀ item ∈ items, .code ',' ∉ render item)
    (back : ∀ item ∈ items, read (render item) = some item ∧
      read (.code ' ' :: render item) = some item) :
    ((listed (items.map render)).splitOn (.code ',')).mapM read = some items := by
  obtain ⟨first, rest, rfl⟩ := List.exists_cons_of_ne_nil nonempty
  have each : ∀ items : List α, (∀ item ∈ items, read (.code ' ' :: render item) = some item) →
      (items.map fun item => .code ' ' :: render item).mapM read = some items := by
    intro items back
    induction items with
    | nil => rfl
    | cons item items ih =>
        rw [List.map_cons, List.mapM_cons, back item List.mem_cons_self,
          ih fun other member => back other (List.mem_cons_of_mem _ member)]
        rfl
  rw [List.map_cons, splitOn_listed (by simpa using commas), List.map_map, List.mapM_cons,
    (back first List.mem_cons_self).1]
  have tail := each rest fun item member => (back item (List.mem_cons_of_mem _ member)).2
  simp only [Function.comp_def, tail]
  rfl

/-! ## Statements -/

/-- **A statement is read back whatever its literals hold.** -/
theorem readInsert_pieces {i : InsertStatement} (proper : i.Proper) :
    readInsert i.pieces = some { i with columns := i.columns.map unquoteName } := by
  have head : Piece.code '(' ∉ codes ("INSERT INTO ".toList ++ (i.table ++ [' '])) := by
    rw [mem_codes]
    have table : '(' ∉ i.table := fun member => (proper.table.2 _ member).2 List.mem_cons_self
    simpa using table
  have columns : Piece.code ')' ∉ listed (i.columns.map codes) := by
    apply not_mem_listed (by decide)
    intro item member
    obtain ⟨column, mem, rfl⟩ := List.mem_map.mp member
    rw [mem_codes]
    exact fun bracket => ((proper.columns column mem).2 _ bracket).2 (by decide)
  have between : Piece.code '(' ∉ codes " VALUES ".toList := by decide
  have table : words (codes ("INSERT INTO ".toList ++ (i.table ++ [' ']))) =
      some ["INSERT".toList, "INTO".toList, i.table] := by
    have apart : "INSERT INTO ".toList ++ (i.table ++ [' ']) =
        "INSERT".toList ++ ' ' :: ("INTO".toList ++ ' ' :: (i.table ++ ' ' :: [])) := rfl
    rw [words_codes, apart, runs_append_blank _ _ rfl, runs_append_blank _ _ rfl,
      runs_append_blank _ _ rfl, (runs_word_blank proper.table).1]
    rfl
  have values : words (codes " VALUES ".toList) = some ["VALUES".toList] := by decide
  rw [InsertStatement.pieces, readInsert, cutAt_append head]
  simp only [Option.bind_eq_bind, Option.bind_some]
  rw [cutAt_append columns]
  simp only [Option.bind_some]
  rw [cutAt_append between]
  simp only [Option.bind_some, table, values]
  have columnsBack := mapM_splitOn_listed onlyWord codes proper.someColumn
    (fun column member comma =>
      ((proper.columns column member).2 _ (mem_codes.mp comma)).2 List.mem_cons_self)
    fun column member =>
      have runs := runs_word_blank (proper.columns column member)
      ⟨onlyWord_codes runs.1, onlyWord_codes runs.2⟩
  have noComma : ∀ cell ∈ i.cells, .code ',' ∉ cell.pieces := by
    intro cell member comma
    cases cell with
    | text value => simp [Cell.pieces] at comma
    | word t => exact ((proper.cells t member).2 _ (mem_codes.mp comma)).2 List.mem_cons_self
  have cellsBack := mapM_splitOn_listed readCell Cell.pieces proper.someCell noComma
    fun cell member => readCell_pieces fun t same => proper.cells t (same ▸ member)
  rw [if_pos ⟨trivial, trivial, trivial, List.getLast?_concat⟩, List.dropLast_concat, columnsBack,
    cellsBack]
  rfl

/-- **With a literal between the columns and the next bracket the statement inserts no
row of values.** -/
theorem readInsert_open {head columns between : List Piece} (first : .code '(' ∉ head)
    (second : .code ')' ∉ columns) (third : .code '(' ∉ between) {value : Text}
    (literal : .literal value ∈ between) (rest : List Piece) :
    readInsert (head ++ .code '(' :: (columns ++ .code ')' :: (between ++ .code '(' :: rest))) =
      none := by
  rw [readInsert, cutAt_append first]
  simp only [Option.bind_eq_bind, Option.bind_some]
  rw [cutAt_append second]
  simp only [Option.bind_some]
  rw [cutAt_append third]
  simp only [Option.bind_some, words_literal literal, Option.bind_none]
  apply Option.bind_eq_none_iff.mpr
  intro ws _
  split <;> rfl

/-- Without a bracket it is no INSERT statement either. -/
theorem readInsert_no_bracket {ps : List Piece} (absent : .code '(' ∉ ps) :
    readInsert ps = none := by
  have cut : cutAt '(' ps = none := by
    have inside : ps.dropWhile (· != .code '(') = [] := by
      rw [List.dropWhile_eq_nil_iff]
      intro p member
      rw [bne_iff_ne]
      rintro rfl
      exact absent member
    rw [cutAt, inside]
  rw [readInsert, cut]
  rfl

end LinuxMonitor.Library
