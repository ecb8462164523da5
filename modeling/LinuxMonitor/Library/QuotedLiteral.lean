import Mathlib.Algebra.BigOperators.Group.List.Basic
import LinuxMonitor.Library.CString

/-!
# Statements with quoted literals

A statement is lexed by the default rules of MySQL for single-quoted literals.  Inside a
literal a doubled quote stands for a quote, a backslash and the character behind it
stand for one character or, before `%` and `_`, for themselves, and a quote that is not
doubled ends the literal.

A statement is rendered from parts: code that holds no quote, and literals that are put
between quotes as they are.

* `weight_le`: no rule makes a text longer, so the pieces of a statement weigh at most
  its length.
* `lex_render_iff`: **the rendered statement lexes back to its parts exactly when every
  literal is verbatim: it holds no quote, and every backslash in it stands before `%` or
  `_`.**
-/

set_option autoImplicit false

namespace LinuxMonitor.Library

/-! ## The lexer -/

/-- A lexed statement: the characters outside literals, and the values of the literals. -/
inductive Piece where
  | code (c : Char)
  | literal (value : Text)
deriving DecidableEq, Repr

/-- Where the lexer stands: outside a literal, inside, behind a backslash, or behind a
quote that may end the literal.  The last three carry the value read so far. -/
inductive LexMode where
  | code
  | inside (value : Text)
  | escape (value : Text)
  | quote (value : Text)

/-- What a backslash and the character behind it stand for. -/
def unescape : Char → Text
  | '0' => ['\x00']
  | 'b' => ['\x08']
  | 'n' => ['\n']
  | 'r' => ['\r']
  | 't' => ['\t']
  | 'Z' => ['\x1a']
  | '%' => ['\\', '%']
  | '_' => ['\\', '_']
  | c => [c]

/-- Lex from a mode on; an open literal at the end is an error. -/
def lexFrom : LexMode → Text → Option (List Piece)
  | .code, [] => some []
  | .code, c :: t =>
      if c = '\'' then lexFrom (.inside []) t
      else (lexFrom .code t).map fun pieces => .code c :: pieces
  | .inside _, [] => none
  | .inside value, c :: t =>
      if c = '\'' then lexFrom (.quote value) t
      else if c = '\\' then lexFrom (.escape value) t
      else lexFrom (.inside (value ++ [c])) t
  | .escape _, [] => none
  | .escape value, c :: t => lexFrom (.inside (value ++ unescape c)) t
  | .quote value, [] => some [.literal value]
  | .quote value, c :: t =>
      if c = '\'' then lexFrom (.inside (value ++ ['\''])) t
      else (lexFrom .code t).map fun pieces => .literal value :: .code c :: pieces

/-- The pieces of a statement. -/
def lex (statement : Text) : Option (List Piece) := lexFrom .code statement

/-! ## Statements from parts -/

/-- A part of a statement under construction. -/
inductive Part where
  | code (t : Text)
  | literal (value : Text)
deriving DecidableEq, Repr

/-- The text of a part: a literal is put between quotes as it is. -/
def Part.render : Part → Text
  | .code t => t
  | .literal value => '\'' :: (value ++ ['\''])

/-- What a part is meant to be lexed to. -/
def Part.pieces : Part → List Piece
  | .code t => t.map .code
  | .literal value => [.literal value]

def render (parts : List Part) : Text := parts.flatMap Part.render

def pieces (parts : List Part) : List Piece := parts.flatMap Part.pieces

theorem pieces_cons (part : Part) (parts : List Part) :
    pieces (part :: parts) = part.pieces ++ pieces parts :=
  List.flatMap_cons

theorem pieces_append (parts others : List Part) :
    pieces (parts ++ others) = pieces parts ++ pieces others :=
  List.flatMap_append

/-- No quote stands in the code, and no two literals are adjacent. -/
def Separated : List Part → Prop
  | [] => True
  | .code t :: parts => '\'' ∉ t ∧ Separated parts
  | [.literal _] => True
  | .literal _ :: .code t :: parts => t ≠ [] ∧ '\'' ∉ t ∧ Separated parts
  | .literal _ :: .literal _ :: _ => False

/-- The literal means itself: it holds no quote, and a backslash only before `%` or
`_`. -/
def Verbatim : Text → Prop
  | [] => True
  | c :: t => c ≠ '\'' ∧ (c = '\\' → t.head? = some '%' ∨ t.head? = some '_') ∧ Verbatim t

instance decidableVerbatim : DecidablePred Verbatim
  | [] => .isTrue trivial
  | c :: t =>
      have := decidableVerbatim t
      inferInstanceAs (Decidable (c ≠ '\'' ∧ (c = '\\' → _) ∧ Verbatim t))

/-! ## Weights -/

/-- The length of the shortest text that a piece can come from, when it is rendered as it
is. -/
def Piece.weight : Piece → ℕ
  | .code _ => 1
  | .literal value => value.length + 2

def weight (ps : List Piece) : ℕ := (ps.map Piece.weight).sum

/-- What the lexer has consumed of an unfinished literal. -/
def LexMode.pending : LexMode → ℕ
  | .code => 0
  | .inside value => value.length + 1
  | .escape value => value.length + 2
  | .quote value => value.length + 2

theorem length_unescape_le (c : Char) : (unescape c).length ≤ 2 := by
  unfold unescape
  split <;> simp

/-- Only the escapes that stand for themselves are as long as their text. -/
theorem unescape_of_length {c : Char} (long : (unescape c).length = 2) :
    (c = '%' ∨ c = '_') ∧ unescape c = ['\\', c] := by
  unfold unescape at long ⊢
  split at long <;> simp_all

/-- **The pieces of a text weigh at most its length.** -/
theorem weight_le {mode : LexMode} {t : Text} {ps : List Piece}
    (lexed : lexFrom mode t = some ps) : weight ps ≤ t.length + mode.pending := by
  induction t generalizing mode ps with
  | nil =>
      cases mode with
      | code => cases lexed; exact Nat.zero_le _
      | inside => cases lexed
      | escape => cases lexed
      | quote value => cases lexed; simp [weight, Piece.weight, LexMode.pending]
  | cons c t ih =>
      cases mode with
      | code =>
          rw [lexFrom] at lexed
          split at lexed
          · have bound := ih lexed
            simpa [LexMode.pending] using bound
          · obtain ⟨rest, tail, rfl⟩ := Option.map_eq_some_iff.mp lexed
            have bound := ih tail
            simp only [weight, List.map_cons, List.sum_cons, Piece.weight, LexMode.pending,
              List.length_cons] at bound ⊢
            omega
      | inside value =>
          rw [lexFrom] at lexed
          split at lexed
          · have bound := ih lexed
            simp only [LexMode.pending, List.length_cons] at bound ⊢
            omega
          · split at lexed
            · have bound := ih lexed
              simp only [LexMode.pending, List.length_cons] at bound ⊢
              omega
            · have bound := ih lexed
              simp only [LexMode.pending, List.length_cons, List.length_append,
                List.length_nil] at bound ⊢
              omega
      | escape value =>
          rw [lexFrom] at lexed
          have bound := ih lexed
          have short := length_unescape_le c
          simp only [LexMode.pending, List.length_cons, List.length_append] at bound ⊢
          omega
      | quote value =>
          rw [lexFrom] at lexed
          split at lexed
          · have bound := ih lexed
            simp only [LexMode.pending, List.length_cons, List.length_append,
              List.length_nil] at bound ⊢
            omega
          · obtain ⟨rest, tail, rfl⟩ := Option.map_eq_some_iff.mp lexed
            have bound := ih tail
            simp only [weight, List.map_cons, List.sum_cons, Piece.weight, LexMode.pending,
              List.length_cons] at bound ⊢
            omega

theorem weight_append (ps qs : List Piece) : weight (ps ++ qs) = weight ps + weight qs := by
  simp [weight]

theorem weight_piecesOf (part : Part) : weight part.pieces = part.render.length := by
  cases part with
  | code t =>
      simp only [Part.pieces, Part.render, weight, List.map_map]
      induction t with
      | nil => rfl
      | cons c t ih =>
          rw [List.map_cons, List.sum_cons, ih, List.length_cons]
          exact Nat.add_comm _ _
  | literal value => simp [Part.pieces, Part.render, weight, Piece.weight]

theorem weight_pieces (parts : List Part) : weight (pieces parts) = (render parts).length := by
  induction parts with
  | nil => rfl
  | cons part parts ih =>
      rw [pieces, render, List.flatMap_cons, List.flatMap_cons, weight_append, List.length_append,
        weight_piecesOf]
      exact congrArg _ ih

/-! ## Literals -/

/-- A verbatim literal is read as it stands. -/
theorem lex_verbatim : ∀ (v value rest : Text), Verbatim v →
    lexFrom (.inside value) (v ++ '\'' :: rest) = lexFrom (.quote (value ++ v)) rest
  | [], value, rest, _ => by
      rw [List.nil_append, lexFrom, if_pos rfl, List.append_nil]
  | c :: t, value, rest, verbatim => by
      by_cases backslash : c = '\\'
      · subst backslash
        cases t with
        | nil => rcases verbatim.2.1 rfl with impossible | impossible <;> cases impossible
        | cons d t =>
            have next : d = '%' ∨ d = '_' := by simpa using verbatim.2.1 rfl
            have kept : unescape d = ['\\', d] := by rcases next with rfl | rfl <;> rfl
            rw [List.cons_append, lexFrom, if_neg (by decide), if_pos rfl, List.cons_append,
              lexFrom, kept, lex_verbatim t _ _ verbatim.2.2.2.2, List.append_assoc]
            rfl
      · rw [List.cons_append, lexFrom, if_neg verbatim.1, if_neg backslash,
          lex_verbatim t _ _ verbatim.2.2, List.append_assoc]
        rfl

/-- A literal that is read as it stands, in a text none of whose characters is lost, is
verbatim. -/
theorem verbatim_of_lex : ∀ (v value rest : Text) (ps : List Piece),
    lexFrom (.inside value) (v ++ '\'' :: rest) = some (.literal (value ++ v) :: ps) →
    rest.length ≤ weight ps → Verbatim v
  | [], _, _, _, _, _ => trivial
  | c :: t, value, rest, ps, lexed, full => by
      have heavy : ∀ {mode : LexMode} {t' : Text},
          lexFrom mode t' = some (.literal (value ++ c :: t) :: ps) →
            value.length + t.length + 3 + rest.length ≤ t'.length + mode.pending := by
        intro mode t' read
        have bound := weight_le read
        simp only [weight, List.map_cons, List.sum_cons, Piece.weight, List.length_append,
          List.length_cons] at bound full ⊢
        omega
      rw [List.cons_append, lexFrom] at lexed
      by_cases quote : c = '\''
      · subst quote
        rw [if_pos rfl] at lexed
        obtain ⟨d, later, ahead⟩ : ∃ d later, t ++ '\'' :: rest = d :: later := by
          cases t with
          | nil => exact ⟨_, _, rfl⟩
          | cons d t => exact ⟨_, _, rfl⟩
        have length := congrArg List.length ahead
        rw [ahead, lexFrom] at lexed
        split at lexed
        · have bound := heavy lexed
          simp only [LexMode.pending, List.length_append, List.length_cons,
            List.length_nil] at bound length
          omega
        · obtain ⟨_, _, same⟩ := Option.map_eq_some_iff.mp lexed
          have ends := congrArg List.length (Piece.literal.inj (List.cons.inj same).1)
          simp at ends
      · rw [if_neg quote] at lexed
        by_cases backslash : c = '\\'
        · subst backslash
          rw [if_pos rfl] at lexed
          cases t with
          | nil =>
              rw [List.nil_append, lexFrom] at lexed
              have bound := heavy lexed
              simp [LexMode.pending, unescape] at bound
              omega
          | cons d t =>
              rw [List.cons_append, lexFrom] at lexed
              have bound := heavy lexed
              have short := length_unescape_le d
              simp only [LexMode.pending, List.length_append, List.length_cons] at bound
              obtain ⟨next, kept⟩ := unescape_of_length (c := d) (by omega)
              have read := lexed
              rw [kept, show value ++ '\\' :: d :: t = (value ++ ['\\', d]) ++ t by simp] at read
              have tail := verbatim_of_lex t _ rest ps read full
              have plain : d ≠ '\'' ∧ d ≠ '\\' := by rcases next with rfl | rfl <;> decide
              refine ⟨quote, fun _ => by simpa using next, plain.1, ?_, tail⟩
              exact fun same => absurd same plain.2
        · rw [if_neg backslash,
            show value ++ c :: t = (value ++ [c]) ++ t by simp] at lexed
          exact ⟨quote, fun same => absurd same backslash, verbatim_of_lex t _ rest ps lexed full⟩

/-! ## Statements -/

/-- Code without quotes is read as it stands. -/
theorem lex_code {t : Text} (plain : '\'' ∉ t) (rest : Text) :
    lexFrom .code (t ++ rest) = (lexFrom .code rest).map fun ps => t.map .code ++ ps := by
  induction t with
  | nil => simp
  | cons c t ih =>
      have other : c ≠ '\'' := fun same => plain (same ▸ List.mem_cons_self)
      have tail := ih fun member => plain (List.mem_cons_of_mem _ member)
      rw [List.cons_append, lexFrom, if_neg other, tail, Option.map_map]
      rfl

/-- A literal ends before code and at the end of the statement. -/
theorem lex_quote {value rest : Text} (ends : rest.head? ≠ some '\'') :
    lexFrom (.quote value) rest = (lexFrom .code rest).map fun ps => .literal value :: ps := by
  cases rest with
  | nil => rfl
  | cons c t =>
      have other : c ≠ '\'' := fun same => ends (by rw [same]; rfl)
      rw [lexFrom, if_neg other, lexFrom, if_neg other, Option.map_map]
      rfl

/-- Behind a literal no quote follows. -/
theorem Separated.behind_literal {value : Text} {parts : List Part}
    (separated : Separated (.literal value :: parts)) :
    (render parts).head? ≠ some '\'' ∧ Separated parts := by
  match parts, separated with
  | [], _ => exact ⟨by simp [render], trivial⟩
  | .code t :: parts, separated =>
      obtain ⟨nonempty, plain, rest⟩ := separated
      obtain ⟨c, t, rfl⟩ := List.exists_cons_of_ne_nil nonempty
      refine ⟨?_, plain, rest⟩
      intro same
      exact plain (List.mem_of_mem_head? same)

/-- **A rendered statement lexes back to its parts exactly when its literals are
verbatim.** -/
theorem lex_render_iff : ∀ {parts : List Part}, Separated parts →
    (lex (render parts) = some (pieces parts) ↔ ∀ v, Part.literal v ∈ parts → Verbatim v)
  | [], _ => by simp [lex, lexFrom, render, pieces]
  | .code t :: parts, separated => by
      have tail := lex_render_iff separated.2
      rw [lex] at tail
      rw [lex, render, pieces, List.flatMap_cons, List.flatMap_cons, Part.render, Part.pieces,
        lex_code separated.1, Option.map_eq_some_iff]
      simp only [List.append_cancel_left_eq, exists_eq_right]
      apply Iff.trans tail
      simp
  | .literal v :: parts, separated => by
      obtain ⟨ends, rest⟩ := separated.behind_literal
      have tail := lex_render_iff rest
      have split : render (.literal v :: parts) = '\'' :: (v ++ '\'' :: render parts) := by
        simp [render, Part.render]
      rw [lex] at tail
      rw [lex, split, lexFrom, if_pos rfl]
      change lexFrom (.inside []) _ = some (.literal v :: pieces parts) ↔ _
      constructor
      · intro lexed
        have verbatim : Verbatim v :=
          verbatim_of_lex v [] _ (pieces parts) lexed (weight_pieces parts).ge
        rw [lex_verbatim v [] _ verbatim, List.nil_append, lex_quote ends] at lexed
        obtain ⟨ps, read, same⟩ := Option.map_eq_some_iff.mp lexed
        rw [(List.cons.inj same).2] at read
        intro w member
        rcases List.mem_cons.mp member with here | there
        · rw [Part.literal.inj here]
          exact verbatim
        · exact tail.mp read w there
      · intro verbatim
        have read := tail.mpr fun w member => verbatim w (List.mem_cons_of_mem _ member)
        rw [lex_verbatim v [] _ (verbatim v List.mem_cons_self), List.nil_append, lex_quote ends,
          read]
        rfl

/-! ## Statements as C strings -/

theorem cString_eq_self {t : Text} (plain : '\x00' ∉ t) : cString t = t := by
  apply List.takeWhile_eq_self_iff.mpr
  intro c member
  have other : c ≠ '\x00' := fun same => plain (same ▸ member)
  simpa using other

theorem not_mem_of_length_cString {t : Text} (whole : t.length ≤ (cString t).length) :
    '\x00' ∉ t := by
  have same : cString t = t := (List.takeWhile_prefix _).eq_of_length_le whole
  intro member
  have kept := List.takeWhile_eq_self_iff.mp same _ member
  simp at kept

/-- **A statement that is passed on as a C string lexes back to its parts exactly when its
literals are verbatim and hold no NUL.** -/
theorem lex_cString_render_iff {parts : List Part} (separated : Separated parts)
    (plain : ∀ t, Part.code t ∈ parts → '\x00' ∉ t) :
    lex (cString (render parts)) = some (pieces parts) ↔
      ∀ v, Part.literal v ∈ parts → Verbatim v ∧ '\x00' ∉ v := by
  constructor
  · intro lexed
    have whole : (render parts).length ≤ (cString (render parts)).length := by
      rw [← weight_pieces]
      exact weight_le lexed
    have clean := not_mem_of_length_cString whole
    rw [cString_eq_self clean] at lexed
    intro v member
    refine ⟨(lex_render_iff separated).mp lexed v member, fun inside => clean ?_⟩
    refine List.mem_flatMap.mpr ⟨_, member, ?_⟩
    exact List.mem_cons_of_mem _ (List.mem_append_left _ inside)
  · intro verbatim
    have clean : '\x00' ∉ render parts := by
      intro member
      obtain ⟨part, inside, here⟩ := List.mem_flatMap.mp member
      cases part with
      | code t => exact plain t inside here
      | literal v =>
          have absent := (verbatim v inside).2
          simp [Part.render, absent] at here
    rw [cString_eq_self clean]
    exact (lex_render_iff separated).mpr fun v member => (verbatim v member).1

end LinuxMonitor.Library
