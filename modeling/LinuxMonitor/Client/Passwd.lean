import LinuxMonitor.Client.Username

/-!
# Which line of `/etc/passwd` is taken for the user's

A line has the fields `name:password:uid:gid:gecos:home:shell`.  The search of `my_getpwuid`
compares the third token of what `fgets` puts into the buffer.  `strtok` skips empty fields,
so that behind an empty password the third token is a field behind the user id, and a line
that is too long for the buffer is read in pieces, each as a line of its own.

* `PasswdLine.takenFor`: under which name a line is taken for a user's.
* `takenFor_eq_owner`: a line that fits the buffer and has a password is taken right.
* `myGetpwuid_print`: the search returns the name of the first line taken for the user's.
* `myGetpwuid_eq_intended_iff`: **it returns the name of the user's first line exactly when
  the first line that is the user's or is taken for it is taken right, or two names happen to
  be the same.**
-/

set_option autoImplicit false

namespace LinuxMonitor.Client

open Library

/-! ## Two searches through a list -/

section Searches

variable {α β : Type*} (f g : α → Option β)

theorem findSome?_eq_some_iff_find? {xs : List α} {b : β} :
    xs.findSome? f = some b ↔ ∃ x, xs.find? (fun x => (f x).isSome) = some x ∧ f x = some b := by
  induction xs with
  | nil => simp
  | cons x xs ih =>
      rw [List.findSome?_cons, List.find?_cons]
      cases here : f x with
      | none =>
          simp only [Option.isSome_none]
          exact ih
      | some found => simp [here]

/-- Searches that agree on the elements give the same. -/
theorem findSome?_eq_of_mem {f g : α → Option β} {xs : List α} (agree : ∀ x ∈ xs, f x = g x) :
    xs.findSome? f = xs.findSome? g := by
  induction xs with
  | nil => rfl
  | cons x xs ih =>
      rw [List.findSome?_cons, List.findSome?_cons, agree x List.mem_cons_self,
        ih fun y member => agree y (List.mem_cons_of_mem x member)]

/-- **Two searches give the same exactly when they agree on the first element on which one of
them stops, or stop at different elements with the same result.** -/
theorem findSome?_eq_iff {xs : List α} :
    xs.findSome? f = xs.findSome? g ↔
      (∀ x ∈ xs.find? (fun x => (f x).isSome || (g x).isSome), f x = g x) ∨
        ∃ x y b, x ≠ y ∧ xs.find? (fun x => (f x).isSome) = some x ∧
          xs.find? (fun x => (g x).isSome) = some y ∧ f x = some b ∧ g y = some b := by
  induction xs with
  | nil => simp
  | cons x xs ih =>
      simp only [List.findSome?_cons, List.find?_cons]
      cases here : f x with
      | none =>
          cases there : g x with
          | none => exact ih
          | some b =>
              simp only [Option.isSome_none, Option.isSome_some, Bool.or_true, Option.mem_def,
                Option.some.injEq]
              constructor
              · intro found
                obtain ⟨z, first, value⟩ := (findSome?_eq_some_iff_find? f).mp found
                refine Or.inr ⟨z, x, b, ?_, first, rfl, value, there⟩
                rintro rfl
                rw [here] at value
                cases value
              · rintro (agree | ⟨z, y, b', -, first, rfl, value, value'⟩)
                · have same := agree x rfl
                  rw [here, there] at same
                  cases same
                · rw [there, Option.some.injEq] at value'
                  exact (findSome?_eq_some_iff_find? f).mpr ⟨z, first, value' ▸ value⟩
      | some b =>
          cases there : g x with
          | none =>
              simp only [Option.isSome_none, Option.isSome_some, Bool.true_or, Option.mem_def,
                Option.some.injEq]
              constructor
              · intro found
                obtain ⟨z, first, value⟩ := (findSome?_eq_some_iff_find? g).mp found.symm
                refine Or.inr ⟨x, z, b, ?_, rfl, first, here, value⟩
                rintro rfl
                rw [there] at value
                cases value
              · rintro (agree | ⟨y, z, b', -, rfl, first, value, value'⟩)
                · have same := agree x rfl
                  rw [here, there] at same
                  cases same
                · rw [here, Option.some.injEq] at value
                  exact ((findSome?_eq_some_iff_find? g).mpr ⟨z, first, value ▸ value'⟩).symm
          | some b' =>
              simp only [Option.isSome_some, Bool.true_or, Option.mem_def, Option.some.injEq]
              constructor
              · rintro rfl
                refine Or.inl fun y same => ?_
                rw [← same, here, there]
              · rintro (agree | ⟨y, z, b'', other, rfl, rfl, -, -⟩)
                · have same := agree x rfl
                  rw [here, there, Option.some.injEq] at same
                  exact same
                · exact absurd rfl other

end Searches

/-! ## Lines -/

/-- A well-formed line.  No field holds a colon, a newline or a NUL; the name and the user id
are not empty, and the id is a decimal number that an `int` holds. -/
structure PasswdLine where
  name : Text
  password : Text
  uid : Text
  gid : Text
  gecos : Text
  home : Text
  shell : Text
  plain : ∀ field ∈ [name, password, uid, gid, gecos, home, shell],
    ∀ c ∈ field, c ≠ ':' ∧ c ≠ '\n' ∧ c ≠ '\x00'
  named : name ≠ []
  digits : uid ≠ [] ∧ ∀ c ∈ uid, c.isDigit = true
  small : digitsValue uid < 2 ^ 31

namespace PasswdLine

/-- The fields behind the user id. -/
def behindUid (l : PasswdLine) : Text :=
  l.gid ++ ':' :: (l.gecos ++ ':' :: (l.home ++ ':' :: l.shell))

def text (l : PasswdLine) : Text :=
  l.name ++ ':' :: (l.password ++ ':' :: (l.uid ++ ':' :: l.behindUid))

/-- The name, when the line is the user's. -/
def owner (uid : UInt32) (l : PasswdLine) : Option Text :=
  if digitsValue l.uid = uid.toNat then some l.name else none

/-- The field that is compared: the user id, or the first field behind it that is not empty,
where the newline counts, when the password is empty. -/
def comparedField (l : PasswdLine) : Text :=
  if l.password ≠ [] then l.uid
  else ([l.gid, l.gecos, l.home].find? fun field => field ≠ []).getD (l.shell ++ ['\n'])

/-- The name under which a piece of a line is taken for the user's: its first token, when its
third one reads as the user id. -/
def takenPiece (uid : UInt32) (piece : Text) : Option Text :=
  match tokens ':' piece with
  | name :: _ :: third :: _ => if UInt32.ofInt (atoi third) = uid then some name else none
  | _ => none

/-- The name under which the line is taken for the user's.  A line that fits the buffer is
taken by its compared field, a longer one by its pieces. -/
def takenFor (uid : UInt32) (l : PasswdLine) : Option Text :=
  if l.text.length < 1023 then
    if UInt32.ofInt (atoi l.comparedField) = uid then some l.name else none
  else (bufferPieces 1023 (l.text ++ ['\n'])).findSome? (takenPiece uid)

/-- The loop compares the third token of what is in the buffer. -/
theorem matchLine_eq_takenPiece (uid : UInt32) {piece : Text} (text : ∀ c ∈ piece, c ≠ '\x00') :
    matchLine uid piece = takenPiece uid piece := by
  have first := strtok_tokens ':' piece
  have second := strtok_tokens ':' (strtok ':' piece).2
  have third := strtok_tokens ':' (strtok ':' (strtok ':' piece).2).2
  rw [matchLine, cString_of_no_nul text, takenPiece]
  dsimp only
  rw [first.1, third.1, second.2, first.2]
  rcases tokens ':' piece with _ | ⟨name, _ | ⟨password, _ | ⟨uidStr, rest⟩⟩⟩ <;> rfl

variable (l : PasswdLine)

theorem field_plain {field : Text} (member : field ∈ [l.name, l.password, l.uid, l.gid, l.gecos,
    l.home, l.shell]) : ∀ c ∈ field, c ≠ ':' := fun c inside => (l.plain field member c inside).1

/-- A line holds no newline and no NUL. -/
theorem text_plain : ∀ c ∈ l.text, c ≠ '\n' ∧ c ≠ '\x00' := by
  have colon : ':' ≠ '\n' ∧ ':' ≠ '\x00' := by decide
  have fields : ∀ field ∈ [l.name, l.password, l.uid, l.gid, l.gecos, l.home, l.shell],
      ∀ c ∈ field, c ≠ '\n' ∧ c ≠ '\x00' :=
    fun field member c inside => (l.plain field member c inside).2
  simp only [List.mem_cons, List.not_mem_nil, or_false, forall_eq_or_imp, forall_eq] at fields
  obtain ⟨name, password, uid, gid, gecos, home, shell⟩ := fields
  intro c member
  simp only [text, behindUid, List.mem_append, List.mem_cons] at member
  rcases member with h | rfl | h | rfl | h | rfl | h | rfl | h | rfl | h | rfl | h
  · exact name c h
  · exact colon
  · exact password c h
  · exact colon
  · exact uid c h
  · exact colon
  · exact gid c h
  · exact colon
  · exact gecos c h
  · exact colon
  · exact home c h
  · exact colon
  · exact shell c h

theorem line_no_nul : ∀ c ∈ l.text ++ ['\n'], c ≠ '\x00' := by
  intro c member
  rcases List.mem_append.mp member with inside | newline
  · exact (l.text_plain c inside).2
  · rw [List.mem_singleton.mp newline]
    decide

/-- **The first token behind the user id is the first field that is not empty.** -/
theorem strtok_behindUid : (strtok ':' (l.behindUid ++ ['\n'])).1 =
    some (([l.gid, l.gecos, l.home].find? fun field => field ≠ []).getD (l.shell ++ ['\n'])) := by
  have last : (strtok ':' (l.shell ++ ['\n'])).1 = some (l.shell ++ ['\n']) := by
    have inside : ∀ c ∈ l.shell ++ ['\n'], c ≠ ':' := by
      intro c member
      rcases List.mem_append.mp member with shell | newline
      · exact l.field_plain (by simp) c shell
      · rw [List.mem_singleton.mp newline]
        decide
    rw [strtok_last (by simp) inside]
  have field : ∀ f ∈ [l.gid, l.gecos, l.home], ∀ rest,
      (strtok ':' (f ++ ':' :: rest)).1 =
        if f = [] then (strtok ':' rest).1 else some f := by
    intro f member rest
    split
    · next empty => rw [empty, List.nil_append, strtok_separator]
    · next filled =>
        rw [strtok_field filled (l.field_plain (by simp at member ⊢; tauto))]
  have shape : l.behindUid ++ ['\n'] =
      l.gid ++ ':' :: (l.gecos ++ ':' :: (l.home ++ ':' :: (l.shell ++ ['\n']))) := by
    simp [behindUid]
  rw [shape, field _ (by simp), field _ (by simp), field _ (by simp), last]
  simp only [List.find?_cons, List.find?_nil]
  by_cases gid : l.gid = []
  · by_cases gecos : l.gecos = []
    · by_cases home : l.home = [] <;> simp [gid, gecos, home]
    · simp [gid, gecos]
  · simp [gid]

/-- **The third token of a line is the compared field.** -/
theorem matchLine_text (uid : UInt32) :
    matchLine uid (l.text ++ ['\n']) =
      if UInt32.ofInt (atoi l.comparedField) = uid then some l.name else none := by
  have whole : cString (l.text ++ ['\n']) = l.text ++ ['\n'] := cString_of_no_nul l.line_no_nul
  have shape : l.text ++ ['\n'] =
      l.name ++ ':' :: (l.password ++ ':' :: (l.uid ++ ':' :: (l.behindUid ++ ['\n']))) := by
    simp [text]
  have first := strtok_field l.named (l.field_plain (by simp))
    (l.password ++ ':' :: (l.uid ++ ':' :: (l.behindUid ++ ['\n'])))
  have uidToken := strtok_field l.digits.1 (l.field_plain (by simp)) (l.behindUid ++ ['\n'])
  rw [matchLine, whole, shape, first, comparedField]
  dsimp only
  by_cases password : l.password = []
  · have second := @strtok_separator ':' (l.uid ++ ':' :: (l.behindUid ++ ['\n']))
    rw [if_neg (not_not.mpr password), password, List.nil_append, second, uidToken]
    simp only [l.strtok_behindUid, Option.getD_some]
  · have second := strtok_field password (l.field_plain (by simp))
      (l.uid ++ ':' :: (l.behindUid ++ ['\n']))
    rw [if_pos password, second, uidToken]
    rfl

/-- What a line is taken for is what its pieces in the buffer match. -/
theorem findSome?_pieces (uid : UInt32) :
    (bufferPieces 1023 (l.text ++ ['\n'])).findSome? (matchLine uid) = l.takenFor uid := by
  rw [takenFor]
  split
  · next fits =>
      have short : (l.text ++ ['\n']).length ≤ 1023 := by
        rw [List.length_append, List.length_singleton]
        omega
      rw [bufferPieces_of_fits (by simp) short, List.findSome?_cons, List.findSome?_nil,
        l.matchLine_text]
      split
      · next found => exact found.symm
      · next missed => exact missed.symm
  · apply findSome?_eq_of_mem
    intro piece member
    apply matchLine_eq_takenPiece
    exact fun c inside => l.line_no_nul c (mem_of_mem_bufferPieces piece member c inside)

/-- A line that fits the buffer is taken right exactly when its compared field reads as the
user id for the user's own line and for no other. -/
theorem takenFor_eq_owner_iff (fits : l.text.length < 1023) (uid : UInt32) :
    l.takenFor uid = l.owner uid ↔
      (UInt32.ofInt (atoi l.comparedField) = uid ↔ digitsValue l.uid = uid.toNat) := by
  rw [takenFor, if_pos fits, owner]
  by_cases compared : UInt32.ofInt (atoi l.comparedField) = uid <;>
    by_cases own : digitsValue l.uid = uid.toNat <;> simp [compared, own]

/-- **A line that fits the buffer and has a password is taken right.** -/
theorem takenFor_eq_owner (fits : l.text.length < 1023) (password : l.password ≠ [])
    (uid : UInt32) : l.takenFor uid = l.owner uid := by
  have value := atoi_digits l.digits.1 l.digits.2 l.small
  have small := l.small
  have read : (UInt32.ofInt (digitsValue l.uid : ℤ)).toNat = digitsValue l.uid := by
    rw [UInt32.ofInt, UInt32.toNat_ofNat']
    omega
  rw [l.takenFor_eq_owner_iff fits, comparedField, if_pos password, value, ← UInt32.toNat_inj,
    read]

end PasswdLine

/-! ## The search -/

/-- The text of a file. -/
def passwdText (lines : List PasswdLine) : Text := lines.flatMap fun l => l.text ++ ['\n']

/-- The name of the first line of the user. -/
def intended (uid : UInt32) (lines : List PasswdLine) : Option Text :=
  (lines.find? fun l => digitsValue l.uid = uid.toNat).map PasswdLine.name

theorem intended_eq (uid : UInt32) (lines : List PasswdLine) :
    intended uid lines = lines.findSome? (PasswdLine.owner uid) := by
  rw [intended]
  induction lines with
  | nil => rfl
  | cons l lines ih =>
      rw [List.find?_cons, List.findSome?_cons, ← ih, PasswdLine.owner]
      by_cases same : digitsValue l.uid = uid.toNat <;> simp [same]

/-- The search through what is left of the file. -/
def search (uid : UInt32) (file : Text) : Option Text := searchPasswd uid file.length file

/-- One turn of the loop. -/
theorem search_read {uid : UInt32} {file piece rest : Text}
    (read : fgets lineSize file = some (piece, rest)) :
    search uid file = (matchLine uid piece).or (search uid rest) := by
  have shorter := fgets_length_lt (by decide) read
  obtain ⟨fuel, length⟩ : ∃ fuel, file.length = fuel + 1 := ⟨file.length - 1, by omega⟩
  rw [search, length, searchPasswd, read]
  cases matched : matchLine uid piece with
  | some name => simp only [matched, Option.some_or]
  | none =>
      simp only [matched, Option.none_or]
      exact searchPasswd_fuel uid (by omega)

/-- The search takes a line in pieces. -/
theorem search_line (uid : UInt32) {line : Text} (inside : ∀ c ∈ line, c ≠ '\n') (rest : Text) :
    search uid (line ++ '\n' :: rest) =
      ((bufferPieces 1023 (line ++ ['\n'])).findSome? (matchLine uid)).or (search uid rest) := by
  induction size : line.length using Nat.strong_induction_on generalizing line with
  | _ n ih =>
      have taken := takeLine_line 1023 inside rest
      have read : fgets lineSize (line ++ '\n' :: rest) =
          some ((line ++ ['\n']).take 1023, (line ++ ['\n']).drop 1023 ++ rest) := by
        rw [← taken]
        cases line <;> rfl
      rw [search_read read, bufferPieces_cons (by simp) (by decide), List.findSome?_cons]
      have tail : search uid ((line ++ ['\n']).drop 1023 ++ rest) =
          ((bufferPieces 1023 ((line ++ ['\n']).drop 1023)).findSome? (matchLine uid)).or
            (search uid rest) := by
        by_cases long : 1023 ≤ line.length
        · have behind : (line ++ ['\n']).drop 1023 = line.drop 1023 ++ ['\n'] :=
            List.drop_append_of_le_length long
          have shorter : (line.drop 1023).length < n := by
            rw [List.length_drop]
            omega
          have later := ih _ shorter (fun c member => inside c (List.mem_of_mem_drop member)) rfl
          rw [behind, List.append_assoc, List.singleton_append, later]
        · have none : (line ++ ['\n']).drop 1023 = [] := by
            apply List.drop_of_length_le
            rw [List.length_append, List.length_singleton]
            omega
          rw [none, List.nil_append, bufferPieces_nil, List.findSome?_nil, Option.none_or]
      rw [tail]
      cases matchLine uid ((line ++ ['\n']).take 1023) <;> rfl

theorem search_passwdText (uid : UInt32) (lines : List PasswdLine) :
    search uid (passwdText lines) = lines.findSome? (PasswdLine.takenFor uid) := by
  induction lines with
  | nil => rfl
  | cons l lines ih =>
      have shape : passwdText (l :: lines) = l.text ++ '\n' :: passwdText lines := by
        simp [passwdText]
      rw [shape, search_line uid fun c member => (l.text_plain c member).1, ih,
        l.findSome?_pieces, List.findSome?_cons]
      cases l.takenFor uid <;> rfl

/-- **The search returns the name of the first line that is taken for the user's.** -/
theorem myGetpwuid_print (uid : UInt32) (lines : List PasswdLine) :
    myGetpwuid (some (passwdText lines)) uid = lines.findSome? (PasswdLine.takenFor uid) :=
  search_passwdText uid lines

/-- **`my_getpwuid` returns the name of the user's first line, and nothing when there is none,
exactly when the first line that is the user's or is taken for it is taken right, or two
different lines, the first one taken for the user's and the user's first one, have the same
name.** -/
theorem myGetpwuid_eq_intended_iff (uid : UInt32) (lines : List PasswdLine) :
    myGetpwuid (some (passwdText lines)) uid = intended uid lines ↔
      (∀ l ∈ lines.find? (fun l => (l.takenFor uid).isSome || (l.owner uid).isSome),
        l.takenFor uid = l.owner uid) ∨
        ∃ taken own name, taken ≠ own ∧
          lines.find? (fun l => (l.takenFor uid).isSome) = some taken ∧
          lines.find? (fun l => (l.owner uid).isSome) = some own ∧
          taken.takenFor uid = some name ∧ own.owner uid = some name := by
  rw [myGetpwuid_print, intended_eq]
  exact findSome?_eq_iff _ _

/-- A file whose lines fit the buffer and have a password is searched right. -/
theorem myGetpwuid_eq_intended (uid : UInt32) {lines : List PasswdLine}
    (usual : ∀ l ∈ lines, l.text.length < 1023 ∧ l.password ≠ []) :
    myGetpwuid (some (passwdText lines)) uid = intended uid lines := by
  rw [myGetpwuid_print, intended_eq]
  induction lines with
  | nil => rfl
  | cons l lines ih =>
      have here := usual l List.mem_cons_self
      rw [List.findSome?_cons, List.findSome?_cons, l.takenFor_eq_owner here.1 here.2,
        ih fun other member => usual other (List.mem_cons_of_mem l member)]

/-- A user without a password in front of the superuser, with the superuser's group. -/
def guestFirst : List PasswdLine :=
  [{ name := ['g', 'u', 'e', 's', 't'], password := [], uid := ['1', '0', '0', '1'], gid := ['0'],
     gecos := [], home := [], shell := [], plain := by simp, named := by simp,
     digits := by simp, small := by decide },
   { name := ['r', 'o', 'o', 't'], password := ['x'], uid := ['0'], gid := ['0'], gecos := [],
     home := ['/'], shell := ['/', 's', 'h'], plain := by simp, named := by simp,
     digits := by simp, small := by decide }]

/-- The superuser is taken for the guest. -/
theorem myGetpwuid_ne_intended_guest :
    myGetpwuid (some (passwdText guestFirst)) 0 ≠ intended 0 guestFirst := by
  decide

end LinuxMonitor.Client
