import LinuxMonitor.Library.InputStream
import LinuxMonitor.Library.Loop

/-!
# Reading a file line by line and word by word

`ReadFile::ReadLine` reads a line, gives up when the stream has come to its end or the
line is empty, and otherwise splits the line with `>>` until the line's stream has come
to its end.  A line without its newline is read together with the end of the file, and
blanks behind the last word leave one more extraction, which fails.

* `splitLine_eq`: the words of a line are its runs, and an empty word behind them when the
  line does not end in one.
* `readEach_ofText`: a loop over `ReadLine` takes the lines that have their newline, up to
  the first empty one.
* `readAll_yields_runs_iff`: **a file is read as the runs of its lines exactly when no line
  ends in a blank and the last line has its newline.**
-/

set_option autoImplicit false

namespace LinuxMonitor.Monitor.ReadFile

open Library InputStream

/-! ## The words of a line -/

/-- A stream that has failed at its end only. -/
abbrev LineStream := { s : InputStream // s.fail = true → s.eof = true }

/-- An extraction fails at the end only, and otherwise leaves less of the stream. -/
theorem extractWord_progress (s : LineStream) (more : s.val.eof = false) :
    (s.val.extractWord.2.fail = true → s.val.extractWord.2.eof = true) ∧
      (s.val.extractWord.2.eof = false →
        s.val.extractWord.2.rest.length < s.val.rest.length) := by
  obtain ⟨⟨rest, eof, fail⟩, sound⟩ := s
  have good : fail = false := by
    cases fail with
    | false => rfl
    | true => exact absurd (sound rfl) (by rw [more]; exact Bool.false_ne_true)
  change eof = false at more
  subst more good
  change ((ofText rest).extractWord.2.fail = true → (ofText rest).extractWord.2.eof = true) ∧
    ((ofText rest).extractWord.2.eof = false →
      (ofText rest).extractWord.2.rest.length < rest.length)
  rcases blank_or_word rest with blank | ⟨blanks, word, tail, rfl, blank, nonempty, visible, stop⟩
  · rw [extractWord_blanks blank]
    exact ⟨fun _ => rfl, fun more => by cases more⟩
  · rw [extractWord_word blank nonempty visible stop]
    have positive := List.length_pos_iff.mpr nonempty
    refine ⟨fun failed => (by cases failed), fun _ => ?_⟩
    change tail.length < (blanks ++ (word ++ tail)).length
    rw [List.length_append, List.length_append]
    omega

/-- One turn of `while (!line_ss.eof()) { line_ss >> word; args->push_back(word); }` -/
def wordTurn (state : LineStream × List Text) : Turn (LineStream × List Text) (List Text) :=
  if more : state.1.val.eof = false then
    .next (⟨state.1.val.extractWord.2, (extractWord_progress state.1 more).1⟩,
      state.2 ++ [state.1.val.extractWord.1.getD []])
  else .stop state.2

/-- The loop over the words of a line. -/
def wordLoop : Loop (LineStream × List Text) (List Text) where
  body := wordTurn
  measure state := if state.1.val.eof then 0 else state.1.val.rest.length + 1
  decreases := by
    intro state state' turn
    unfold wordTurn at turn
    split at turn
    · next more =>
        cases turn
        have shorter := (extractWord_progress state.1 more).2
        rw [more]
        cases ended : state.1.val.extractWord.2.eof with
        | true => simp
        | false => simpa [ended] using shorter ended
    · cases turn

/-- `std::istringstream line_ss(line)` -/
def lineStream (line : Text) : LineStream := ⟨ofText line, fun failed => by cases failed⟩

/-- The words of a line behind those that are there. -/
def splitLine (line : Text) (args : List Text) : List Text :=
  wordLoop.result (lineStream line, args)

/-- The loop ends with the extraction that comes to the end of the line. -/
theorem splitLine_end {line : Text} {word : Option Text} {s : InputStream}
    (extracted : (ofText line).extractWord = (word, s)) (ended : s.eof = true)
    (args : List Text) : splitLine line args = args ++ [word.getD []] := by
  have first : wordLoop.body (lineStream line, args) = .next
      (⟨s, fun _ => ended⟩, args ++ [word.getD []]) := by
    simp only [wordLoop, wordTurn, lineStream, extracted]
    rfl
  rw [splitLine, wordLoop.result_next first]
  exact wordLoop.result_stop (dif_neg (by simp [ended]))

theorem splitLine_more {line tail : Text} {word : Option Text}
    (extracted : (ofText line).extractWord = (word, ofText tail)) (args : List Text) :
    splitLine line args = splitLine tail (args ++ [word.getD []]) := by
  have first : wordLoop.body (lineStream line, args) = .next
      (lineStream tail, args ++ [word.getD []]) := by
    simp only [wordLoop, wordTurn, lineStream, extracted]
    rfl
  exact wordLoop.result_next first

/-- **The words of a line are its runs, with an empty word behind them when the line does
not end in one.** -/
theorem splitLine_eq (line : Text) (args : List Text) :
    splitLine line args = args ++ (runs line ++ if endsVisible line then [] else [[]]) := by
  induction size : line.length using Nat.strong_induction_on generalizing line args with
  | _ n ih =>
      rcases blank_or_word line with
        blank | ⟨blanks, word, tail, rfl, blank, nonempty, visible, stop⟩
      · -- one extraction, which finds no word and sets the end bit
        have nothing : runs line = [] := by
          have dropped := runs_blanks blank []
          rw [List.append_nil] at dropped
          exact dropped
        rw [splitLine_end (extractWord_blanks blank) rfl, nothing, endsVisible_of_blanks blank]
        rfl
      · have extracted := extractWord_word blank nonempty visible stop
        rw [runs_blanks blank, runs_word nonempty visible stop,
          endsVisible_append (List.append_ne_nil_of_left_ne_nil nonempty tail)]
        by_cases last : tail = []
        · -- the word stands at the end of the line
          subst last
          rw [splitLine_end extracted rfl, List.append_nil,
            endsVisible_of_visible nonempty visible]
          rfl
        · have positive := List.length_pos_iff.mpr nonempty
          have shorter : tail.length < n := by
            rw [← size, List.length_append, List.length_append]
            omega
          have behind : (⟨tail, tail.isEmpty, false⟩ : InputStream) = ofText tail := by
            rw [ofText, List.isEmpty_eq_false_iff.mpr last]
          rw [behind] at extracted
          rw [splitLine_more extracted, ih _ shorter tail _ rfl, endsVisible_append last,
            List.append_assoc]
          rfl

/-! ## `ReadLine` -/

/-- `ReadFile(name)`, on a file that may not open. -/
def openFile (file : Option Text) : InputStream :=
  match file with
  | none => ⟨[], false, true⟩
  | some text => ofText text

/-- `ReadFile::ReadLine(args)`: whether there is a line, the words, and the file. -/
def readLine (file : InputStream) (args : List Text) : Bool × List Text × InputStream :=
  let (line, file) := file.getline
  if file.eof || line.isEmpty then (false, args, file)
  else (true, splitLine line args, file)

theorem readLine_length_lt {file file' : InputStream} {args words : List Text}
    (read : readLine file args = (true, words, file')) :
    file'.rest.length < file.rest.length := by
  unfold readLine at read
  cases got : file.getline with
  | mk line rest =>
      rw [got] at read
      dsimp only at read
      split at read
      · cases read
      · next more =>
          cases read
          rw [Bool.or_eq_true, not_or, Bool.not_eq_true, Bool.not_eq_true,
            List.isEmpty_eq_false_iff] at more
          exact getline_length_lt got more.1 more.2

section Each

variable {σ ε : Type*} (step : σ → List Text → Except ε σ)

/-- `while (file.ReadLine(&args)) { …; args.clear(); }`, where what is done with the words of
a line may fail. -/
def readEach : Loop (InputStream × σ) (Except ε σ) where
  body state :=
    match readLine state.1 [] with
    | (false, _, _) => .stop (.ok state.2)
    | (true, words, file) =>
        match step state.2 words with
        | .ok next => .next (file, next)
        | .error fault => .stop (.error fault)
  measure state := state.1.rest.length
  decreases := by
    intro state state' turn
    split at turn
    · cases turn
    · next words file read =>
        split at turn
        · cases turn
          exact readLine_length_lt read
        · cases turn

/-- The lines of a file that have their newline. -/
def wholeLines (t : Text) : List Text :=
  if t.getLast? = some '\n' then lines t else (lines t).dropLast

theorem wholeLines_last {t : Text} (inside : ∀ c ∈ t, c ≠ '\n') : wholeLines t = [] := by
  have unended : t.getLast? ≠ some '\n' :=
    fun last => inside '\n' (List.mem_of_getLast? last) rfl
  rw [wholeLines, if_neg unended]
  by_cases empty : t = []
  · rw [empty]
    rfl
  · rw [lines_last inside empty]
    rfl

theorem wholeLines_line {line : Text} (inside : ∀ c ∈ line, c ≠ '\n') (t : Text) :
    wholeLines (line ++ '\n' :: t) = line :: wholeLines t := by
  rw [wholeLines, lines_append_newline inside, List.getLast?_append_of_ne_nil _ (by simp)]
  by_cases empty : t = []
  · subst empty
    rfl
  · rw [List.getLast?_cons_of_ne_nil empty, wholeLines]
    split
    · rfl
    · exact List.dropLast_cons_of_ne_nil (lines_ne_nil empty)

/-- The lines that `ReadLine` gives, each as its words. -/
def rows (t : Text) : List (List Text) :=
  ((wholeLines t).takeWhile fun line => !line.isEmpty).map fun line => splitLine line []

theorem rows_line {line : Text} (inside : ∀ c ∈ line, c ≠ '\n') (filled : line ≠ []) (t : Text) :
    rows (line ++ '\n' :: t) = splitLine line [] :: rows t := by
  rw [rows, wholeLines_line inside, List.takeWhile_cons, if_pos (by simpa using filled)]
  rfl

/-- A file made of lines that are not empty gives all of them. -/
theorem rows_flatMap {α : Type*} (print : α → Text) (items : List α)
    (inside : ∀ item ∈ items, ∀ c ∈ print item, c ≠ '\n')
    (filled : ∀ item ∈ items, print item ≠ []) :
    rows (items.flatMap fun item => print item ++ ['\n']) =
      items.map fun item => splitLine (print item) [] := by
  induction items with
  | nil => rfl
  | cons item items ih =>
      have rest := ih (fun other member => inside other (List.mem_cons_of_mem item member))
        fun other member => filled other (List.mem_cons_of_mem item member)
      have here := filled item List.mem_cons_self
      rw [List.flatMap_cons, List.append_assoc, List.singleton_append,
        rows_line (inside item List.mem_cons_self) here, rest, List.map_cons]

/-- **A loop over `ReadLine` takes the lines that have their newline, up to the first empty
one.** -/
theorem readEach_ofText (t : Text) (start : σ) :
    (readEach step).result (ofText t, start) = (rows t).foldlM step start := by
  induction t using lines_induction generalizing start with
  | last t inside =>
      -- the end of the file comes with the line
      have stop : (readEach step).body (ofText t, start) = .stop (.ok start) := by
        simp only [readEach, readLine, getline_last inside, Bool.true_or, if_true]
      rw [(readEach step).result_stop stop, rows, wholeLines_last inside]
      rfl
  | line l t inside ih =>
      by_cases empty : l = []
      · subst empty
        have stop : (readEach step).body (ofText ([] ++ '\n' :: t), start) = .stop (.ok start) := by
          simp only [readEach, readLine, getline_line inside, List.isEmpty_nil, Bool.or_true,
            if_true]
        rw [(readEach step).result_stop stop, rows, wholeLines_line inside]
        rfl
      · have read : readLine (ofText (l ++ '\n' :: t)) [] = (true, splitLine l [], ofText t) := by
          have more : l.isEmpty = false := List.isEmpty_eq_false_iff.mpr empty
          simp only [readLine, getline_line inside]
          rw [if_neg (by simp [ofText, more])]
        rw [rows_line inside empty, List.foldlM_cons]
        cases done : step start (splitLine l []) with
        | ok next =>
            have turn : (readEach step).body (ofText (l ++ '\n' :: t), start) =
                .next (ofText t, next) := by
              simp only [readEach, read, done]
            rw [(readEach step).result_next turn, ih next]
            rfl
        | error fault =>
            have turn : (readEach step).body (ofText (l ++ '\n' :: t), start) =
                .stop (.error fault) := by
              simp only [readEach, read, done]
            rw [(readEach step).result_stop turn]
            rfl

end Each

/-! ## The whole file -/

/-- The rows that the calls of `ReadLine` give until it returns `false`. -/
def collect (read : List (List Text)) (words : List Text) : Except Empty (List (List Text)) :=
  .ok (read ++ [words])

/-- Calling `ReadLine` with an emptied vector until it returns `false` ends, and has given
these rows. -/
def Yields (file : InputStream) (read : List (List Text)) : Prop :=
  ∃ turns, loop (readEach collect).body turns (file, []) = some (.ok read)

theorem foldlM_collect (items read : List (List Text)) :
    items.foldlM collect read = .ok (read ++ items) := by
  induction items generalizing read with
  | nil => rw [List.append_nil]; rfl
  | cons words items ih =>
      have rest := ih (read ++ [words])
      rw [List.append_assoc] at rest
      exact rest

/-- **The calls end for every text, and give the lines that have their newline, up to the
first empty one.** -/
theorem yields_iff {t : Text} {read : List (List Text)} :
    Yields (ofText t) read ↔ rows t = read := by
  rw [Yields, (readEach collect).ends_iff, readEach_ofText, foldlM_collect, List.nil_append,
    Except.ok.injEq]

theorem rows_of_noBlank {t : Text} (noBlank : [] ∉ lines t) :
    rows t = (wholeLines t).map fun line => splitLine line [] := by
  have whole : ∀ line ∈ wholeLines t, (!line.isEmpty) = true := by
    intro line member
    have among : line ∈ lines t := by
      unfold wholeLines at member
      split at member
      · exact member
      · exact List.mem_of_mem_dropLast member
    cases line with
    | nil => exact absurd among noBlank
    | cons c line => rfl
  rw [rows, List.takeWhile_eq_self_iff.mpr whole]

/-- A line is split into its runs exactly when it ends in one. -/
theorem splitLine_eq_runs_iff (line : Text) :
    splitLine line [] = runs line ↔ endsVisible line = true := by
  rw [splitLine_eq, List.nil_append]
  cases endsVisible line <;> simp

/-- **A file without empty lines is read as the runs of its lines exactly when no line ends
in a blank and the last line has its newline.** -/
theorem readAll_yields_runs_iff {t : Text} (noBlank : [] ∉ lines t) :
    Yields (ofText t) ((lines t).map runs) ↔
      (∀ line ∈ lines t, endsVisible line = true) ∧ (t = [] ∨ t.getLast? = some '\n') := by
  rw [yields_iff, rows_of_noBlank noBlank]
  by_cases ended : t.getLast? = some '\n'
  · rw [wholeLines, if_pos ended, List.map_inj_left]
    simp only [splitLine_eq_runs_iff, ended, or_true, and_true]
  · by_cases empty : t = []
    · subst empty
      simp [wholeLines, lines]
    · have positive := List.length_pos_iff.mpr (lines_ne_nil empty)
      have differ : (wholeLines t).map (fun line => splitLine line []) ≠ (lines t).map runs := by
        intro same
        have sizes := congrArg List.length same
        rw [wholeLines, if_neg ended, List.length_map, List.length_map,
          List.length_dropLast] at sizes
        omega
      simp [differ, ended, empty]

theorem readAll_yields_runs_line :
    [] ∉ lines "Cached: 5 kB\n".toList ∧
      (Yields (ofText "Cached: 5 kB\n".toList) ((lines "Cached: 5 kB\n".toList).map runs) ↔
        (∀ line ∈ lines "Cached: 5 kB\n".toList, endsVisible line = true) ∧
          ("Cached: 5 kB\n".toList = [] ∨ "Cached: 5 kB\n".toList.getLast? = some '\n')) :=
  ⟨by decide, readAll_yields_runs_iff (by decide)⟩

/-- A last line without its newline is dropped, and a blank at the end of a line adds an
empty word. -/
theorem not_yields_runs_ending :
    ([] ∉ lines "Cached: 5".toList ∧
      ¬Yields (ofText "Cached: 5".toList) ((lines "Cached: 5".toList).map runs)) ∧
    ([] ∉ lines "VmFlags: rd \n".toList ∧
      ¬Yields (ofText "VmFlags: rd \n".toList) ((lines "VmFlags: rd \n".toList).map runs)) := by
  rw [yields_iff, yields_iff]
  decide

end LinuxMonitor.Monitor.ReadFile
