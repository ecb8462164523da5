import Mathlib.Data.Rat.Cast.Order
import Mathlib.Tactic.FieldSimp
import Mathlib.Tactic.NormNum
import LinuxMonitor.Library.CString
import LinuxMonitor.Library.StdToString
import LinuxMonitor.Monitor.ReadFile
import LinuxMonitor.Proto

/-!
# Memory figures

`MemMonitor::UpdateOnce` reads `/proc/meminfo` into a local `MenInfo` whose fields are not
initialised, and prints the fields into the report.  What the fields hold before the file
is read is a parameter here.  Divisions are exact, and a division by zero gives an infinity or
a NaN; the subtraction of the percentage is one of 64-bit integers.

* `updateOnce_print`: what is reported for a file of lines `Key: number kB`.
* `updateOnce_eq_intended_iff`: **the report is a function of the file, and the intended one,
  exactly when all nineteen keys are there and the total admits the percentage.**
-/

set_option autoImplicit false

namespace LinuxMonitor.Monitor.MemMonitor

open Library

/-! ## The code -/

/-- The fields of `struct MenInfo`. -/
inductive Field where
  | total | free | avail | buffers | cached | swapCached | active | inActive | activeAnon
  | inactiveAnon | activeFile | inactiveFile | dirty | writeback | anonPages | mapped
  | kReclaimable | sReclaimable | sUnreclaim
deriving DecidableEq, Repr

namespace Field

/-- The word that a field is read behind. -/
def word : Field → Text
  | total => "MemTotal:".toList
  | free => "MemFree:".toList
  | avail => "MemAvailable:".toList
  | buffers => "Buffers:".toList
  | cached => "Cached:".toList
  | swapCached => "SwapCached:".toList
  | active => "Active:".toList
  | inActive => "Inactive:".toList
  | activeAnon => "Active(anon):".toList
  | inactiveAnon => "Inactive(anon):".toList
  | activeFile => "Active(file):".toList
  | inactiveFile => "Inactive(file):".toList
  | dirty => "Dirty:".toList
  | writeback => "Writeback:".toList
  | anonPages => "AnonPages:".toList
  | mapped => "Mapped:".toList
  | kReclaimable => "KReclaimable:".toList
  | sReclaimable => "SReclaimable:".toList
  | sUnreclaim => "SUnreclaim:".toList

/-- The fields in the order in which the words are compared. -/
def all : List Field :=
  [total, free, avail, buffers, cached, swapCached, active, inActive, activeAnon, inactiveAnon,
    activeFile, inactiveFile, dirty, writeback, anonPages, mapped, kReclaimable, sReclaimable,
    sUnreclaim]

end Field

/-- `struct MenInfo` -/
abbrev MenInfo := Field → Int64

/-- What ends `UpdateOnce` before its report: an index behind the end of `mem_datas`, an
exception of `std::stoll`. -/
inductive Fault where
  | index
  | exception
deriving DecidableEq, Repr

/-- The branches over `mem_datas[0]`. -/
def readEntry (memInfo : MenInfo) (memDatas : List Text) : Except Fault MenInfo :=
  match memDatas[0]? with
  | none => .error .index
  | some word =>
      match Field.all.find? fun field => field.word = word with
      | none => .ok memInfo
      | some field =>
          match memDatas[1]? with
          | none => .error .index
          | some number =>
              match stoll number with
              | none => .error .exception
              | some value => .ok (Function.update memInfo field value)

def KBToGB : ℚ := 1000 * 1000

/-- The report of a `MenInfo`.  The percentage is computed in floating-point numbers, also for a
total that is zero. -/
def report (memInfo : MenInfo) : Proto.MemInfo FloatValue where
  usedPercent := .finite ((memInfo .total - memInfo .avail).toInt * 1) /
    .finite (memInfo .total).toInt * .finite 100
  total := .finite ((memInfo .total).toInt / KBToGB)
  free := .finite ((memInfo .free).toInt / KBToGB)
  avail := .finite ((memInfo .avail).toInt / KBToGB)
  buffers := .finite ((memInfo .buffers).toInt / KBToGB)
  cached := .finite ((memInfo .cached).toInt / KBToGB)
  swapCached := .finite ((memInfo .swapCached).toInt / KBToGB)
  active := .finite ((memInfo .active).toInt / KBToGB)
  inactive := .finite ((memInfo .inActive).toInt / KBToGB)
  activeAnon := .finite ((memInfo .activeAnon).toInt / KBToGB)
  inactiveAnon := .finite ((memInfo .inactiveAnon).toInt / KBToGB)
  activeFile := .finite ((memInfo .activeFile).toInt / KBToGB)
  inactiveFile := .finite ((memInfo .inactiveFile).toInt / KBToGB)
  dirty := .finite ((memInfo .dirty).toInt / KBToGB)
  writeback := .finite ((memInfo .writeback).toInt / KBToGB)
  anonPages := .finite ((memInfo .anonPages).toInt / KBToGB)
  mapped := .finite ((memInfo .mapped).toInt / KBToGB)
  kReclaimable := .finite ((memInfo .kReclaimable).toInt / KBToGB)
  sReclaimable := .finite ((memInfo .sReclaimable).toInt / KBToGB)
  sUnreclaim := .finite ((memInfo .sUnreclaim).toInt / KBToGB)

/-- `MemMonitor::UpdateOnce(monitor_info)`, with the contents of `mem_info` before the file
is read. -/
def updateOnce (file : Option Text) (memInfo : MenInfo)
    (monitorInfo : Proto.MonitorInfo FloatValue) :
    Except Fault (Proto.MonitorInfo FloatValue) := do
  let memInfo ← (ReadFile.readEach readEntry).result (ReadFile.openFile file, memInfo)
  return { monitorInfo with memInfo := some (report memInfo) }

/-! ## Files of lines `Key: number kB` -/

/-- One line: the key, the number of blanks that pad the number, and the number. -/
structure Entry where
  key : Text
  padding : ℕ
  number : Int64
  visible : key.all (fun c => !isSpace c) = true

/-- The word that the line begins with. -/
def Entry.word (entry : Entry) : Text := entry.key ++ [':']

def Entry.line (entry : Entry) : Text :=
  entry.word ++ (List.replicate (entry.padding + 1) ' ' ++
    (signedDecimal entry.number.toInt ++ " kB".toList))

/-- A file of such lines, each with a key of its own. -/
structure MemText where
  entries : List Entry
  nodup : (entries.map Entry.key).Nodup

def MemText.print (text : MemText) : Text := text.entries.flatMap fun entry => entry.line ++ ['\n']

/-- The number of the line with the field's key.  There is no text when the file cannot be
read. -/
def number? (file : Option MemText) (field : Field) : Option Int64 :=
  file.bind fun text => (text.entries.find? fun entry => entry.word = field.word).map Entry.number

/-- The number of the field's key, zero when the key is absent. -/
def amount (file : Option MemText) (field : Field) : ℤ := ((number? file field).getD 0).toInt

/-- What the report is meant to hold. -/
def intended (file : Option MemText) : Proto.MemInfo ℚ where
  total := amount file .total / 10 ^ 6
  free := amount file .free / 10 ^ 6
  avail := amount file .avail / 10 ^ 6
  buffers := amount file .buffers / 10 ^ 6
  cached := amount file .cached / 10 ^ 6
  swapCached := amount file .swapCached / 10 ^ 6
  active := amount file .active / 10 ^ 6
  inactive := amount file .inActive / 10 ^ 6
  activeAnon := amount file .activeAnon / 10 ^ 6
  inactiveAnon := amount file .inactiveAnon / 10 ^ 6
  activeFile := amount file .activeFile / 10 ^ 6
  inactiveFile := amount file .inactiveFile / 10 ^ 6
  dirty := amount file .dirty / 10 ^ 6
  writeback := amount file .writeback / 10 ^ 6
  anonPages := amount file .anonPages / 10 ^ 6
  mapped := amount file .mapped / 10 ^ 6
  kReclaimable := amount file .kReclaimable / 10 ^ 6
  sReclaimable := amount file .sReclaimable / 10 ^ 6
  sUnreclaim := amount file .sUnreclaim / 10 ^ 6
  usedPercent :=
    if 0 < amount file .total then
      100 * (amount file .total - amount file .avail) / amount file .total
    else 0

/-! ## The words of the fields -/

/-- The branches tell the fields apart, also where one word begins like another. -/
theorem find_word (field : Field) :
    (Field.all.find? fun other => other.word = field.word) = some field := by
  cases field <;> rfl

theorem word_injective {field other : Field} (same : field.word = other.word) : field = other := by
  have found := find_word field
  rw [same, find_word other] at found
  exact (Option.some.inj found).symm

theorem find_word_eq_none {word : Text} (unknown : ∀ field : Field, field.word ≠ word) :
    (Field.all.find? fun other => other.word = word) = none := by
  apply List.find?_eq_none.mpr
  intro field _
  simpa using unknown field

/-! ## What is read -/

/-- What one line does to the fields. -/
def record (memInfo : MenInfo) (entry : Entry) : MenInfo :=
  fun field => if entry.word = field.word then entry.number else memInfo field

theorem record_of_word {entry : Entry} {field : Field} (same : entry.word = field.word)
    (memInfo : MenInfo) :
    record memInfo entry = Function.update memInfo field entry.number := by
  funext other
  by_cases this : other = field
  · subst this
    rw [Function.update_self, record, if_pos same]
  · have differ : entry.word ≠ other.word :=
      fun word => this (word_injective (word.symm.trans same))
    rw [Function.update_of_ne this, record, if_neg differ]

theorem record_of_unknown {entry : Entry} (unknown : ∀ field : Field, field.word ≠ entry.word)
    (memInfo : MenInfo) : record memInfo entry = memInfo := by
  funext field
  rw [record, if_neg (unknown field).symm]

theorem readEntry_words (memInfo : MenInfo) (entry : Entry) (rest : List Text) :
    readEntry memInfo (entry.word :: signedDecimal entry.number.toInt :: rest) =
      .ok (record memInfo entry) := by
  simp only [readEntry, List.getElem?_cons_zero, List.getElem?_cons_succ, stoll_signedDecimal]
  by_cases known : ∃ field : Field, field.word = entry.word
  · obtain ⟨field, same⟩ := known
    rw [← same, find_word field, record_of_word same.symm]
  · have unknown : ∀ field : Field, field.word ≠ entry.word :=
      fun field same => known ⟨field, same⟩
    rw [find_word_eq_none unknown, record_of_unknown unknown]

theorem foldl_record {entries : List Entry} (nodup : (entries.map Entry.key).Nodup)
    (memInfo : MenInfo) (field : Field) :
    entries.foldl record memInfo field =
      ((entries.find? fun entry => entry.word = field.word).map Entry.number).getD
        (memInfo field) := by
  induction entries generalizing memInfo with
  | nil => rfl
  | cons entry entries ih =>
      rw [List.map_cons, List.nodup_cons] at nodup
      rw [List.foldl_cons, ih nodup.2, List.find?_cons]
      by_cases same : entry.word = field.word
      · have once : (entries.find? fun other => other.word = field.word) = none := by
          apply List.find?_eq_none.mpr
          intro other member
          have differ : other.key ≠ entry.key :=
            fun key => nodup.1 (key ▸ List.mem_map_of_mem member)
          simpa [Entry.word, ← same] using differ
        rw [once, record, if_pos same]
        simp [same]
      · rw [record, if_neg same]
        simp [same]

/-! ### Lines as words -/

theorem Entry.word_visible (entry : Entry) : ∀ c ∈ entry.word, isSpace c = false := by
  intro c member
  rcases List.mem_append.mp member with inside | colon
  · exact visible_of_all entry.visible c inside
  · rw [List.mem_singleton.mp colon]
    rfl

theorem Entry.word_ne_nil (entry : Entry) : entry.word ≠ [] := by
  simp [Entry.word]

theorem Entry.line_inside (entry : Entry) : ∀ c ∈ entry.line, c ≠ '\n' := by
  have blank : isSpace '\n' = true := rfl
  intro c member
  rcases List.mem_append.mp member with word | rest
  · rintro rfl
    rw [entry.word_visible _ word] at blank
    cases blank
  · rcases List.mem_append.mp rest with padding | rest
    · rw [List.eq_of_mem_replicate padding]
      decide
    · rcases List.mem_append.mp rest with number | unit
      · rintro rfl
        rw [signedDecimal_visible number] at blank
        cases blank
      · rintro rfl
        revert unit
        decide

theorem Entry.splitLine_line (entry : Entry) :
    ReadFile.splitLine entry.line [] =
      [entry.word, signedDecimal entry.number.toInt, "kB".toList] := by
  have padded : ∀ c ∈ List.replicate (entry.padding + 1) ' ', isSpace c = true := by
    intro c member
    rw [List.eq_of_mem_replicate member]
    rfl
  have behindWord : ∀ c ∈ (List.replicate (entry.padding + 1) ' ' ++
      (signedDecimal entry.number.toInt ++ " kB".toList)).head?, isSpace c = true := by
    intro c head
    rw [List.replicate_succ] at head
    cases head
    rfl
  have behindNumber : ∀ c ∈ (" kB".toList).head?, isSpace c = true := by
    intro c head
    cases head
    rfl
  have words : runs entry.line =
      [entry.word, signedDecimal entry.number.toInt, "kB".toList] := by
    rw [Entry.line, runs_word entry.word_ne_nil entry.word_visible behindWord,
      runs_blanks padded, runs_word (signedDecimal_ne_nil _)
        (fun c member => signedDecimal_visible member) behindNumber]
    rfl
  have ended : endsVisible entry.line = true := by
    rw [Entry.line, ← List.append_assoc, ← List.append_assoc, endsVisible_append (by decide)]
    rfl
  rw [ReadFile.splitLine_eq, words, ended]
  rfl

/-! ## The report -/

/-- The fields after the file is read: their key's number, or what they held before. -/
def filled (file : Option MemText) (memInfo : MenInfo) : MenInfo :=
  fun field => (number? file field).getD (memInfo field)

/-- **`UpdateOnce` reports the numbers of the keys that are there, and what the other fields
held before.** -/
theorem updateOnce_print (file : Option MemText) (memInfo : MenInfo)
    (monitorInfo : Proto.MonitorInfo FloatValue) :
    updateOnce (file.map MemText.print) memInfo monitorInfo =
      .ok { monitorInfo with memInfo := some (report (filled file memInfo)) } := by
  have read : (ReadFile.readEach readEntry).result
      (ReadFile.openFile (file.map MemText.print), memInfo) = .ok (filled file memInfo) := by
    cases file with
    | none =>
        apply Loop.result_stop
        rfl
    | some text =>
        have steps : ∀ (entries : List Entry) (start : MenInfo),
            (entries.map fun entry => ReadFile.splitLine entry.line []).foldlM readEntry start =
              .ok (entries.foldl record start) := by
          intro entries
          induction entries with
          | nil => exact fun start => rfl
          | cons entry entries ih =>
              intro start
              rw [List.map_cons, List.foldlM_cons, entry.splitLine_line, readEntry_words]
              exact ih (record start entry)
        have given : (ReadFile.readEach readEntry).result
            (ReadFile.openFile (some text.print), memInfo) =
              .ok (text.entries.foldl record memInfo) := by
          rw [ReadFile.openFile, ReadFile.readEach_ofText, MemText.print,
            ReadFile.rows_flatMap Entry.line _ (fun entry _ => entry.line_inside)
              (fun entry _ => List.append_ne_nil_of_left_ne_nil entry.word_ne_nil _), steps]
        rw [Option.map_some, given]
        congr 1
        funext field
        rw [foldl_record text.nodup]
        rfl
  rw [updateOnce, read]
  rfl

/-- The part of the report that shows a field. -/
def Field.shown {R : Type} : Field → Proto.MemInfo R → R
  | total => Proto.MemInfo.total
  | free => Proto.MemInfo.free
  | avail => Proto.MemInfo.avail
  | buffers => Proto.MemInfo.buffers
  | cached => Proto.MemInfo.cached
  | swapCached => Proto.MemInfo.swapCached
  | active => Proto.MemInfo.active
  | inActive => Proto.MemInfo.inactive
  | activeAnon => Proto.MemInfo.activeAnon
  | inactiveAnon => Proto.MemInfo.inactiveAnon
  | activeFile => Proto.MemInfo.activeFile
  | inactiveFile => Proto.MemInfo.inactiveFile
  | dirty => Proto.MemInfo.dirty
  | writeback => Proto.MemInfo.writeback
  | anonPages => Proto.MemInfo.anonPages
  | mapped => Proto.MemInfo.mapped
  | kReclaimable => Proto.MemInfo.kReclaimable
  | sReclaimable => Proto.MemInfo.sReclaimable
  | sUnreclaim => Proto.MemInfo.sUnreclaim

theorem memInfo_ext {R : Type} {info other : Proto.MemInfo R} (fields : ∀ field : Field,
    field.shown info = field.shown other) (percent : info.usedPercent = other.usedPercent) :
    info = other := by
  obtain ⟨⟩ := info
  obtain ⟨⟩ := other
  simp only [Proto.MemInfo.mk.injEq]
  exact ⟨fields .total, fields .free, fields .avail, fields .buffers, fields .cached,
    fields .swapCached, fields .active, fields .inActive, fields .activeAnon,
    fields .inactiveAnon, fields .activeFile, fields .inactiveFile, fields .dirty,
    fields .writeback, fields .anonPages, fields .mapped, fields .kReclaimable,
    fields .sReclaimable, fields .sUnreclaim, percent⟩

theorem shown_map (info : Proto.MemInfo ℚ) (field : Field) :
    field.shown (info.map FloatValue.finite) = .finite (field.shown info) := by
  cases field <;> rfl

theorem shown_report (memInfo : MenInfo) (field : Field) :
    field.shown (report memInfo) = .finite ((memInfo field).toInt / 10 ^ 6) := by
  have unit : KBToGB = 10 ^ 6 := by rw [KBToGB]; norm_num
  rw [← unit]
  cases field <;> rfl

/-- The percentage is a number exactly for a total that is not zero. -/
theorem percent_report (memInfo : MenInfo) (percent : ℚ) :
    (report memInfo).usedPercent = .finite percent ↔ memInfo .total ≠ 0 ∧
      percent = (memInfo .total - memInfo .avail).toInt * 1 / (memInfo .total).toInt * 100 := by
  have quotient : (report memInfo).usedPercent = FloatValue.mul (FloatValue.div
      (.finite ((memInfo .total - memInfo .avail).toInt * 1)) (.finite (memInfo .total).toInt))
        (.finite 100) := rfl
  have zero : ((memInfo .total).toInt : ℚ) = 0 ↔ memInfo .total = 0 := by
    rw [Int.cast_eq_zero, ← Int64.toInt_inj]
    rfl
  rw [quotient, FloatValue.div]
  by_cases none : memInfo .total = 0
  · rw [if_neg (not_not.mpr (zero.mpr none))]
    refine iff_of_false ?_ fun both => both.1 none
    split
    · exact FloatValue.noConfusion
    · rw [FloatValue.mul, if_neg (by norm_num)]
      exact FloatValue.noConfusion
  · rw [if_pos (zero.not.mpr none), FloatValue.mul, FloatValue.finite.injEq, eq_comm]
    exact (and_iff_right none).symm

/-- The report consists of the given numbers: each field divided by `10 ^ 6`, and the percentage
of a total that is not zero. -/
theorem report_eq_iff {memInfo : MenInfo} {info : Proto.MemInfo ℚ} :
    report memInfo = info.map .finite ↔
      memInfo .total ≠ 0 ∧ (∀ field, field.shown info = (memInfo field).toInt / 10 ^ 6) ∧
        info.usedPercent =
          (memInfo .total - memInfo .avail).toInt * 1 / (memInfo .total).toInt * 100 := by
  constructor
  · intro same
    have percent := (percent_report memInfo info.usedPercent).mp (by rw [same]; rfl)
    refine ⟨percent.1, fun field => ?_, percent.2⟩
    have shown := shown_report memInfo field
    rw [same, shown_map] at shown
    exact FloatValue.finite.inj shown
  · rintro ⟨positive, fields, percent⟩
    apply memInfo_ext
    · intro field
      rw [shown_report, shown_map, fields]
    · exact (percent_report memInfo info.usedPercent).mpr ⟨positive, percent⟩

theorem intended_shown (file : Option MemText) (field : Field) :
    field.shown (intended file) = amount file field / 10 ^ 6 := by
  cases field <;> rfl

/-! ## When the report is the intended one -/

/-- The total admits the percentage: it is positive and the difference to the available
memory is a 64-bit integer, or it is negative and there is no difference. -/
def PercentFits (total avail : ℤ) : Prop :=
  (0 < total ∧ total - avail < 2 ^ 63) ∨ (total < 0 ∧ avail = total)

/-- The percentage that is computed is the intended one when the difference is computed
without overflow, or is zero as intended. -/
theorem percent_eq_iff {total avail : Int64} :
    (total ≠ 0 ∧ (if (0 : ℤ) < total.toInt then
        (100 * (total.toInt - avail.toInt) / total.toInt : ℚ) else 0) =
      (total - avail).toInt * 1 / total.toInt * 100) ↔
    PercentFits total.toInt avail.toInt := by
  have zero : total ≠ 0 ↔ total.toInt ≠ 0 := by
    rw [not_iff_not, ← Int64.toInt_inj]
    rfl
  have wrapped : (total - avail).toInt = (total.toInt - avail.toInt).bmod (2 ^ 64) :=
    Int64.toInt_sub total avail
  have totalLower : -2 ^ 63 ≤ total.toInt := total.le_toInt
  have totalUpper : total.toInt < 2 ^ 63 := total.toInt_lt
  have availLower : -2 ^ 63 ≤ avail.toInt := avail.le_toInt
  have availUpper : avail.toInt < 2 ^ 63 := avail.toInt_lt
  rw [zero, wrapped]
  generalize total.toInt = t at *
  generalize avail.toInt = a at *
  rcases lt_trichotomy t 0 with negative | rfl | positive
  · have differs : (t : ℚ) ≠ 0 := by exact_mod_cast negative.ne
    have percent : (0 : ℚ) = (t - a).bmod (2 ^ 64) * 1 / t * 100 ↔ (t - a).bmod (2 ^ 64) = 0 := by
      rw [eq_comm]
      simp [differs]
    have same : (t - a).bmod (2 ^ 64) = 0 ↔ a = t := by
      rw [Int.bmod]
      split <;> omega
    rw [if_neg negative.le.not_gt, percent, same, PercentFits]
    omega
  · simp [PercentFits]
  · have differs : (t : ℚ) ≠ 0 := by exact_mod_cast positive.ne'
    have percent : (100 * (t - a) / t : ℚ) = (t - a).bmod (2 ^ 64) * 1 / t * 100 ↔
        t - a = (t - a).bmod (2 ^ 64) := by
      rw [mul_one, div_mul_eq_mul_div, div_left_inj' differs, mul_comm,
        mul_left_inj' (by norm_num)]
      exact_mod_cast Iff.rfl
    have same : t - a = (t - a).bmod (2 ^ 64) ↔ t - a < 2 ^ 63 := by
      rw [Int.bmod]
      split <;> omega
    rw [if_pos positive, percent, same, PercentFits]
    omega

/-- **The report is a function of the file, and the intended one, exactly when all nineteen
keys are there and the total admits the percentage.** -/
theorem updateOnce_eq_intended_iff (file : Option MemText)
    (monitorInfo : Proto.MonitorInfo FloatValue) :
    (∀ memInfo, updateOnce (file.map MemText.print) memInfo monitorInfo =
      .ok { monitorInfo with memInfo := some ((intended file).map .finite) }) ↔
      (∀ field, (number? file field).isSome = true) ∧
        PercentFits (amount file .total) (amount file .avail) := by
  have reported : ∀ memInfo, updateOnce (file.map MemText.print) memInfo monitorInfo =
      .ok { monitorInfo with memInfo := some ((intended file).map .finite) } ↔
        report (filled file memInfo) = (intended file).map .finite := by
    intro memInfo
    rw [updateOnce_print]
    simp
  simp only [reported, report_eq_iff, intended_shown]
  have known : (∀ field, (number? file field).isSome = true) → ∀ memInfo field,
      filled file memInfo field = (number? file field).getD 0 := by
    intro present memInfo field
    obtain ⟨number, found⟩ := Option.isSome_iff_exists.mp (present field)
    rw [filled, found]
    rfl
  constructor
  · intro all
    have present : ∀ field, (number? file field).isSome = true := by
      intro field
      by_contra absent
      -- the field shows what it held before
      have shown := (all fun _ => 1).2.1 field
      rw [Option.not_isSome_iff_eq_none] at absent
      rw [filled, amount, absent] at shown
      revert shown
      decide +kernel
    obtain ⟨nonzero, -, percent⟩ := all fun _ => 0
    rw [known present] at nonzero percent
    rw [known present] at percent
    exact ⟨present, percent_eq_iff.mp ⟨nonzero, percent⟩⟩
  · rintro ⟨present, fits⟩ memInfo
    obtain ⟨nonzero, percent⟩ := percent_eq_iff.mpr fits
    rw [known present, known present]
    refine ⟨nonzero, fun field => ?_, percent⟩
    rw [known present]
    rfl

/-- A file with two of the keys. -/
def twoKeys : MemText :=
  ⟨[⟨"MemTotal".toList, 7, 8, rfl⟩, ⟨"MemAvailable".toList, 3, 2, rfl⟩], by decide⟩

/-- With a key missing the report shows what the local variable held, and with the total
missing a zero in its place is divided by. -/
theorem updateOnce_ne_intended_absent :
    updateOnce (some twoKeys.print) (fun _ => 1) (.named []) ≠
      .ok { Proto.MonitorInfo.named [] with
        memInfo := some ((intended (some twoKeys)).map .finite) } ∧
    (updateOnce none (fun _ => 0) (.named [])).map
        (fun monitorInfo => monitorInfo.memInfo.map Proto.MemInfo.usedPercent) =
      .ok (some (.nan true)) := by
  decide +kernel

end LinuxMonitor.Monitor.MemMonitor
