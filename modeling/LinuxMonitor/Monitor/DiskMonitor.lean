import Mathlib.Data.Rat.Defs
import Mathlib.Data.List.AList
import LinuxMonitor.Library.InputStream
import LinuxMonitor.Proto

/-!
# `DiskMonitor`: block device counters and rates

`updateOnce` reads `/proc/diskstats` line by line, extracts two numbers, the
device name and nine counters by position, skips the virtual devices and reports
the counters with rates against the previous sample of the same device.

The kernel prints eleven counters behind the name (`DiskstatsLine`), among them
the merged requests, which the nine positional extractions do not skip.

* `parseLine_render`: the nine extracted fields are the first nine columns.
* `updateOnce_counters`: the reported counters are the extracted ones, one
  message for each visible line in line order.
* `updateOnce_decodes_iff`: **the reported counters are the counters of the same
  meaning exactly when seven pairs of columns hold equal values in every visible
  line** (`ColumnsAgree`).
-/

set_option autoImplicit false

namespace LinuxMonitor.Monitor.DiskMonitor

open Library

/-! ## The monitor -/

/-- The counters of one device, as `struct DiskInfo` holds them. -/
structure DiskInfo where
  name : Text
  reads : UInt64
  writes : UInt64
  sectorsRead : UInt64
  sectorsWritten : UInt64
  readTimeMs : UInt64
  writeTimeMs : UInt64
  ioInProgress : UInt64
  ioTimeMs : UInt64
  weightedIoTimeMs : UInt64
deriving DecidableEq, Repr

/-- The members of `DiskMonitor`: the previous counters of each device and the
second at which they were read. -/
structure State where
  previousDiskStats : AList (fun _ : Text => DiskInfo)
  lastTime : AList (fun _ : Text => ℤ)

/-- A new monitor. -/
def State.initial : State := ⟨∅, ∅⟩

/-- `iss >> major >> minor >> curr.name >> curr.reads >> …` into a zeroed
`DiskInfo`. -/
def parseLine (line : Text) : DiskInfo :=
  let iss := InputStream.ofText line
  let (_, iss) := iss.extractInt32
  let (_, iss) := iss.extractInt32
  let (name, iss) := iss.extractWord
  let (reads, iss) := iss.extractUInt64
  let (writes, iss) := iss.extractUInt64
  let (sectorsRead, iss) := iss.extractUInt64
  let (sectorsWritten, iss) := iss.extractUInt64
  let (readTimeMs, iss) := iss.extractUInt64
  let (writeTimeMs, iss) := iss.extractUInt64
  let (ioInProgress, iss) := iss.extractUInt64
  let (ioTimeMs, iss) := iss.extractUInt64
  let (weightedIoTimeMs, _) := iss.extractUInt64
  { name := name.getD []
    reads := reads.getD 0
    writes := writes.getD 0
    sectorsRead := sectorsRead.getD 0
    sectorsWritten := sectorsWritten.getD 0
    readTimeMs := readTimeMs.getD 0
    writeTimeMs := writeTimeMs.getD 0
    ioInProgress := ioInProgress.getD 0
    ioTimeMs := ioTimeMs.getD 0
    weightedIoTimeMs := weightedIoTimeMs.getD 0 }

/-- `curr.name.find("loop") == 0 || curr.name.find("ram") == 0` -/
def isVirtualDisk (name : Text) : Bool :=
  "loop".toList.isPrefixOf name || "ram".toList.isPrefixOf name

/-- The seven rates of a message. -/
structure Rates where
  readBytesPerSec : ℚ
  writeBytesPerSec : ℚ
  readIops : ℚ
  writeIops : ℚ
  avgReadLatencyMs : ℚ
  avgWriteLatencyMs : ℚ
  utilPercent : ℚ
deriving DecidableEq, Repr

def Rates.zero : Rates := ⟨0, 0, 0, 0, 0, 0, 0⟩

/-- The rates over `dt` seconds.  The differences are taken in `uint64_t` before
they become `double`. -/
def ratesOver (dt : ℚ) (curr last : DiskInfo) : Rates :=
  let readIos : ℚ := (curr.reads - last.reads).toNat
  let writeIos : ℚ := (curr.writes - last.writes).toNat
  let readBytes : ℚ := (curr.sectorsRead - last.sectorsRead).toNat * 512
  let writeBytes : ℚ := (curr.sectorsWritten - last.sectorsWritten).toNat * 512
  let readTime : ℚ := (curr.readTimeMs - last.readTimeMs).toNat
  let writeTime : ℚ := (curr.writeTimeMs - last.writeTimeMs).toNat
  let ioTime : ℚ := (curr.ioTimeMs - last.ioTimeMs).toNat
  { readBytesPerSec := readBytes / dt
    writeBytesPerSec := writeBytes / dt
    readIops := readIos / dt
    writeIops := writeIos / dt
    avgReadLatencyMs := if readIos > 0 then readTime / readIos else 0
    avgWriteLatencyMs := if writeIos > 0 then writeTime / writeIos else 0
    utilPercent := ioTime / (dt * 10) }

/-- The rates against the stored sample of the same name. -/
def rates (now : ℤ) (state : State) (curr : DiskInfo) : Rates :=
  match state.previousDiskStats.lookup curr.name with
  | some last =>
      let dt : ℚ := now - (state.lastTime.lookup curr.name).getD 0
      if dt > 0 then ratesOver dt curr last else .zero
  | none => .zero

/-- The message of one sample. -/
def message (curr : DiskInfo) (r : Rates) : Proto.DiskInfo ℚ :=
  { name := curr.name
    reads := curr.reads
    writes := curr.writes
    sectorsRead := curr.sectorsRead
    sectorsWritten := curr.sectorsWritten
    readTimeMs := curr.readTimeMs
    writeTimeMs := curr.writeTimeMs
    ioInProgress := curr.ioInProgress
    ioTimeMs := curr.ioTimeMs
    weightedIoTimeMs := curr.weightedIoTimeMs
    readBytesPerSec := r.readBytesPerSec
    writeBytesPerSec := r.writeBytesPerSec
    readIops := r.readIops
    writeIops := r.writeIops
    avgReadLatencyMs := r.avgReadLatencyMs
    avgWriteLatencyMs := r.avgWriteLatencyMs
    utilPercent := r.utilPercent }

/-- The previous sample and its time are overwritten in every call. -/
def store (now : ℤ) (curr : DiskInfo) (state : State) : State :=
  { previousDiskStats := state.previousDiskStats.insert curr.name curr
    lastTime := state.lastTime.insert curr.name now }

/-- The loop of `updateOnce` over the lines of the file. -/
def updateLines (now : ℤ) : List Text → State → List (Proto.DiskInfo ℚ) × State
  | [], state => ([], state)
  | line :: others, state =>
      let curr := parseLine line
      if isVirtualDisk curr.name then updateLines now others state
      else
        let (messages, final) := updateLines now others (store now curr state)
        (message curr (rates now state curr) :: messages, final)

/-- `DiskMonitor::UpdateOnce`: `now` is the second that `::time` returns and
`diskstats` the content of `/proc/diskstats`. -/
def updateOnce (now : ℤ) (diskstats : Text) (state : State) : List (Proto.DiskInfo ℚ) × State :=
  updateLines now (lines diskstats) state

/-! ## The kernel's layout -/

/-- One line of `/proc/diskstats`: the numbers of the device, its name, the eleven
documented counters and the further numeric fields of newer kernels. -/
structure DiskstatsLine where
  major : Fin (2 ^ 31)
  minor : Fin (2 ^ 31)
  name : Text
  readsCompleted : UInt64
  readsMerged : UInt64
  sectorsRead : UInt64
  msReading : UInt64
  writesCompleted : UInt64
  writesMerged : UInt64
  sectorsWritten : UInt64
  msWriting : UInt64
  iosInProgress : UInt64
  msDoingIo : UInt64
  weightedMs : UInt64
  further : List ℕ
  name_nonempty : name ≠ []
  name_visible : ∀ c ∈ name, isSpace c = false

namespace DiskstatsLine

/-- The eleven counters in the order of the line. -/
def counters (l : DiskstatsLine) : List ℕ :=
  [l.readsCompleted.toNat, l.readsMerged.toNat, l.sectorsRead.toNat, l.msReading.toNat,
    l.writesCompleted.toNat, l.writesMerged.toNat, l.sectorsWritten.toNat, l.msWriting.toNat,
    l.iosInProgress.toNat, l.msDoingIo.toNat, l.weightedMs.toNat]

/-- The printed line, `%4d %7d %s` and the numeric fields. -/
def render (l : DiskstatsLine) : Text :=
  padLeft 4 (decimal l.major) ++ ' ' :: (padLeft 7 (decimal l.minor) ++
    ' ' :: (l.name ++ columns (l.counters ++ l.further)))

/-- The counters of the line under the names `struct DiskInfo` gives their
meanings. -/
def meaning (l : DiskstatsLine) : DiskInfo :=
  { name := l.name
    reads := l.readsCompleted
    writes := l.writesCompleted
    sectorsRead := l.sectorsRead
    sectorsWritten := l.sectorsWritten
    readTimeMs := l.msReading
    writeTimeMs := l.msWriting
    ioInProgress := l.iosInProgress
    ioTimeMs := l.msDoingIo
    weightedIoTimeMs := l.weightedMs }

/-- The first nine columns under the names by which the code extracts them. -/
def firstNine (l : DiskstatsLine) : DiskInfo :=
  { name := l.name
    reads := l.readsCompleted
    writes := l.readsMerged
    sectorsRead := l.sectorsRead
    sectorsWritten := l.msReading
    readTimeMs := l.writesCompleted
    writeTimeMs := l.writesMerged
    ioInProgress := l.sectorsWritten
    ioTimeMs := l.msWriting
    weightedIoTimeMs := l.iosInProgress }

/-- The columns that stand where another counter is expected hold its value. -/
def ColumnsAgree (l : DiskstatsLine) : Prop :=
  l.readsMerged = l.writesCompleted ∧ l.msReading = l.sectorsWritten ∧
    l.writesCompleted = l.msReading ∧ l.writesMerged = l.msWriting ∧
    l.sectorsWritten = l.iosInProgress ∧ l.msWriting = l.msDoingIo ∧
    l.iosInProgress = l.weightedMs

end DiskstatsLine

/-- The content of `/proc/diskstats`. -/
def procDiskstats (table : List DiskstatsLine) : Text :=
  table.flatMap fun l => l.render ++ ['\n']

/-- The lines whose device is not virtual. -/
def visible (table : List DiskstatsLine) : List DiskstatsLine :=
  table.filter fun l => !isVirtualDisk l.name

/-- The counters a message carries. -/
def counters (m : Proto.DiskInfo ℚ) : DiskInfo :=
  { name := m.name
    reads := m.reads
    writes := m.writes
    sectorsRead := m.sectorsRead
    sectorsWritten := m.sectorsWritten
    readTimeMs := m.readTimeMs
    writeTimeMs := m.writeTimeMs
    ioInProgress := m.ioInProgress
    ioTimeMs := m.ioTimeMs
    weightedIoTimeMs := m.weightedIoTimeMs }

@[simp] theorem counters_message (curr : DiskInfo) (r : Rates) :
    counters (message curr r) = curr := rfl

/-! ## Extraction of the columns -/

theorem extractUInt64_columns (value : UInt64) (n : ℕ) (ns : List ℕ) :
    (InputStream.ofText (columns (value.toNat :: n :: ns))).extractUInt64 =
      (some value, InputStream.ofText (columns (n :: ns))) :=
  InputStream.extractUInt64_blank_decimal 1 value (decimal n ++ columns ns)

theorem extractWord_columns {name : Text} (nonempty : name ≠ [])
    (visible : ∀ c ∈ name, isSpace c = false) (n : ℕ) (ns : List ℕ) :
    (InputStream.ofText (' ' :: (name ++ columns (n :: ns)))).extractWord =
      (some name, InputStream.ofText (columns (n :: ns))) :=
  InputStream.extractWord_blank_word 1 nonempty visible

theorem extractInt32_major (n : Fin (2 ^ 31)) (width : ℕ) (tail : Text) :
    (InputStream.ofText (padLeft width (decimal n) ++ ' ' :: tail)).extractInt32 =
      (some (n : ℤ), InputStream.ofText (' ' :: tail)) := by
  rw [padLeft, List.append_assoc]
  exact InputStream.extractInt32_blank_decimal _ tail n.isLt

theorem extractInt32_minor (n : Fin (2 ^ 31)) (width : ℕ) (tail : Text) :
    (InputStream.ofText (' ' :: (padLeft width (decimal n) ++ ' ' :: tail))).extractInt32 =
      (some (n : ℤ), InputStream.ofText (' ' :: tail)) := by
  rw [padLeft, List.append_assoc, ← List.cons_append, ← List.replicate_succ]
  exact InputStream.extractInt32_blank_decimal _ tail n.isLt

/-- **The code reads the first nine columns behind the name.** -/
theorem parseLine_render (l : DiskstatsLine) : parseLine l.render = l.firstNine := by
  have major := extractInt32_major l.major 4 (padLeft 7 (decimal l.minor) ++
    ' ' :: (l.name ++ columns (l.counters ++ l.further)))
  have minor := extractInt32_minor l.minor 7 (l.name ++ columns (l.counters ++ l.further))
  simp only [DiskstatsLine.counters, List.cons_append, List.nil_append] at major minor
  simp only [parseLine, DiskstatsLine.render, DiskstatsLine.counters, List.cons_append,
    List.nil_append, major, minor, extractWord_columns l.name_nonempty l.name_visible,
    extractUInt64_columns, Option.getD_some, DiskstatsLine.firstNine]

theorem ne_newline_of_visible {c : Char} (visible : isSpace c = false) : c ≠ '\n' := by
  rintro rfl
  cases visible

theorem columns_ne_newline {ns : List ℕ} {c : Char} (member : c ∈ columns ns) : c ≠ '\n' := by
  obtain ⟨n, -, column⟩ := List.mem_flatMap.mp member
  rcases List.mem_cons.mp column with rfl | digit
  · decide
  · exact ne_newline_of_visible (decimal_plain digit)

theorem padLeft_ne_newline {width n : ℕ} {c : Char} (member : c ∈ padLeft width (decimal n)) :
    c ≠ '\n' := by
  rcases List.mem_append.mp member with blank | digit
  · rw [List.eq_of_mem_replicate blank]
    decide
  · exact ne_newline_of_visible (decimal_plain digit)

theorem render_ne_newline (l : DiskstatsLine) : ∀ c ∈ l.render, c ≠ '\n' := by
  intro c member
  simp only [DiskstatsLine.render, List.mem_append, List.mem_cons] at member
  rcases member with major | rfl | minor | rfl | name | column
  · exact padLeft_ne_newline major
  · decide
  · exact padLeft_ne_newline minor
  · decide
  · exact ne_newline_of_visible (l.name_visible c name)
  · exact columns_ne_newline column

theorem lines_procDiskstats (table : List DiskstatsLine) :
    lines (procDiskstats table) = table.map DiskstatsLine.render :=
  lines_flatMap_newline DiskstatsLine.render table fun l _ => render_ne_newline l

/-! ## What is reported -/

/-- One message for each line whose device is not virtual, with the counters as
extracted. -/
theorem updateLines_counters (now : ℤ) (table : List Text) (state : State) :
    (updateLines now table state).1.map counters =
      (table.map parseLine).filter fun curr => !isVirtualDisk curr.name := by
  induction table generalizing state with
  | nil => rfl
  | cons line others ih =>
      rw [updateLines]
      by_cases hidden : isVirtualDisk (parseLine line).name = true
      · simp [hidden, ih]
      · simp [hidden, ih]

/-- The reported counters are the first nine columns of the visible lines. -/
theorem updateOnce_counters (now : ℤ) (table : List DiskstatsLine) (state : State) :
    (updateOnce now (procDiskstats table) state).1.map counters =
      (visible table).map DiskstatsLine.firstNine := by
  rw [updateOnce, updateLines_counters, lines_procDiskstats, List.map_map]
  have parsed : parseLine ∘ DiskstatsLine.render = DiskstatsLine.firstNine :=
    funext parseLine_render
  rw [parsed, List.filter_map]
  rfl

theorem firstNine_eq_meaning_iff (l : DiskstatsLine) :
    l.firstNine = l.meaning ↔ l.ColumnsAgree := by
  simp only [DiskstatsLine.firstNine, DiskstatsLine.meaning, DiskInfo.mk.injEq, true_and,
    DiskstatsLine.ColumnsAgree]

/-- **Decoding undoes the kernel's encoding exactly on the lines whose shifted
columns agree.** -/
theorem updateOnce_decodes_iff (now : ℤ) (table : List DiskstatsLine) (state : State) :
    (updateOnce now (procDiskstats table) state).1.map counters =
        (visible table).map DiskstatsLine.meaning ↔
      ∀ l ∈ visible table, l.ColumnsAgree := by
  rw [updateOnce_counters, List.map_inj_left]
  constructor
  · intro same l member
    exact (firstNine_eq_meaning_iff l).mp (same l member)
  · intro agree l member
    exact (firstNine_eq_meaning_iff l).mpr (agree l member)

/-- A disk with ten reads, one of them merged, and twenty writes. -/
def sampleLine : DiskstatsLine where
  major := 8
  minor := 0
  name := "sda".toList
  readsCompleted := 10
  readsMerged := 1
  sectorsRead := 80
  msReading := 5
  writesCompleted := 20
  writesMerged := 2
  sectorsWritten := 160
  msWriting := 9
  iosInProgress := 0
  msDoingIo := 12
  weightedMs := 14
  further := []
  name_nonempty := by decide
  name_visible := visible_of_all (by decide)

/-- The sample disk is reported with one write instead of twenty, and with five
sectors written instead of 160. -/
theorem updateOnce_sampleLine_shifted :
    ¬ (updateOnce 0 (procDiskstats [sampleLine]) .initial).1.map counters =
      (visible [sampleLine]).map DiskstatsLine.meaning := by
  rw [updateOnce_counters]
  decide

end LinuxMonitor.Monitor.DiskMonitor
