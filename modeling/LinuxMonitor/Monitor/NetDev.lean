import LinuxMonitor.Library.KeyedStore
import LinuxMonitor.Monitor.NetBaseline

/-!
# `/proc/net/dev` is read back as it was printed

The kernel prints two header lines and then a line for each interface: its name, padded
to six characters, a colon, and the sixteen counters in columns.  The colon stands right
behind the name, so `%s` takes both together.

* `scanWord_line`: the name and its colon fit into the buffer of 17 characters.
* `parseDevLine_line`: a line gives the entry of its interface, unless that is virtual.
* `procGetNetErrDropStats_print`: **the file gives one entry for each interface that is not
  virtual, under its name, and no others.**
-/

set_option autoImplicit false

namespace LinuxMonitor.Monitor.NetMonitor

open Library

/-- An interface with a name that the kernel accepts. -/
structure NetDevice where
  name : Text
  counters : DevCounters
  nonempty : name ≠ []
  short : name.length ≤ 15
  plain : ∀ c ∈ name, isSpace c = false ∧ c ≠ ':' ∧ c ≠ '/' ∧ c ≠ '\x00'

/-- The file: two header lines, the interfaces, and the least widths of the columns. -/
structure NetDevFile where
  header : Text × Text
  devices : List NetDevice
  width : ℕ → ℕ
  headed : ∀ line ∈ [header.1, header.2], ∀ c ∈ line, c ≠ '\n'
  distinct : (devices.map NetDevice.name).Nodup

namespace NetDevice

/-- `%6s:` and the sixteen columns. -/
def line (width : ℕ → ℕ) (device : NetDevice) : Text :=
  padLeft 6 device.name ++ ':' :: paddedColumns width device.counters.columns

/-- The entry that is meant for the interface. -/
def stat (device : NetDevice) : NetStat :=
  { NetStat.named device.name with
    errIn := device.counters.rcvErrs
    dropIn := device.counters.rcvDrop
    errOut := device.counters.sndErrs
    dropOut := device.counters.sndDrop }

variable (width : ℕ → ℕ) (device : NetDevice)

/-- The word in front of the columns. -/
def tag : Text := device.name ++ [':']

theorem scanWord_line :
    scanWord (device.line width) =
        some (device.tag, paddedColumns width device.counters.columns) ∧
      device.tag.length < 17 := by
  have padding : ∀ c ∈ List.replicate (6 - device.name.length) ' ', isSpace c = true := by
    intro c member
    rw [List.eq_of_mem_replicate member]
    rfl
  have visible : ∀ c ∈ device.tag, isSpace c = false := by
    intro c member
    rcases List.mem_append.mp member with name | colon
    · exact (device.plain c name).1
    · rw [List.mem_singleton.mp colon]
      rfl
  have stop : ∀ c ∈ (paddedColumns width device.counters.columns).head?, isSpace c = true := by
    intro c head
    cases head
    rfl
  constructor
  · have scanned := scanWord_word padding (by simp [tag]) visible stop
    rw [tag, List.append_assoc, List.singleton_append, ← List.append_assoc] at scanned
    exact scanned
  · have short := device.short
    rw [tag, List.length_append, List.length_singleton]
    omega

/-- A line holds no newline and no NUL. -/
theorem line_plain : ∀ c ∈ device.line width, c ≠ '\n' ∧ c ≠ '\x00' := by
  intro c member
  rcases List.mem_append.mp member with padded | rest
  · rcases List.mem_append.mp padded with padding | name
    · rw [List.eq_of_mem_replicate padding]
      decide
    · obtain ⟨visible, -, -, nul⟩ := device.plain c name
      refine ⟨?_, nul⟩
      rintro rfl
      cases visible
  · rcases List.mem_cons.mp rest with rfl | columns
    · decide
    · rcases mem_paddedColumns columns with rfl | digit
      · decide
      · exact ⟨ne_of_isDigit digit rfl, ne_of_isDigit digit rfl⟩

theorem popColon_tag : popColon device.tag = device.name := by
  rw [popColon, tag, List.getLast?_concat, if_pos rfl, List.dropLast_concat]

/-- **A line gives the entry of its interface, unless that is virtual.** -/
theorem parseDevLine_line :
    parseDevLine (device.line width) =
      if isVirtualInterface device.name then none else some device.stat := by
  have whole : cString (device.line width) = device.line width :=
    cString_of_no_nul fun c member => (device.line_plain width c member).2
  have columns : scanUlongs 16 (paddedColumns width device.counters.columns) =
      some device.counters.columns := scanUlongs_paddedColumns width device.counters.columns
  rw [parseDevLine, whole, (device.scanWord_line width).1, Option.bind_eq_bind, Option.bind_some]
  dsimp only
  rw [columns, Option.bind_eq_bind, Option.bind_some, popColon_tag]
  rfl

/-- The columns as the kernel prints them. -/
example : line (fun column => [7, 7, 4, 4, 4, 5, 10, 9, 8, 7, 4, 4, 4, 5, 7, 10].getD column 0)
    ⟨['e', 't', 'h', '0'], ⟨1016800, 4821, 0, 12, 0, 0, 0, 0, 98765432100, 88, 3, 0, 0, 0, 0, 0⟩,
      by decide, by decide, by simp [isSpace]⟩ =
    ("  eth0: 1016800    4821    0   12    0     0          0         0 98765432100      88    3" ++
      "    0    0     0       0          0").toList := by
  decide +kernel

end NetDevice

namespace NetDevFile

/-- The text of the file. -/
def print (file : NetDevFile) : Text :=
  file.header.1 ++ '\n' :: (file.header.2 ++ '\n' ::
    file.devices.flatMap fun device => device.line file.width ++ ['\n'])

variable (file : NetDevFile)

/-- The lines behind the header are those of the interfaces. -/
theorem lines_print : (lines file.print).drop 2 = file.devices.map (NetDevice.line file.width) := by
  have first := lines_append_newline (file.headed file.header.1 (by simp))
  have second := lines_append_newline (file.headed file.header.2 (by simp))
  have rest := lines_flatMap_newline (NetDevice.line file.width) file.devices
    fun device _ c member => (device.line_plain file.width c member).1
  rw [print, first, second, rest]
  rfl

/-- The interfaces that are not virtual. -/
def physical : List NetDevice :=
  file.devices.filter fun device => !isVirtualInterface device.name

theorem filterMap_parseDevLine :
    (file.devices.map (NetDevice.line file.width)).filterMap parseDevLine =
      file.physical.map NetDevice.stat := by
  have entry : parseDevLine ∘ NetDevice.line file.width = fun device =>
      (Option.guard (fun device => !isVirtualInterface device.name) device).map
        NetDevice.stat := by
    funext device
    rw [Function.comp_apply, NetDevice.parseDevLine_line, Option.guard]
    cases isVirtualInterface device.name <;> rfl
  rw [List.filterMap_map, entry, ← List.map_filterMap, List.filterMap_eq_filter, physical]

end NetDevFile

/-- **`proc_get_net_err_drop_stats` gives one entry for each interface that is not virtual,
under its name, with the errors and drops of that interface and zeros, and no others.** -/
theorem procGetNetErrDropStats_print (file : NetDevFile) :
    (procGetNetErrDropStats (some file.print)).entries.Perm
      (file.physical.map fun device => ⟨device.name, device.stat⟩) := by
  have stored : procGetNetErrDropStats (some file.print) =
      storeAll NetStat.name id (file.physical.map NetDevice.stat) ∅ := by
    rw [procGetNetErrDropStats, file.lines_print, file.filterMap_parseDevLine]
    rfl
  have distinct : ((file.physical.map NetDevice.stat).map NetStat.name).Nodup := by
    rw [List.map_map]
    exact file.distinct.sublist (List.filter_sublist.map NetDevice.name)
  have entries := entries_storeAll_of_nodup id distinct
  rw [List.map_map] at entries
  rw [stored]
  exact entries

end LinuxMonitor.Monitor.NetMonitor
