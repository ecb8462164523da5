import Mathlib.Data.List.AList
import LinuxMonitor.Bpf.NetMonitor
import LinuxMonitor.Library.CString

/-!
# The two sources of interface counters

`NetMonitor` takes bytes and packets from the eBPF map, which is keyed by interface
index and holds a slot for each CPU, and errors and drops from `/proc/net/dev`, which
is keyed by interface name.  `ebpfGetNetStats` walks the map with
`bpf_map_get_next_key`, adds up the slots and resolves the indices to names;
`procGetNetErrDropStats` scans the lines.  Both leave out the virtual interfaces.

* `statesMap_total`: what is returned does not depend on the printed totals.
* `visible_of_mem_statesMap`: **every interface of the eBPF statistics has a name, and
  the name of no virtual interface.**
-/

set_option autoImplicit false

namespace LinuxMonitor.Monitor.NetMonitor

open Library Bpf

/-- `is_virtual_interface(ifname)` -/
def isVirtualInterface (ifname : Text) : Bool :=
  ifname = "lo".toList || "veth".toList.isPrefixOf ifname || "docker".toList.isPrefixOf ifname ||
    "br".toList.isPrefixOf ifname || "virbr".toList.isPrefixOf ifname ||
    "tun".toList.isPrefixOf ifname || "tap".toList.isPrefixOf ifname

/-! ## The eBPF map -/

/-- What the system calls of one walk over the map answer.  The keys stand in the order
of traversal; a lookup may fail; an index that resolves to no name gives the empty
name. -/
structure MapView where
  keys : List Int32
  lookupElem : Int32 → Option (List IfCounters)
  indexToName : Int32 → Text

/-- `bpf_map_get_next_key`: the successor of a key of the map, and the first key for any
other key. -/
def MapView.getNextKey (view : MapView) (key : Int32) : Option Int32 :=
  match view.keys.dropWhile fun k => k ≠ key with
  | [] => view.keys.head?
  | _ :: later => later.head?

/-- The member `total` and the result under construction. -/
structure EbpfStats where
  statesMap : AList (fun _ : Text => IfCounters)
  total : IfCounters

/-- `a.rcv_bytes += b.rcv_bytes; …` -/
def addEach (a b : IfCounters) : IfCounters :=
  ⟨a.rcvBytes + b.rcvBytes, a.rcvPackets + b.rcvPackets, a.sndBytes + b.sndBytes,
    a.sndPackets + b.sndPackets⟩

/-- `struct if_counters sum = {0}` and the loop over the CPUs. -/
def sumCpus (values : List IfCounters) : IfCounters := values.foldl addEach .zero

/-- The body of the walk for one key. -/
def visitKey (view : MapView) (key : Int32) (stats : EbpfStats) : EbpfStats :=
  match view.lookupElem key with
  | none => stats
  | some values =>
      let sum := sumCpus values
      let ifname := view.indexToName key
      if ifname = [] then stats
      else if isVirtualInterface ifname then stats
      else
        { statesMap := stats.statesMap.insert ifname sum
          total :=
            if sum.rcvBytes > 0 ∨ sum.rcvPackets > 0 ∨ sum.sndBytes > 0 ∨ sum.sndPackets > 0 then
              addEach stats.total sum
            else stats.total }

/-- `while (bpf_map_get_next_key(map_fd, &key, &next_key) == 0)`.  The walk takes one
step for each key of the map. -/
def walk (view : MapView) : ℕ → Int32 → EbpfStats → EbpfStats
  | 0, _, stats => stats
  | steps + 1, key, stats =>
      match view.getNextKey key with
      | none => stats
      | some nextKey => walk view steps nextKey (visitKey view nextKey stats)

/-- `NetMonitor::ebpf_get_net_stats`.  There is no view when the program is not loaded or
the buffer cannot be allocated. -/
def ebpfGetNetStats (view : Option MapView) (total : IfCounters) : EbpfStats :=
  match view with
  | none => ⟨∅, total⟩
  | some view => walk view view.keys.length 0 ⟨∅, total⟩

theorem visitKey_total (view : MapView) (key : Int32) {stats stats' : EbpfStats}
    (same : stats.statesMap = stats'.statesMap) :
    (visitKey view key stats).statesMap = (visitKey view key stats').statesMap := by
  unfold visitKey
  cases view.lookupElem key with
  | none => exact same
  | some values =>
      dsimp only
      split
      · exact same
      · split
        · exact same
        · exact congrArg (AList.insert _ _) same

theorem walk_total (view : MapView) (steps : ℕ) (key : Int32) {stats stats' : EbpfStats}
    (same : stats.statesMap = stats'.statesMap) :
    (walk view steps key stats).statesMap = (walk view steps key stats').statesMap := by
  induction steps generalizing key stats stats' with
  | zero => exact same
  | succ steps ih =>
      unfold walk
      cases view.getNextKey key with
      | none => exact same
      | some nextKey => exact ih nextKey (visitKey_total view nextKey same)

/-- The statistics do not depend on the totals. -/
theorem statesMap_total (view : Option MapView) (total total' : IfCounters) :
    (ebpfGetNetStats view total).statesMap = (ebpfGetNetStats view total').statesMap := by
  cases view with
  | none => rfl
  | some view => exact walk_total view _ 0 rfl

/-- The names that are kept. -/
def Visible (ifname : Text) : Prop := ifname ≠ [] ∧ isVirtualInterface ifname = false

theorem visible_visitKey {view : MapView} {key : Int32} {stats : EbpfStats}
    (visible : ∀ ifname ∈ stats.statesMap, Visible ifname) :
    ∀ ifname ∈ (visitKey view key stats).statesMap, Visible ifname := by
  unfold visitKey
  cases view.lookupElem key with
  | none => exact visible
  | some values =>
      dsimp only
      split
      · exact visible
      · next named =>
          split
          · exact visible
          · next physical =>
              intro ifname member
              rcases (AList.mem_insert _).mp member with rfl | old
              · exact ⟨named, by simpa using physical⟩
              · exact visible ifname old

theorem visible_walk {view : MapView} (steps : ℕ) (key : Int32) {stats : EbpfStats}
    (visible : ∀ ifname ∈ stats.statesMap, Visible ifname) :
    ∀ ifname ∈ (walk view steps key stats).statesMap, Visible ifname := by
  induction steps generalizing key stats with
  | zero => exact visible
  | succ steps ih =>
      unfold walk
      cases view.getNextKey key with
      | none => exact visible
      | some nextKey => exact ih nextKey (visible_visitKey visible)

/-- **The statistics hold named interfaces that are not virtual.** -/
theorem visible_of_mem_statesMap (view : Option MapView) (total : IfCounters) :
    ∀ ifname ∈ (ebpfGetNetStats view total).statesMap, Visible ifname := by
  have nothing : ∀ ifname ∈ (∅ : AList fun _ : Text => IfCounters), Visible ifname :=
    fun ifname member => absurd member (AList.notMem_empty ifname)
  cases view with
  | none => exact nothing
  | some view => exact visible_walk _ _ nothing

/-! ## `/proc/net/dev` -/

/-- `struct NetStat` -/
structure NetStat where
  name : Text
  rcvBytes : UInt64
  rcvPackets : UInt64
  sndBytes : UInt64
  sndPackets : UInt64
  errIn : UInt64
  errOut : UInt64
  dropIn : UInt64
  dropOut : UInt64
deriving DecidableEq, Repr

/-- `NetStat s = {}` with its name set. -/
def NetStat.named (name : Text) : NetStat := ⟨name, 0, 0, 0, 0, 0, 0, 0, 0⟩

/-- The name without the colon at its end. -/
def popColon (ifname : Text) : Text :=
  if ifname.getLast? = some ':' then ifname.dropLast else ifname

/-- The entry of one line, if all 17 fields are found and the interface is not
virtual. -/
def parseDevLine (line : Text) : Option NetStat := do
  let (ifname, fields) ← scanWord (cString line)
  let columns ← scanUlongs 16 fields
  let name := popColon ifname
  if isVirtualInterface name then none
  else
    some { NetStat.named name with
      errIn := columns.getD 2 0
      dropIn := columns.getD 3 0
      errOut := columns.getD 10 0
      dropOut := columns.getD 11 0 }

/-- `proc_get_net_err_drop_stats()`, nothing for a file that does not open. -/
def procGetNetErrDropStats (file : Option Text) : AList (fun _ : Text => NetStat) :=
  match file with
  | none => ∅
  | some text =>
      (((lines text).drop 2).filterMap parseDevLine).foldl (fun stats s => stats.insert s.name s) ∅

end LinuxMonitor.Monitor.NetMonitor
