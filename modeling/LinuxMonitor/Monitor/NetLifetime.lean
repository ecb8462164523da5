import Mathlib.Data.List.AList
import Mathlib.Data.List.Range
import LinuxMonitor.Bpf.NetMonitor
import LinuxMonitor.Library.Resource
import LinuxMonitor.Library.Text

/-!
# The life of a `NetMonitor`

The constructor finds the interfaces, loads the BPF skeleton, allocates six arrays, sets the
interfaces up, attaches the skeleton and asks for information on the map.  Each of these
steps may fail; some failures make the constructor return early, some make it throw.  A
monitor whose constructor did not throw is updated any number of times and destroyed.

The trace lists the calls of the library and the accesses to the skeleton and the arrays.
What they mean for the skeleton and the arrays is `Event.ops`.

* `mem_destruct`: what the destructor does.
* `destruct_uses_missing`: the destructor indexes an array that is missing.
* `construct_of_none`, …, `construct_complete`: how a constructor ends.
* `track_lifetime`, `track_no_info`: what is held in the end.
* `lifetime_safe_iff`: **the skeleton and the arrays are used only while they are there, and a
  loaded skeleton is destroyed once, exactly when interfaces are found, the skeleton loads,
  all allocations succeed and the skeleton can be attached.**
-/

set_option autoImplicit false

namespace LinuxMonitor.Monitor.NetMonitor

open Library Bpf

/-! ## The trace -/

/-- `tc_hooks_…`, `tc_opts_…` and `hooks_created_…`; each array is there for both directions. -/
inductive ArrayKind where
  | tcHooks
  | tcOpts
  | hooksCreated
deriving DecidableEq, Repr

/-- The result of `bpf_tc_hook_create`: 0, `-EEXIST`, or another error. -/
inductive CreateResult where
  | ok
  | exist
  | error
deriving DecidableEq, Repr

/-- What is done for one interface. -/
inductive HookCall where
  /-- `tc_hooks_…[i] = …` -/
  | initHook (d : Direction)
  /-- `tc_opts_…[i] = …`, with a program of the skeleton -/
  | initOpts (d : Direction)
  /-- `bpf_tc_hook_destroy`, before anything was created -/
  | cleanUp (d : Direction)
  /-- `bpf_tc_hook_create` -/
  | create (d : Direction) (result : CreateResult)
  /-- `hooks_created_…[i] = true` -/
  | setCreated (d : Direction)
  /-- `if (hooks_created_…[i])` -/
  | readCreated (d : Direction)
  /-- `bpf_tc_attach` -/
  | attach (d : Direction) (ok : Bool)
  /-- `bpf_tc_detach` -/
  | detach (d : Direction)
  /-- `bpf_tc_hook_destroy`, for a hook that was created -/
  | destroy (d : Direction)
deriving DecidableEq, Repr

/-- The member `skel`.  It has no initialiser. -/
inductive Skel where
  | uninitialised
  | null
  | object
deriving DecidableEq, Repr

inductive Event where
  /-- `net_monitor_bpf__open_and_load` -/
  | openAndLoad (ok : Bool)
  | calloc (kind : ArrayKind) (d : Direction) (ok : Bool)
  /-- A call for the `i`-th interface -/
  | interface (i : ℕ) (call : HookCall)
  /-- `net_monitor_bpf__attach` -/
  | attachSkeleton (ok : Bool)
  /-- `bpf_obj_get_info_by_fd` -/
  | mapInfo (ok : Bool)
  /-- `!skel` -/
  | testSkel (skel : Skel)
  /-- `skel->maps.if_stats` -/
  | readMap
  /-- `free`, which does nothing with a null pointer -/
  | free (kind : ArrayKind) (d : Direction) (allocated : Bool)
  /-- `net_monitor_bpf__destroy`, which does nothing with a null pointer -/
  | destroySkel (skel : Skel)
deriving DecidableEq, Repr

/-! ## The constructor -/

/-- The outcomes of the calls for one interface. -/
structure HookOutcomes where
  createIngress : CreateResult
  createEgress : CreateResult
  attachIngress : Bool
  attachEgress : Bool
deriving DecidableEq, Repr

/-- What a constructor meets: the interfaces found, and the outcomes of the fallible calls. -/
structure Outcomes where
  ifindexMap : AList (fun _ : Int32 => Text)
  openAndLoad : Bool
  calloc : ArrayKind → Direction → Bool
  hooks : ℕ → HookOutcomes
  attachSkeleton : Bool
  mapInfo : Bool

/-- The members that the destructor and `UpdateOnce` look at. -/
structure Members where
  interfaceCount : ℕ
  skel : Skel
  bpfLoaded : Bool
  allocated : ArrayKind → Direction → Bool
  hooksCreated : Direction → ℕ → Bool

/-- The members before the constructor's body runs. -/
def Members.initial : Members := ⟨0, .uninitialised, false, fun _ _ => false, fun _ _ => false⟩

/-- Create a hook, and remember when it worked. -/
def createHook (d : Direction) (result : CreateResult) : List HookCall :=
  .create d result :: if result = .ok then [.setCreated d] else []

/-- `if (hooks_created_…[i]) bpf_tc_hook_destroy(&tc_hooks_…[i]);` -/
def destroyIfCreated (d : Direction) (created : Bool) : List HookCall :=
  .readCreated d :: if created then [.destroy d] else []

/-- The body of the loop that sets the interfaces up: what is done, and which hooks are
remembered as created. -/
def setUpInterface (o : HookOutcomes) : List HookCall × (Direction → Bool) :=
  let start := [.cleanUp .ingress, .cleanUp .egress] ++ createHook .ingress o.createIngress
  if o.createIngress = .error then (start, fun _ => false)
  else
    let second := start ++ createHook .egress o.createEgress
    let createdIngress : Bool := o.createIngress = .ok
    let createdEgress : Bool := o.createEgress = .ok
    let created : Direction → Bool := fun d =>
      match d with
      | .ingress => createdIngress
      | .egress => createdEgress
    if o.createEgress = .error then (second ++ destroyIfCreated .ingress createdIngress, created)
    else
      let third := second ++ [.attach .ingress o.attachIngress]
      let destroys := destroyIfCreated .ingress createdIngress ++
        destroyIfCreated .egress createdEgress
      if !o.attachIngress then (third ++ destroys, created)
      else
        let fourth := third ++ [.attach .egress o.attachEgress]
        if !o.attachEgress then (fourth ++ (.detach .ingress :: destroys), created)
        else (fourth, created)

/-- The first loop over an interface. -/
def initInterface : List HookCall :=
  [.initHook .ingress, .initHook .egress, .initOpts .ingress, .initOpts .egress]

/-- A loop over the first `count` interfaces. -/
def forInterfaces (count : ℕ) (body : ℕ → List HookCall) : List Event :=
  (List.range count).flatMap fun i => (body i).map (.interface i)

/-- The six arrays, in the order of their allocation. -/
def arrays : List (ArrayKind × Direction) :=
  [(.tcHooks, .ingress), (.tcHooks, .egress), (.tcOpts, .ingress), (.tcOpts, .egress),
    (.hooksCreated, .ingress), (.hooksCreated, .egress)]

/-- What the constructor did, the members it leaves, and whether it threw. -/
structure Constructed where
  events : List Event
  members : Members
  threw : Bool

/-- The members once the skeleton is loaded and the arrays are allocated, or not. -/
def Members.loaded (o : Outcomes) : Members where
  interfaceCount := o.ifindexMap.entries.length
  skel := .object
  bpfLoaded := true
  allocated := o.calloc
  hooksCreated := fun _ _ => false

/-- The members after the interfaces are set up. -/
def Members.setUp (o : Outcomes) : Members :=
  { Members.loaded o with hooksCreated := fun d i => (setUpInterface (o.hooks i)).2 d }

/-- Loading the skeleton and allocating the arrays. -/
def allocations (o : Outcomes) : List Event :=
  .openAndLoad true :: arrays.map fun a => .calloc a.1 a.2 (o.calloc a.1 a.2)

/-- The two loops over the interfaces. -/
def setUpInterfaces (o : Outcomes) : List Event :=
  forInterfaces o.ifindexMap.entries.length (fun _ => initInterface) ++
    forInterfaces o.ifindexMap.entries.length fun i => (setUpInterface (o.hooks i)).1

/-- `NetMonitor::NetMonitor` -/
def construct (o : Outcomes) : Constructed :=
  if o.ifindexMap.entries = [] then ⟨[], .initial, false⟩
  else if !o.openAndLoad then
    ⟨[.openAndLoad false],
      { Members.initial with interfaceCount := o.ifindexMap.entries.length, skel := .null }, false⟩
  else if !arrays.all (fun a => o.calloc a.1 a.2) then
    -- the skeleton is destroyed, and `skel` and `bpf_loaded` stay as they are
    ⟨allocations o ++ [.destroySkel .object], .loaded o, false⟩
  else
    let start := allocations o ++ setUpInterfaces o
    if !o.attachSkeleton then ⟨start ++ [.attachSkeleton false], .setUp o, true⟩
    else if !o.mapInfo then
      ⟨start ++ [.attachSkeleton true, .mapInfo false, .destroySkel .object], .setUp o, true⟩
    else ⟨start ++ [.attachSkeleton true, .mapInfo true], .setUp o, false⟩

/-! ## Updates and the destructor -/

/-- The accesses to the skeleton in `ebpf_get_net_stats`. -/
def update (m : Members) : List Event :=
  .testSkel m.skel :: if m.skel ≠ .null ∧ m.bpfLoaded then [.readMap] else []

/-- The body of the destructor's loop, and whether it gets to its end: a flag that is read
through a null pointer ends the program. -/
def destroyInterface (m : Members) (i : ℕ) : List HookCall × Bool :=
  let start := [.detach .ingress, .detach .egress]
  if !m.allocated .hooksCreated .ingress then (start ++ [.readCreated .ingress], false)
  else
    let second := start ++ destroyIfCreated .ingress (m.hooksCreated .ingress i)
    if !m.allocated .hooksCreated .egress then (second ++ [.readCreated .egress], false)
    else (second ++ destroyIfCreated .egress (m.hooksCreated .egress i), true)

/-- The destructor's loop over the interfaces. -/
def destroyInterfaces (m : Members) : List ℕ → List Event × Bool
  | [] => ([], true)
  | i :: others =>
      let (calls, ended) := destroyInterface m i
      if ended then
        let (later, ended) := destroyInterfaces m others
        (calls.map (.interface i) ++ later, ended)
      else (calls.map (.interface i), false)

/-- `NetMonitor::~NetMonitor` -/
def destruct (m : Members) : List Event :=
  let (events, ended) := destroyInterfaces m (List.range m.interfaceCount)
  if ended then
    events ++ ((arrays.map fun a => .free a.1 a.2 (m.allocated a.1 a.2)) ++ [.destroySkel m.skel])
  else events

/-- The trace of a monitor that is updated some times.  If the constructor throws there is
nothing to update and to destroy. -/
def lifetime (o : Outcomes) (updates : ℕ) : List Event :=
  let constructed := construct o
  if constructed.threw then constructed.events
  else constructed.events ++
    ((List.replicate updates (update constructed.members)).flatten ++ destruct constructed.members)

/-! ## The skeleton and the arrays -/

/-- What a monitor owns: the skeleton, and the six arrays. -/
inductive Resource where
  | skel
  | array (kind : ArrayKind) (d : Direction)
deriving DecidableEq, Repr

/-- What a call for an interface uses.  A hook and its options are passed by their address in
the array. -/
def HookCall.ops : HookCall → List (Op Resource)
  | .initHook d => [.use (.array .tcHooks d)]
  | .initOpts d => [.use .skel, .use (.array .tcOpts d)]
  | .cleanUp d => [.use (.array .tcHooks d)]
  | .create d _ => [.use (.array .tcHooks d)]
  | .setCreated d => [.use (.array .hooksCreated d)]
  | .readCreated d => [.use (.array .hooksCreated d)]
  | .attach d _ => [.use (.array .tcHooks d), .use (.array .tcOpts d)]
  | .detach d => [.use (.array .tcHooks d), .use (.array .tcOpts d)]
  | .destroy d => [.use (.array .tcHooks d)]

/-- What an event does to the skeleton and the arrays.  Looking at an uninitialised pointer is a
use of it, and to destroy what it points to is a release. -/
def Event.ops : Event → List (Op Resource)
  | .openAndLoad ok => if ok then [.acquire .skel] else []
  | .calloc kind d ok => if ok then [.acquire (.array kind d)] else []
  | .interface _ call => call.ops
  | .attachSkeleton _ => [.use .skel]
  | .mapInfo _ => [.use .skel]
  | .testSkel skel => if skel = .uninitialised then [.use .skel] else []
  | .readMap => [.use .skel]
  | .free kind d allocated => if allocated then [.release (.array kind d)] else []
  | .destroySkel skel => if skel = .null then [] else [.release .skel]

/-- The skeleton and the arrays are used and given back only while they are there, and the
skeleton is destroyed as often as it was loaded. -/
structure SkelSafe (events : List Event) : Prop where
  skel : Disciplined .skel (events.flatMap Event.ops)
  once : releases .skel (events.flatMap Event.ops) = acquisitions .skel (events.flatMap Event.ops)
  array : ∀ kind d, Disciplined (.array kind d) (events.flatMap Event.ops)

/-! ## What the trace holds -/

theorem uses_of_call (call : HookCall) : ∀ op ∈ call.ops, ∃ r, op = .use r := by
  cases call <;> simp [HookCall.ops]

theorem acquire_skel_mem {events : List Event}
    (acquired : .acquire .skel ∈ events.flatMap Event.ops) : .openAndLoad true ∈ events := by
  obtain ⟨event, member, inside⟩ := List.mem_flatMap.mp acquired
  cases event with
  | openAndLoad ok =>
      cases ok with
      | true => exact member
      | false => cases inside
  | interface i call =>
      obtain ⟨r, used⟩ := uses_of_call call _ inside
      cases used
  | _ => simp [Event.ops] at inside

theorem acquire_array_mem {events : List Event} {kind : ArrayKind} {d : Direction}
    (acquired : .acquire (.array kind d) ∈ events.flatMap Event.ops) :
    .calloc kind d true ∈ events := by
  obtain ⟨event, member, inside⟩ := List.mem_flatMap.mp acquired
  cases event with
  | calloc kind' d' ok =>
      cases ok with
      | true =>
          cases List.mem_singleton.mp inside
          exact member
      | false => cases inside
  | interface i call =>
      obtain ⟨r, used⟩ := uses_of_call call _ inside
      cases used
  | _ => simp [Event.ops] at inside

/-- What the destructor's loop does is done for one of the interfaces. -/
theorem mem_destroyInterfaces {m : Members} {is : List ℕ} {event : Event}
    (member : event ∈ (destroyInterfaces m is).1) :
    ∃ i, ∃ call ∈ (destroyInterface m i).1, event = .interface i call := by
  induction is with
  | nil => cases member
  | cons i others ih =>
      have here : event ∈ (destroyInterface m i).1.map (Event.interface i) →
          ∃ i, ∃ call ∈ (destroyInterface m i).1, event = .interface i call := by
        intro inside
        obtain ⟨call, made, rfl⟩ := List.mem_map.mp inside
        exact ⟨i, call, made, rfl⟩
      simp only [destroyInterfaces] at member
      split at member
      · rcases List.mem_append.mp member with first | later
        · exact here first
        · exact ih later
      · exact here member

/-- What the destructor does is done for one of the interfaces, or gives something back. -/
theorem mem_destruct {m : Members} {event : Event} (member : event ∈ destruct m) :
    (∃ i, ∃ call ∈ (destroyInterface m i).1, event = .interface i call) ∨
      (∃ kind d, event = .free kind d (m.allocated kind d)) ∨ event = .destroySkel m.skel := by
  simp only [destruct] at member
  split at member
  · rcases List.mem_append.mp member with looped | final
    · exact Or.inl (mem_destroyInterfaces looped)
    · rcases List.mem_append.mp final with freed | destroyed
      · obtain ⟨a, _, rfl⟩ := List.mem_map.mp freed
        exact Or.inr (Or.inl ⟨a.1, a.2, rfl⟩)
      · exact Or.inr (Or.inr (List.mem_singleton.mp destroyed))
  · exact Or.inl (mem_destroyInterfaces member)

/-- An update tests the skeleton, and may read its map. -/
theorem mem_update {m : Members} {event : Event} (member : event ∈ update m) :
    event = .testSkel m.skel ∨ event = .readMap := by
  simp only [update] at member
  rcases List.mem_cons.mp member with tested | second
  · exact Or.inl tested
  · split at second
    · exact Or.inr (List.mem_singleton.mp second)
    · cases second

theorem mem_updates {m : Members} {updates : ℕ} {event : Event}
    (member : event ∈ (List.replicate updates (update m)).flatten) : event ∈ update m := by
  obtain ⟨events, repeated, inside⟩ := List.mem_flatten.mp member
  rwa [List.eq_of_mem_replicate repeated] at inside

/-- Loading and allocating are done by the constructor. -/
theorem mem_construct_of_mem_lifetime {o : Outcomes} {updates : ℕ} {event : Event}
    (member : event ∈ lifetime o updates)
    (acquires : (∃ ok, event = .openAndLoad ok) ∨ ∃ kind d ok, event = .calloc kind d ok) :
    event ∈ (construct o).events := by
  have notUpdate : ∀ m, event ∉ update m := by
    intro m inside
    rcases acquires with ⟨ok, rfl⟩ | ⟨kind, d, ok, rfl⟩ <;>
      rcases mem_update inside with same | same <;> cases same
  have notDestruct : ∀ m, event ∉ destruct m := by
    intro m inside
    rcases acquires with ⟨ok, rfl⟩ | ⟨kind, d, ok, rfl⟩ <;>
      rcases mem_destruct inside with ⟨i, call, _, same⟩ | ⟨kind, d, same⟩ | same <;> cases same
  simp only [lifetime] at member
  split at member
  · exact member
  · rcases List.mem_append.mp member with here | later
    · exact here
    · rcases List.mem_append.mp later with updated | destroyed
      · exact absurd (mem_updates updated) (notUpdate _)
      · exact absurd destroyed (notDestruct _)

/-! ## Missing arrays -/

theorem mem_arrays (kind : ArrayKind) (d : Direction) : (kind, d) ∈ arrays := by
  cases kind <;> cases d <;> decide

/-- What the destructor's loop starts with is done. -/
theorem mem_destruct_of_first {m : Members} (found : 0 < m.interfaceCount) {call : HookCall}
    (member : call ∈ (destroyInterface m 0).1) : .interface 0 call ∈ destruct m := by
  obtain ⟨count, counted⟩ := Nat.exists_eq_add_of_lt found
  have range : List.range m.interfaceCount = 0 :: (List.range count).map Nat.succ := by
    rw [counted, Nat.zero_add, List.range_succ_eq_map]
  have looped : .interface 0 call ∈ (destroyInterfaces m (List.range m.interfaceCount)).1 := by
    rw [range]
    simp only [destroyInterfaces]
    split
    · exact List.mem_append_left _ (List.mem_map_of_mem member)
    · exact List.mem_map_of_mem member
  simp only [destruct]
  split
  · exact List.mem_append_left _ looped
  · exact looped

/-- Every turn of the destructor's loop detaches. -/
theorem detach_mem_destroyInterface (m : Members) (i : ℕ) (d : Direction) :
    .detach d ∈ (destroyInterface m i).1 := by
  simp only [destroyInterface]
  split
  · cases d <;> simp
  · split <;> cases d <;> simp

/-- A turn reads the flags until one is missing. -/
theorem readCreated_mem_destroyInterface {m : Members} {d : Direction}
    (there : d = .egress → m.allocated .hooksCreated .ingress = true) (i : ℕ) :
    .readCreated d ∈ (destroyInterface m i).1 := by
  cases d with
  | ingress =>
      simp only [destroyInterface]
      split
      · simp
      · split <;> simp [destroyIfCreated]
  | egress =>
      simp only [destroyInterface, there rfl, Bool.not_true, Bool.false_eq_true, if_false]
      split <;> simp [destroyIfCreated]

/-- A monitor with interfaces and without one of the arrays indexes a missing array when it is
destroyed. -/
theorem destruct_uses_missing {m : Members} (found : 0 < m.interfaceCount) {kind : ArrayKind}
    {d : Direction} (missing : m.allocated kind d = false) :
    ∃ kind d, m.allocated kind d = false ∧
      .use (.array kind d) ∈ (destruct m).flatMap Event.ops := by
  have first : ∀ {call : HookCall} {op}, call ∈ (destroyInterface m 0).1 → op ∈ call.ops →
      op ∈ (destruct m).flatMap Event.ops := fun member inside =>
    List.mem_flatMap.mpr ⟨.interface 0 _, mem_destruct_of_first found member, inside⟩
  have detached := detach_mem_destroyInterface m 0 d
  cases kind with
  | tcHooks => exact ⟨.tcHooks, d, missing, first detached List.mem_cons_self⟩
  | tcOpts =>
      refine ⟨.tcOpts, d, missing, first detached ?_⟩
      exact List.mem_cons_of_mem _ List.mem_cons_self
  | hooksCreated =>
      -- the flags of the ingress hooks are read first
      by_cases ingress : d = .egress → m.allocated .hooksCreated .ingress = true
      · have read := readCreated_mem_destroyInterface ingress 0
        exact ⟨.hooksCreated, d, missing, first read List.mem_cons_self⟩
      · have read := readCreated_mem_destroyInterface (m := m) (d := .ingress) nofun 0
        rw [Classical.not_imp, Bool.not_eq_true] at ingress
        exact ⟨.hooksCreated, .ingress, ingress.2, first read List.mem_cons_self⟩

/-! ## How a constructor ends -/

theorem arrays_all_iff (o : Outcomes) :
    arrays.all (fun a => o.calloc a.1 a.2) = true ↔ ∀ kind d, o.calloc kind d = true := by
  rw [List.all_eq_true]
  exact ⟨fun all kind d => all (kind, d) (mem_arrays kind d), fun all a _ => all a.1 a.2⟩

section Endings

variable {o : Outcomes}

theorem construct_of_none (none : o.ifindexMap.entries = []) :
    construct o = ⟨[], .initial, false⟩ :=
  if_pos none

variable (found : o.ifindexMap.entries ≠ [])
include found

theorem construct_of_not_loaded (unloaded : o.openAndLoad = false) :
    construct o = ⟨[.openAndLoad false],
      { Members.initial with interfaceCount := o.ifindexMap.entries.length, skel := .null },
      false⟩ := by
  simp [construct, found, unloaded]

variable (loaded : o.openAndLoad = true)
include loaded

theorem construct_of_not_allocated (missing : ¬ ∀ kind d, o.calloc kind d = true) :
    construct o = ⟨allocations o ++ [.destroySkel .object], .loaded o, false⟩ := by
  rw [← arrays_all_iff, Bool.not_eq_true] at missing
  simp [construct, found, loaded, missing]

variable (complete : ∀ kind d, o.calloc kind d = true)
include complete

theorem construct_of_not_attached (detached : o.attachSkeleton = false) :
    construct o =
      ⟨allocations o ++ setUpInterfaces o ++ [.attachSkeleton false], .setUp o, true⟩ := by
  simp [construct, found, loaded, (arrays_all_iff o).mpr complete, detached]

theorem construct_of_no_info (attached : o.attachSkeleton = true) (unknown : o.mapInfo = false) :
    construct o = ⟨allocations o ++ setUpInterfaces o ++
      [.attachSkeleton true, .mapInfo false, .destroySkel .object], .setUp o, true⟩ := by
  simp [construct, found, loaded, (arrays_all_iff o).mpr complete, attached, unknown]

theorem construct_complete (attached : o.attachSkeleton = true) (known : o.mapInfo = true) :
    construct o = ⟨allocations o ++ setUpInterfaces o ++ [.attachSkeleton true, .mapInfo true],
      .setUp o, false⟩ := by
  simp [construct, found, loaded, (arrays_all_iff o).mpr complete, attached, known]

end Endings

/-- A monitor that stays and has interfaces needs all its arrays. -/
theorem allocated_of_safe {updates : ℕ} {o : Outcomes} (safe : SkelSafe (lifetime o updates))
    (stays : (construct o).threw = false) (found : 0 < (construct o).members.interfaceCount)
    (kept : ∀ kind d, .calloc kind d true ∈ (construct o).events →
      (construct o).members.allocated kind d = true)
    (kind : ArrayKind) (d : Direction) : (construct o).members.allocated kind d = true := by
  by_contra missing
  obtain ⟨kind', d', missing', used⟩ :=
    destruct_uses_missing found (Bool.eq_false_iff.mpr missing)
  have inside : .use (.array kind' d') ∈ (lifetime o updates).flatMap Event.ops := by
    obtain ⟨event, member, op⟩ := List.mem_flatMap.mp used
    refine List.mem_flatMap.mpr ⟨event, ?_, op⟩
    simp only [lifetime, stays]
    exact List.mem_append_right _ (List.mem_append_right _ member)
  have acquired := acquire_array_mem ((safe.array kind' d').acquire_mem inside rfl)
  have made := mem_construct_of_mem_lifetime acquired (Or.inr ⟨_, _, _, rfl⟩)
  rw [kept kind' d' made] at missing'
  cases missing'

theorem calloc_of_mem_allocations {o : Outcomes} {kind : ArrayKind} {d : Direction}
    (made : .calloc kind d true ∈ allocations o) : o.calloc kind d = true := by
  rcases List.mem_cons.mp made with equal | allocated
  · cases equal
  · obtain ⟨a, _, equal⟩ := List.mem_map.mp allocated
    obtain ⟨rfl, rfl, ok⟩ := Event.calloc.inj equal
    exact ok

/-! ## Every step succeeds -/

theorem mem_setUpInterfaces {o : Outcomes} {event : Event} (member : event ∈ setUpInterfaces o) :
    ∃ i call, event = .interface i call := by
  rcases List.mem_append.mp member with first | second
  · obtain ⟨i, _, made⟩ := List.mem_flatMap.mp first
    obtain ⟨call, _, rfl⟩ := List.mem_map.mp made
    exact ⟨i, call, rfl⟩
  · obtain ⟨i, _, made⟩ := List.mem_flatMap.mp second
    obtain ⟨call, _, rfl⟩ := List.mem_map.mp made
    exact ⟨i, call, rfl⟩

/-- Events that neither acquire nor release. -/
def Event.OnlyUses (event : Event) : Prop := ∀ op ∈ event.ops, ∃ r, op = .use r

theorem onlyUses_interface (i : ℕ) (call : HookCall) : (Event.interface i call).OnlyUses :=
  uses_of_call call

theorem track_onlyUses {events : List Event} (uses : ∀ event ∈ events, event.OnlyUses)
    (r : Resource) : track r true (events.flatMap Event.ops) = some true := by
  apply track_uses
  intro op member same
  obtain ⟨event, inside, op_mem⟩ := List.mem_flatMap.mp member
  obtain ⟨r', rfl⟩ := uses event inside op op_mem
  exact congrArg _ same

/-- After the allocations everything is there. -/
theorem track_allocations {o : Outcomes} (complete : ∀ kind d, o.calloc kind d = true)
    (r : Resource) : track r false ((allocations o).flatMap Event.ops) = some true := by
  simp only [allocations, arrays, List.map_cons, List.map_nil, complete]
  cases r with
  | skel => decide
  | array kind d => cases kind <;> cases d <;> decide

/-- Setting the interfaces up and attaching the skeleton only uses what is there. -/
theorem track_start {o : Outcomes} (complete : ∀ kind d, o.calloc kind d = true) (r : Resource) :
    track r false ((allocations o ++ setUpInterfaces o).flatMap Event.ops) = some true := by
  rw [List.flatMap_append, track_append, track_allocations complete]
  refine track_onlyUses (fun event member => ?_) r
  obtain ⟨i, call, rfl⟩ := mem_setUpInterfaces member
  exact onlyUses_interface i call

theorem onlyUses_of_mem_update {m : Members} {event : Event} (member : event ∈ update m) :
    event.OnlyUses := by
  intro op inside
  rcases mem_update member with rfl | rfl
  · simp only [Event.ops] at inside
    split at inside
    · exact ⟨.skel, List.mem_singleton.mp inside⟩
    · cases inside
  · exact ⟨.skel, List.mem_singleton.mp inside⟩

/-- With all arrays the destructor's loop gets to its end. -/
theorem destroyInterfaces_complete {m : Members} (complete : ∀ kind d, m.allocated kind d = true)
    (is : List ℕ) : (destroyInterfaces m is).2 = true := by
  induction is with
  | nil => rfl
  | cons i others ih => simp [destroyInterfaces, destroyInterface, complete, ih]

/-- The destructor gives everything back. -/
theorem track_destruct {m : Members} (complete : ∀ kind d, m.allocated kind d = true)
    (object : m.skel = .object) (r : Resource) :
    track r true ((destruct m).flatMap Event.ops) = some false := by
  have loop : track r true
      ((destroyInterfaces m (List.range m.interfaceCount)).1.flatMap Event.ops) = some true := by
    refine track_onlyUses (fun event member => ?_) r
    obtain ⟨i, call, _, rfl⟩ := mem_destroyInterfaces member
    exact onlyUses_interface i call
  simp only [destruct, destroyInterfaces_complete complete, if_true]
  rw [List.flatMap_append, track_append, loop]
  simp only [arrays, List.map_cons, List.map_nil, complete, object]
  cases r with
  | skel => decide
  | array kind d => cases kind <;> cases d <;> decide

/-- The life of a monitor whose constructor succeeds. -/
theorem track_lifetime {o : Outcomes} (found : o.ifindexMap.entries ≠ [])
    (loaded : o.openAndLoad = true) (complete : ∀ kind d, o.calloc kind d = true)
    (attached : o.attachSkeleton = true) (known : o.mapInfo = true) (updates : ℕ) (r : Resource) :
    track r false ((lifetime o updates).flatMap Event.ops) = some false := by
  simp only [lifetime, construct_complete found loaded complete attached known]
  have middle : track r true
      (([Event.attachSkeleton true, Event.mapInfo true] ++
        (List.replicate updates (update (.setUp o))).flatten).flatMap Event.ops) = some true := by
    refine track_onlyUses (fun event member => ?_) r
    rcases List.mem_append.mp member with here | later
    · rcases List.mem_pair.mp here with rfl | rfl <;>
        exact fun op inside => ⟨.skel, List.mem_singleton.mp inside⟩
    · exact onlyUses_of_mem_update (mem_updates later)
  have final := track_destruct (m := .setUp o) complete rfl r
  rw [if_neg Bool.false_ne_true, List.append_assoc, ← List.append_assoc [_, _]]
  rw [List.flatMap_append, track_append, track_start complete, Option.bind_some]
  rw [List.flatMap_append, track_append, middle, Option.bind_some, final]

/-- The life of a monitor whose constructor throws for want of the map's information. -/
theorem track_no_info {o : Outcomes} (found : o.ifindexMap.entries ≠ [])
    (loaded : o.openAndLoad = true) (complete : ∀ kind d, o.calloc kind d = true)
    (attached : o.attachSkeleton = true) (unknown : o.mapInfo = false) (updates : ℕ)
    (r : Resource) :
    track r false ((lifetime o updates).flatMap Event.ops) = some (decide (r ≠ .skel)) := by
  simp only [lifetime, construct_of_no_info found loaded complete attached unknown, if_true]
  rw [List.flatMap_append, track_append, track_start complete, Option.bind_some]
  cases r with
  | skel => decide
  | array kind d => cases kind <;> cases d <;> decide

/-! ## What a safe life needs -/

section Needs

variable {o : Outcomes} {updates : ℕ} (safe : SkelSafe (lifetime o updates))
include safe

/-- Without an interface the destructor is given the uninitialised pointer. -/
theorem found_of_safe : o.ifindexMap.entries ≠ [] := by
  intro none
  have trace : .destroySkel .uninitialised ∈ lifetime o updates := by
    simp [lifetime, construct_of_none none, destruct, Members.initial, destroyInterfaces]
  have released : .release .skel ∈ (lifetime o updates).flatMap Event.ops :=
    List.mem_flatMap.mpr ⟨_, trace, List.mem_singleton_self _⟩
  have acquired := acquire_skel_mem (safe.skel.acquire_mem released rfl)
  have made := mem_construct_of_mem_lifetime acquired (Or.inl ⟨_, rfl⟩)
  rw [construct_of_none none] at made
  cases made

/-- Without the skeleton no array is allocated. -/
theorem loaded_of_safe (found : o.ifindexMap.entries ≠ []) : o.openAndLoad = true := by
  by_contra failed
  have ending := construct_of_not_loaded found (Bool.eq_false_iff.mpr failed)
  have there := allocated_of_safe safe (by rw [ending])
    (by rw [ending]; exact List.length_pos_iff.mpr found)
    (fun kind d made => by rw [ending] at made; simp at made) .tcHooks .ingress
  rw [ending] at there
  cases there

/-- The array whose allocation failed is used as well. -/
theorem complete_of_safe (found : o.ifindexMap.entries ≠ []) (loaded : o.openAndLoad = true) :
    ∀ kind d, o.calloc kind d = true := by
  by_contra missing
  have ending := construct_of_not_allocated found loaded missing
  have kept : ∀ kind d, .calloc kind d true ∈ (construct o).events →
      (construct o).members.allocated kind d = true := by
    intro kind d made
    rw [ending] at made ⊢
    exact calloc_of_mem_allocations (by simpa using made)
  have there := allocated_of_safe safe (by rw [ending])
    (by rw [ending]; exact List.length_pos_iff.mpr found) kept
  rw [ending] at there
  exact missing there

/-- A skeleton that cannot be attached is not destroyed. -/
theorem attached_of_safe (found : o.ifindexMap.entries ≠ []) (loaded : o.openAndLoad = true)
    (complete : ∀ kind d, o.calloc kind d = true) : o.attachSkeleton = true := by
  by_contra failed
  have ending := construct_of_not_attached found loaded complete (Bool.eq_false_iff.mpr failed)
  have tracked : track .skel false ((lifetime o updates).flatMap Event.ops) = some true := by
    simp only [lifetime, ending, if_true]
    rw [List.flatMap_append, track_append, track_start complete]
    rfl
  have balance := acquisitions_of_track tracked
  rw [safe.once] at balance
  simp at balance

end Needs

/-! ## The main result -/

/-- **The skeleton and the arrays are used only while they are there, and a loaded skeleton is
destroyed once, exactly when interfaces are found, the skeleton loads, all allocations succeed
and the skeleton can be attached.** -/
theorem lifetime_safe_iff (o : Outcomes) (updates : ℕ) :
    SkelSafe (lifetime o updates) ↔
      o.ifindexMap.entries ≠ [] ∧ o.openAndLoad = true ∧ (∀ kind d, o.calloc kind d = true) ∧
        o.attachSkeleton = true := by
  constructor
  · intro safe
    have found := found_of_safe safe
    have loaded := loaded_of_safe safe found
    have complete := complete_of_safe safe found loaded
    exact ⟨found, loaded, complete, attached_of_safe safe found loaded complete⟩
  · rintro ⟨found, loaded, complete, attached⟩
    have held : ∀ r, ∃ held, track r false ((lifetime o updates).flatMap Event.ops) = some held ∧
        (r = .skel → held = false) := by
      intro r
      cases known : o.mapInfo with
      | false =>
          refine ⟨_, track_no_info found loaded complete attached known updates r, fun same => ?_⟩
          simp [same]
      | true =>
          exact ⟨_, track_lifetime found loaded complete attached known updates r, fun _ => rfl⟩
    obtain ⟨skel, tracked, free⟩ := held .skel
    refine ⟨Option.isSome_iff_exists.mpr ⟨_, tracked⟩, ?_, fun kind d => ?_⟩
    · have balance := acquisitions_of_track tracked
      rw [free rfl] at balance
      exact balance.symm
    · obtain ⟨_, tracked, _⟩ := held (.array kind d)
      exact Option.isSome_iff_exists.mpr ⟨_, tracked⟩

/-- An interface is found, and the skeleton cannot be loaded. -/
def unprivileged : Outcomes where
  ifindexMap := AList.singleton 2 "eth0".toList
  openAndLoad := false
  calloc := fun _ _ => true
  hooks := fun _ => ⟨.ok, .ok, true, true⟩
  attachSkeleton := true
  mapInfo := true

/-- The destructor indexes the arrays, which were never allocated. -/
theorem unprivileged_unsafe : ¬ SkelSafe (lifetime unprivileged 0) := by
  intro safe
  have hooks := safe.array .tcHooks .ingress
  exact absurd hooks (by decide)

end LinuxMonitor.Monitor.NetMonitor
