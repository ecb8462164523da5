import LinuxMonitor.Kmod.Mmap
import LinuxMonitor.Library.Resource

/-!
# The life of the kernel modules

Each module's init function allocates the buffer, arms a timer that writes the buffer, and
registers the device; its exit function cancels, deregisters and frees.  After the init
function the timer expires, users map the device and the module is removed, in any order.
The kernel calls the exit function only of a module whose init function returned 0.

* `Running.run`: what holds of every run after a complete initialisation.
* `safe_iff`: **a module is safe exactly when the allocation fails or the registration
  succeeds.**
-/

set_option autoImplicit false

namespace LinuxMonitor.Kmod

open Library

/-! ## The modules -/

/-- What a module acquires: the memory of its buffer, the armed timer and the registered
device. -/
inductive Resource where
  | buffer
  | timer
  | device
deriving DecidableEq, Repr

/-- The outcomes of the fallible calls of an init function. -/
structure InitOutcomes where
  vmalloc : Bool
  miscRegister : Bool
deriving DecidableEq, Repr

/-- `-ENOMEM`, `-ENODEV` and `-EBUSY` -/
def enomem : Int32 := -12

def enodev : Int32 := -19

def ebusy : Int32 := -16

/-- What was done, and the return code. -/
def cpuStatMonitorInit (o : InitOutcomes) : List (Op Resource) × Int32 :=
  if o.vmalloc then
    -- `memset`, `update_cpu_stats` and `hrtimer_start`
    let started := [.acquire .buffer, .use .buffer, .use .buffer, .acquire .timer]
    if o.miscRegister then (started ++ [.acquire .device], 0)
    else (started ++ [.release .buffer], enodev)
  else ([], enomem)

def cpuSoftirqMonitorInit (o : InitOutcomes) : List (Op Resource) × Int32 :=
  if o.vmalloc then
    let started := [.acquire .buffer, .use .buffer, .use .buffer, .acquire .timer]
    if o.miscRegister then (started ++ [.acquire .device], 0)
    else (started ++ [.release .buffer], ebusy)
  else ([], enomem)

/-- The result of `misc_register` is not looked at. -/
def cpuLoadMonitorInit (o : InitOutcomes) : List (Op Resource) × Int32 :=
  if o.vmalloc then
    ([.acquire .buffer, .acquire .timer] ++ (if o.miscRegister then [.acquire .device] else []), 0)
  else ([], enomem)

def Device.init : Device → InitOutcomes → List (Op Resource) × Int32
  | .cpuStatMonitor => cpuStatMonitorInit
  | .cpuSoftirqMonitor => cpuSoftirqMonitorInit
  | .cpuLoadMonitor => cpuLoadMonitorInit

/-- `hrtimer_cancel`, `misc_deregister` and `vfree`, as all three exit functions do them.  The
buffer's pointer is not null where the init function returned 0. -/
def moduleExit : List (Op Resource) := [.release .timer, .release .device, .release .buffer]

/-! ## Runs -/

/-- A module after its init function: what was done so far, and whether the kernel has it
loaded. -/
structure State where
  ops : List (Op Resource)
  loaded : Bool
deriving DecidableEq, Repr

/-- The module is loaded when its init function returns 0. -/
def load (device : Device) (o : InitOutcomes) : State :=
  ⟨(device.init o).1, (device.init o).2 = 0⟩

/-- What happens to a module: the time of its timer comes, a user maps its device, or the
kernel is asked to remove it. -/
inductive Event where
  | timerExpires
  | mmap
  | moduleExit
deriving DecidableEq, Repr

/-- An armed timer runs its callback, which writes the buffer and arms the timer again; a
registered device is mapped; a loaded module is removed. -/
def step (s : State) : Event → State
  | .timerExpires => if holds .timer s.ops then { s with ops := s.ops ++ [.use .buffer] } else s
  | .mmap => if holds .device s.ops then { s with ops := s.ops ++ [.use .buffer] } else s
  | .moduleExit => if s.loaded then ⟨s.ops ++ moduleExit, false⟩ else s

def run (events : List Event) (s : State) : State := events.foldl step s

/-- A safe module uses its buffer only while it is allocated, and acquires and releases each
resource in turn, whatever happens; an init function that fails leaves nothing behind; one
that succeeds has registered the device, and the exit function releases what it has
acquired. -/
structure Safe (device : Device) (o : InitOutcomes) : Prop where
  disciplined : ∀ events r, Disciplined r (run events (load device o)).ops
  failed : (device.init o).2 ≠ 0 → ∀ r, holds r (device.init o).1 = false
  registered : (device.init o).2 = 0 → holds .device (device.init o).1 = true
  released : (device.init o).2 = 0 → ∀ events, .moduleExit ∈ events →
    ∀ r, releases r (run events (load device o)).ops = acquisitions r (device.init o).1

/-! ## The runs of a module that is complete -/

/-- All three resources are held, or each was released once. -/
def Running (s : State) : Prop :=
  ∀ r, track r false s.ops = some s.loaded ∧ releases r s.ops = (!s.loaded).toNat

theorem moduleExit_releases (r : Resource) :
    track r true moduleExit = some false ∧ releases r moduleExit = 1 := by
  cases r <;> decide

theorem Running.step {s : State} (running : Running s) (event : Event) :
    Running (step s event) := by
  intro r
  obtain ⟨tracked, released⟩ := running r
  have use : ∀ r', holds r' s.ops = true →
      track r false (s.ops ++ [.use .buffer]) = some s.loaded ∧
        releases r (s.ops ++ [.use .buffer]) = (!s.loaded).toNat := by
    intro r' held
    have loaded : s.loaded = true := (holds_of_track (running r').1).symm.trans held
    rw [loaded] at tracked released ⊢
    rw [track_append, tracked, releases_append, released]
    refine ⟨track_uses fun op member same => ?_, rfl⟩
    rw [List.mem_singleton.mp member] at same ⊢
    exact congrArg Op.use same
  cases event with
  | timerExpires =>
      simp only [Kmod.step]
      split
      · next armed => exact use _ armed
      · exact ⟨tracked, released⟩
  | mmap =>
      simp only [Kmod.step]
      split
      · next registered => exact use _ registered
      · exact ⟨tracked, released⟩
  | moduleExit =>
      simp only [Kmod.step]
      split
      · next loaded =>
          rw [loaded] at tracked released
          obtain ⟨freed, once⟩ := moduleExit_releases r
          rw [track_append, tracked, releases_append, released, once]
          exact ⟨freed, rfl⟩
      · exact ⟨tracked, released⟩

theorem Running.run {s : State} (running : Running s) (events : List Event) :
    Running (run events s) := by
  induction events generalizing s with
  | nil => exact running
  | cons event events ih => exact ih (running.step event)

/-- A module is not loaded again. -/
theorem loaded_step {s : State} (removed : s.loaded = false) (event : Event) :
    (step s event).loaded = false := by
  cases event <;> simp only [step] <;> split <;> simp_all

theorem loaded_run {s : State} (removed : s.loaded = false) (events : List Event) :
    (run events s).loaded = false := by
  induction events generalizing s with
  | nil => exact removed
  | cons event events ih => exact ih (loaded_step removed event)

theorem loaded_of_exit {s : State} {events : List Event} (exits : .moduleExit ∈ events) :
    (run events s).loaded = false := by
  induction events generalizing s with
  | nil => cases exits
  | cons event events ih =>
      rcases List.mem_cons.mp exits with rfl | later
      · refine loaded_run ?_ events
        simp only [step]
        split <;> simp_all
      · exact ih later

/-- A complete initialisation acquires each resource once. -/
theorem init_complete (device : Device) {o : InitOutcomes} (vmalloc : o.vmalloc = true)
    (miscRegister : o.miscRegister = true) :
    (device.init o).2 = 0 ∧ ∀ r, track r false (device.init o).1 = some true ∧
      acquisitions r (device.init o).1 = 1 ∧ releases r (device.init o).1 = 0 := by
  obtain ⟨_, _⟩ := o
  cases vmalloc
  cases miscRegister
  cases device <;> refine ⟨rfl, fun r => ?_⟩ <;> cases r <;> decide

theorem running_load (device : Device) {o : InitOutcomes} (vmalloc : o.vmalloc = true)
    (miscRegister : o.miscRegister = true) : Running (load device o) := by
  obtain ⟨zero, acquired⟩ := init_complete device vmalloc miscRegister
  intro r
  rw [load, zero]
  exact ⟨(acquired r).1, (acquired r).2.2⟩

/-- A module that is complete holds all that it acquired as long as it is loaded. -/
theorem Running.holds_eq {s : State} (running : Running s) (r : Resource) :
    holds r s.ops = s.loaded :=
  holds_of_track (running r).1

theorem safe_of_complete (device : Device) {o : InitOutcomes} (vmalloc : o.vmalloc = true)
    (miscRegister : o.miscRegister = true) : Safe device o := by
  obtain ⟨zero, acquired⟩ := init_complete device vmalloc miscRegister
  have running := running_load device vmalloc miscRegister
  constructor
  · intro events r
    rw [Disciplined, ((running.run events) r).1]
    rfl
  · exact fun error => absurd zero error
  · exact fun _ => holds_of_track (acquired .device).1
  · intro _ events exits r
    rw [((running.run events) r).2, loaded_of_exit exits, (acquired r).2.1]
    rfl

/-! ## Modules whose device is registered -/

/-- After the init function nothing is acquired. -/
theorem acquire_mem_of_run {s : State} {events : List Event} {r : Resource}
    (member : .acquire r ∈ (run events s).ops) : .acquire r ∈ s.ops := by
  induction events generalizing s with
  | nil => exact member
  | cons event events ih =>
      have after : .acquire r ∈ (step s event).ops := ih member
      cases event <;> simp only [step] at after <;> split at after <;>
        simp_all [moduleExit]

/-- Only a module that is complete has a registered device. -/
theorem complete_of_registered {device : Device} {o : InitOutcomes} {events : List Event}
    (registered : holds .device (run events (load device o)).ops = true) :
    o.vmalloc = true ∧ o.miscRegister = true := by
  have acquired : .acquire .device ∈ (device.init o).1 :=
    acquire_mem_of_run (acquire_mem_of_holds registered)
  obtain ⟨vmalloc, miscRegister⟩ := o
  cases device <;> cases vmalloc <;> cases miscRegister <;> revert acquired <;> decide

/-! ## The runs of a module that could not allocate -/

/-- Nothing was done, and nothing will be. -/
theorem run_nothing (events : List Event) : run events ⟨[], false⟩ = ⟨[], false⟩ := by
  induction events with
  | nil => rfl
  | cons event events ih =>
      have stays : step ⟨[], false⟩ event = ⟨[], false⟩ := by cases event <;> rfl
      rw [run, List.foldl_cons, stays]
      exact ih

theorem safe_of_unallocated (device : Device) {o : InitOutcomes} (missing : o.vmalloc = false) :
    Safe device o := by
  have init : device.init o = ([], enomem) := by
    obtain ⟨_, _⟩ := o
    cases missing
    cases device <;> rfl
  have state : load device o = ⟨[], false⟩ := by
    rw [load, init]
    rfl
  constructor
  · intro events r
    rw [state, run_nothing]
    rfl
  · intro _ r
    rw [init]
    rfl
  · intro zero
    rw [init] at zero
    cases zero
  · intro zero
    rw [init] at zero
    cases zero

/-! ## The condition -/

/-- **When a module is safe.**  For each of the three modules and all outcomes of the calls of
its init function, every run is safe exactly when the buffer could not be allocated or the
device could be registered. -/
theorem safe_iff (device : Device) (o : InitOutcomes) :
    Safe device o ↔ (o.vmalloc = true → o.miscRegister = true) := by
  constructor
  · intro safe vmalloc
    by_contra missing
    obtain ⟨_, miscRegister⟩ := o
    cases vmalloc
    cases miscRegister with
    | true => exact missing rfl
    | false =>
        cases device with
        | cpuStatMonitor => exact absurd (safe.failed (by decide) .timer) (by decide)
        | cpuSoftirqMonitor => exact absurd (safe.failed (by decide) .timer) (by decide)
        | cpuLoadMonitor => exact absurd (safe.registered rfl) (by decide)
  · intro complete
    cases vmalloc : o.vmalloc with
    | true => exact safe_of_complete device vmalloc (complete vmalloc)
    | false => exact safe_of_unallocated device vmalloc

/-- When the device cannot be registered, the timer writes the buffer after it was freed. -/
theorem cpuStat_unsafe : ¬ Safe .cpuStatMonitor ⟨true, false⟩ := by
  intro safe
  exact absurd (safe.disciplined [.timerExpires] .buffer) (by decide)

end LinuxMonitor.Kmod
