import LinuxMonitor.Kmod.Statistics
import LinuxMonitor.Library.Passes
import LinuxMonitor.Monitor.CpuRounding

/-!
# `CpuLoadMonitor`: the load averages

`updateOnce` maps the buffer of `cpu_load_monitor`, copies it with `memcpy`, and divides the three
fixed-point numbers by `FIXED_1`.  The timer of the module rewrites the buffer word by word, also
while it is copied, and the order in which `memcpy` loads the words is not specified; a word is
loaded and stored as a whole.

* `loadAverage_near`: a reported average is off by less than one part in sixteen million, and
  exact below a load of 8192.
* `meets_updateOnce`: what one call guarantees.
* `loads_reported`: **each average that is reported was the kernel's at some update, and no update
  is reported after a later one.**
-/

set_option autoImplicit false

namespace LinuxMonitor.Monitor.CpuLoadMonitor

open Library Kmod

/-! ## The buffer -/

/-- The members of `struct cpu_load`. -/
inductive Member where
  | loadAvg1
  | loadAvg3
  | loadAvg15
deriving DecidableEq, Repr

def members : List Member := [.loadAvg1, .loadAvg3, .loadAvg15]

def Member.of (load : CpuLoad) : Member → UInt64
  | .loadAvg1 => load.loadAvg1
  | .loadAvg3 => load.loadAvg3
  | .loadAvg15 => load.loadAvg15

/-- The stores of `update_cpu_load` in their order. -/
def stores (kernel : ℕ → KernelStatistics) (k : ℕ) : List (Member × UInt64) :=
  members.map fun member => (member, member.of (updateCpuLoad (kernel k)))

/-- The buffer: its words, and how far the module has come with its updates. -/
abbrev Buffer : Type := Passes.Shared Member UInt64

/-- The buffer that `vmalloc` has returned. -/
def loaded (previous : CpuLoad) : Buffer := ⟨(Member.of previous), 0, []⟩

/-- What a word holds after a number of updates. -/
def content (kernel : ℕ → KernelStatistics) (previous : CpuLoad) : ℕ → CpuLoad
  | 0 => previous
  | k + 1 => updateCpuLoad (kernel k)

theorem unrepeated_stores (kernel : ℕ → KernelStatistics) (k : ℕ) :
    ((stores kernel k).map Prod.fst).Nodup := by
  have same : (stores kernel k).map Prod.fst = members := by
    rw [stores, List.map_map]
    exact List.map_id _
  rw [same]
  decide

theorem mem_members (member : Member) : member ∈ members := by
  cases member <;> decide

/-- An update stores every word. -/
theorem after_stores (kernel : ℕ → KernelStatistics) (previous : CpuLoad) (k : ℕ)
    (member : Member) :
    Passes.after (stores kernel) (Member.of previous) k member =
      member.of (content kernel previous k) := by
  cases k with
  | zero => rfl
  | succ k =>
      have stored : (member, member.of (updateCpuLoad (kernel k))) ∈ stores kernel k :=
        List.mem_map_of_mem (mem_members member)
      exact Passes.writeAll_of_mem (unrepeated_stores kernel k) stored

/-! ## The monitor -/

/-- `(float)info.load_avg / FIXED_1`, where `FIXED_1` is `1 << 11`. -/
def loadAverage (x : UInt64) : ℚ := CpuStatMonitor.rounded x / 2 ^ 11

/-- `CpuLoadMonitor::UpdateOnce`, where `memcpy` loads the words in the given order.  Without an
order the device does not open or does not map. -/
def updateOnce : Option (List Member) → Loads Buffer Unit (Option (Proto.CpuLoad ℚ))
  | none => pure none
  | some order => do
      let words ← Passes.readCells order
      let info := Passes.copied 0 order words
      return some ⟨loadAverage (info .loadAvg1), loadAverage (info .loadAvg3),
        loadAverage (info .loadAvg15)⟩

def Member.reported (load : Proto.CpuLoad ℚ) : Member → ℚ
  | .loadAvg1 => load.loadAvg1
  | .loadAvg3 => load.loadAvg3
  | .loadAvg15 => load.loadAvg15

/-! ## The precision -/

/-- **A reported average is nearly the kernel's**, and exact below a load of 8192. -/
theorem loadAverage_near (x : UInt64) :
    |loadAverage x - (x.toNat : ℚ) / 2 ^ 11| ≤ (x.toNat : ℚ) / 2 ^ 11 / 2 ^ 24 ∧
      (x.toNat < 8192 * 2 ^ 11 → loadAverage x = (x.toNat : ℚ) / 2 ^ 11) := by
  constructor
  · have near : |(roundTo 24 x.toNat : ℚ) - x.toNat| * 2 ^ 24 ≤ x.toNat := by
      have bound := dist_roundTo_mul_le (p := 24) (by decide) x.toNat
      have distance : |(roundTo 24 x.toNat : ℚ) - x.toNat| =
          (Nat.dist x.toNat (roundTo 24 x.toNat) : ℚ) := by
        rcases le_total x.toNat (roundTo 24 x.toNat) with up | down
        · rw [Nat.dist_eq_sub_of_le up, Nat.cast_sub up, abs_of_nonneg]
          exact sub_nonneg.mpr (Nat.cast_le.mpr up)
        · rw [Nat.dist_eq_sub_of_le_right down, Nat.cast_sub down, abs_sub_comm, abs_of_nonneg]
          exact sub_nonneg.mpr (Nat.cast_le.mpr down)
      rw [distance]
      exact_mod_cast bound
    have scaled : loadAverage x - (x.toNat : ℚ) / 2 ^ 11 =
        ((roundTo 24 x.toNat : ℚ) - x.toNat) / 2 ^ 11 := by
      rw [loadAverage, CpuStatMonitor.rounded, sub_div]
    rw [scaled, abs_div, abs_of_pos (by norm_num : (0 : ℚ) < 2 ^ 11), div_right_comm,
      div_le_div_iff_of_pos_right (by norm_num), le_div_iff₀ (by norm_num)]
    exact near
  · intro small
    have kept := (roundTo_eq_self_iff (p := 24) (by decide) x.toNat).mpr
      ⟨x.toNat, 0, small, (Nat.mul_one _).symm⟩
    rw [loadAverage, CpuStatMonitor.rounded, kept]

/-! ## One call -/

/-- What a call guarantees when it is made between the two states. -/
def Round (kernel : ℕ → KernelStatistics) (previous : CpuLoad) (device : Option (List Member))
    (s s' : Buffer) (report : Option (Proto.CpuLoad ℚ)) : Prop :=
  Passes.Later (stores kernel) (Member.of previous) s s' ∧
    (report.isSome ↔ device.isSome) ∧
    ∀ load, report = some load → ∀ member : Member, ∃ x,
      Passes.Seen (stores kernel) (Member.of previous) s s' member x ∧
        member.reported load = loadAverage x

variable {kernel : ℕ → KernelStatistics} {previous : CpuLoad}

theorem meets_updateOnce {device : Option (List Member)}
    (complete : ∀ order, device = some order → ∀ member, member ∈ order) {s : Buffer}
    (kept : Passes.Kept (stores kernel) (Member.of previous) s) :
    Loads.Meets (fun _ => Passes.Write (stores kernel))
      (fun _ s' report => Passes.Kept (stores kernel) (Member.of previous) s' ∧
        Round kernel previous device s s' report) (updateOnce device) () s := by
  cases device with
  | none =>
      intro s' writes
      have later := Passes.version_mono (unrepeated_stores kernel) kept writes
      exact ⟨later.1, later, Iff.rfl, nofun⟩
  | some order =>
      refine Loads.Meets.bind ?_
      refine (Passes.meets_readCells (unrepeated_stores kernel) order kept).mono ?_
      intro _ s₁ words seen s' writes
      have last := Passes.version_mono (unrepeated_stores kernel) seen.1.1 writes
      refine ⟨last.1, seen.1.trans last, iff_of_true rfl rfl, fun load report member => ?_⟩
      cases report
      have own := Passes.copied_of_forall₂ seen.2 0 (complete order rfl member)
      exact ⟨_, own.mono le_rfl (last.2 member), by cases member <;> rfl⟩

/-! ## Runs of calls -/

/-- **Each average that is reported was the kernel's at some update**, before the first update
whatever `vmalloc` has left in the buffer, and no update is reported after a later one: over any
number of calls, in any order of the loads, whatever the interleaving with the updates.  A call
reports the three averages exactly if the device opens and maps. -/
theorem loads_reported {devices : List (Option (List Member))}
    (complete : ∀ order, some order ∈ devices → ∀ member, member ∈ order) {s' : Buffer}
    {reports : List (Option (Proto.CpuLoad ℚ))}
    (run : Loads.Steps (fun _ => Passes.Write (stores kernel))
      ((), loaded previous, Loads.inSequence updateOnce devices) ((), s', .done reports)) :
    List.Forall₂ (fun device report => (report.isSome ↔ device.isSome)) devices reports ∧
      ∀ member : Member, ∃ updates : List ℕ,
        reports.filterMap (Option.map member.reported) =
            updates.map (fun k => loadAverage (member.of (content kernel previous k))) ∧
          updates.Pairwise (· ≤ ·) ∧ ∀ k ∈ updates, k ≤ s'.begun := by
  have meets := Loads.Meets.inSequence (Round kernel previous)
    (Passes.Later (stores kernel) (Member.of previous)) devices
    (fun _ _ _ => Passes.Later.trans)
    (fun _ _ _ kept writes =>
      have later := Passes.version_mono (unrepeated_stores kernel) kept writes
      ⟨later.1, later⟩)
    (fun device present _ _ kept =>
      meets_updateOnce (fun order same => complete order (same ▸ present)) kept)
    () (m := loaded previous) (Passes.kept_after 0)
  obtain ⟨_, turns⟩ := meets.result run
  refine ⟨turns.forall₂.imp fun device report ⟨_, _, round⟩ => round.2.1, fun member => ?_⟩
  obtain ⟨-, updates, values, ordered, window⟩ := Passes.ticks_of_inTurn
    (Option.map member.reported) loadAverage member
    (fun device s s' report round => ⟨round.1, fun b shown => by
      obtain ⟨load, some, rfl⟩ := Option.map_eq_some_iff.mp shown
      exact round.2.2 load some member⟩) turns
  refine ⟨updates, ?_, ordered, fun k inside => (window k inside).2.trans ?_⟩
  · rw [values]
    exact List.map_congr_left fun k _ =>
      congrArg loadAverage (after_stores kernel previous k member)
  · rw [Passes.Shared.version]
    split <;> omega

/-- A kernel with a load of 1. -/
def busyKernel (_ : ℕ) : KernelStatistics where
  kcpustat _ := ⟨0, 0, 0, 0, 0, 0, 0, 0, 0, 0⟩
  softirqs _ := ⟨0, 0, 0, 0, 0, 0, 0, 0, 0, 0⟩
  ktimeGetNs _ := 0
  avenrun _ := 2048
  online _ := true

/-- The buffer at the first load, and behind it, where the first update has ended. -/
def firstUpdate : ℕ → Buffer
  | 0 => loaded ⟨0, 0, 0⟩
  | _ + 1 => ⟨Passes.after (stores busyKernel) (Member.of ⟨0, 0, 0⟩) 1, 1, []⟩

/-- The words of this call come from different updates. -/
theorem loads_reported_torn :
    (Loads.along firstUpdate 0 (Loads.inSequence updateOnce [some members])).1 =
        [some ⟨0, 1, 1⟩] ∧
      ∃ updates : List ℕ, [some (⟨0, 1, 1⟩ : Proto.CpuLoad ℚ)].filterMap
          (Option.map Member.loadAvg3.reported) =
        updates.map (fun k =>
          loadAverage (Member.loadAvg3.of (content busyKernel ⟨0, 0, 0⟩ k))) := by
  have torn : (Loads.along firstUpdate 0 (Loads.inSequence updateOnce [some members])).1 =
      [some ⟨0, 1, 1⟩] := by decide +kernel
  have written : ∀ (_ : Unit) k, Loads.Writes (fun _ => Passes.Write (stores busyKernel)) ()
      (firstUpdate k) (firstUpdate (k + 1)) := by
    intro _ k
    cases k with
    | zero => exact Passes.writes_pass 0
    | succ k => exact .refl
  obtain ⟨_, run⟩ := Loads.Steps.along written () 0
    (Loads.inSequence updateOnce [some members])
  rw [torn] at run
  have complete : ∀ order, some order ∈ [some members] → ∀ member : Member, member ∈ order := by
    intro order inside member
    cases List.mem_singleton.mp inside
    exact mem_members member
  obtain ⟨updates, values, _⟩ := (loads_reported complete run).2 .loadAvg3
  exact ⟨torn, updates, values⟩

end LinuxMonitor.Monitor.CpuLoadMonitor
