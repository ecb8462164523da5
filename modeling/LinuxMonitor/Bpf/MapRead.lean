import Mathlib.Algebra.Order.BigOperators.Group.List
import Mathlib.Algebra.Order.Ring.Nat
import LinuxMonitor.Bpf.NetMonitor
import LinuxMonitor.Library.KeyWalk

/-!
# Reading the map while packets are counted

User space walks over `if_stats` with `bpf_map_get_next_key` and copies the slots of each key
with `bpf_map_lookup_elem`, while the programs go on counting.  The traversal of the hash
table is an order of the keys into which new keys are inserted anywhere; a lookup copies one
word after the other, CPU by CPU.

What is counted is followed in numbers without a bound, of which the counters hold the
residues.

* `reads_counter`: a counter reads what the executions on its CPU have counted.
* `growingKeys`: the keys are different, positive, at most 128, and only become more.
* `lookupElem_meets`: **the copied slots of a key, added up, read a number between what had
  been counted before the lookup and what has been counted after it.**
-/

set_option autoImplicit false

namespace LinuxMonitor.Bpf

open Library

/-! ## The traffic -/

/-- The map, its keys in the order of traversal, and the executions for the packets so far. -/
structure Traffic (Cpu : Type) where
  stats : IfStats Cpu
  keys : List Int32
  executions : List (Execution Cpu)
  listed : keys.Perm stats.slots.keys

namespace Traffic

variable {Cpu : Type}

/-- The program has just been loaded. -/
def loaded : Traffic Cpu := ⟨.empty, [], [], List.Perm.refl _⟩

theorem mem_keys_iff (m : Traffic Cpu) {ifindex : Int32} :
    ifindex ∈ m.keys ↔ m.stats.Has ifindex := m.listed.mem_iff

variable [DecidableEq Cpu]

/-- A packet arrives, or an execution takes its next operation.  Interfaces have positive
indices.  A new key is inserted somewhere and the others keep their order. -/
inductive Happens : Traffic Cpu → Traffic Cpu → Prop where
  | arrive {m : Traffic Cpu} {e : Execution Cpu} (starts : Starts e) (positive : 0 < e.ifindex) :
      Happens m { m with executions := m.executions ++ [e] }
  | advance {m m' : Traffic Cpu} {before after : List (Execution Cpu)} {e e' : Execution Cpu}
      (running : m.executions = before ++ e :: after)
      (runs : exec m.stats e = some (m'.stats, e'))
      (next : m'.executions = before ++ e' :: after) (inserted : m.keys.Sublist m'.keys) :
      Happens m m'

/-- Any number of events. -/
abbrev Happened : Traffic Cpu → Traffic Cpu → Prop := Relation.ReflTransGen Happens

/-- What can come about after the program has been loaded. -/
def Reached (m : Traffic Cpu) : Prop := Happened loaded m

/-! ## The keys -/

omit [DecidableEq Cpu] in
theorem has_updateNoexist_imp {m : IfStats Cpu} {created ifindex : Int32}
    (has : (m.updateNoexist created).Has ifindex) : m.Has ifindex ∨ ifindex = created := by
  unfold IfStats.updateNoexist at has
  split at has
  · exact ((AList.mem_insert _).mp has).symm
  · exact Or.inl has

/-- A new entry is that of the execution's interface. -/
theorem has_exec {s s' : IfStats Cpu} {e e' : Execution Cpu} (runs : exec s e = some (s', e'))
    {ifindex : Int32} (has : s'.Has ifindex) : s.Has ifindex ∨ ifindex = e.ifindex := by
  unfold exec at runs
  cases pc : e.pc <;> simp only [pc] at runs
  case lookup => cases runs; exact Or.inl has
  case update => cases runs; exact has_updateNoexist_imp has
  case lookupAgain => cases runs; exact Or.inl has
  case addBytes =>
    obtain ⟨_, added, same⟩ := Option.map_eq_some_iff.mp runs
    cases same
    exact Or.inl (((IfStats.fetchAndAdd_cases added).1 ifindex).mp has)
  case addPackets =>
    obtain ⟨_, added, same⟩ := Option.map_eq_some_iff.mp runs
    cases same
    exact Or.inl (((IfStats.fetchAndAdd_cases added).1 ifindex).mp has)
  case counted => cases runs
  case dropped => cases runs

theorem Happens.interleaved {m m' : Traffic Cpu} (happens : Happens m m') :
    Interleaved Starts exec (m.stats, m.executions) (m'.stats, m'.executions) := by
  cases happens with
  | arrive starts _ => exact .spawn starts
  | advance running runs next _ =>
      rw [running, next]
      exact .advance runs

theorem Happens.keys {m m' : Traffic Cpu} (happens : Happens m m') : m.keys.Sublist m'.keys := by
  cases happens with
  | arrive _ _ => exact List.Sublist.refl _
  | advance _ _ _ inserted => exact inserted

theorem Reached.reachable {m : Traffic Cpu} (reached : m.Reached) :
    Reachable m.stats m.executions := by
  induction reached with
  | refl => exact .refl
  | tail _ last ih => exact ih.tail last.interleaved

/-- Entries stay. -/
theorem has_later {m m' : Traffic Cpu} (happened : Happened m m') {ifindex : Int32}
    (has : m.stats.Has ifindex) : m'.stats.Has ifindex := by
  have steps := Relation.ReflTransGen.lift (fun m : Traffic Cpu => (m.stats, m.executions))
    (fun _ _ => Happens.interleaved) _ _ happened
  exact (grows_of_steps steps).keeps ifindex has

/-- Executions and entries are those of interfaces with positive indices. -/
theorem Reached.positive {m : Traffic Cpu} (reached : m.Reached) :
    (∀ e ∈ m.executions, 0 < e.ifindex) ∧ ∀ ifindex, m.stats.Has ifindex → 0 < ifindex := by
  induction reached with
  | refl =>
      refine ⟨fun e member => (by cases member), fun ifindex has => ?_⟩
      exact absurd has (AList.notMem_empty ifindex)
  | tail _ last ih =>
      obtain ⟨executions, entries⟩ := ih
      cases last with
      | arrive _ positive =>
          refine ⟨fun e member => ?_, entries⟩
          rcases List.mem_append.mp member with old | new
          · exact executions e old
          · rw [List.mem_singleton.mp new]
            exact positive
      | @advance m' before after e e' running runs next _ =>
          have own := executions e (by rw [running]; simp)
          have same : e'.ifindex = e.ifindex := by
            obtain ⟨pc, rfl⟩ := (exec_spec runs).2.1
            rfl
          refine ⟨fun other member => ?_, fun ifindex has => ?_⟩
          · rw [next, List.mem_append, List.mem_cons] at member
            rw [running] at executions
            rcases member with old | rfl | old
            · exact executions other (by simp [old])
            · rw [same]
              exact own
            · exact executions other (by simp [old])
          · rcases has_exec runs has with old | rfl
            · exact entries ifindex old
            · exact own

/-- **The keys are different and few, and events only insert further ones.** -/
theorem growingKeys : GrowingKeys (fun (_ : Unit) (m m' : Traffic Cpu) => Happens m m') keys 0
    maxEntries Reached where
  stays _ _ _ happens reached := reached.tail happens
  grows _ _ _ happens _ := happens.keys
  nodup m _ := m.listed.nodup_iff.mpr (AList.keys_nodup _)
  within m _ := m.listed.length_eq.trans_le m.stats.within
  fresh m reached member :=
    Int32.lt_irrefl (reached.positive.2 0 (m.mem_keys_iff.mp member))

/-- **Every run of the programs** for interfaces with positive indices is one of the traffic. -/
theorem exists_happens {m : Traffic Cpu} {c : Configuration (IfStats Cpu) (Execution Cpu)}
    (step : Interleaved (fun e => Starts e ∧ 0 < e.ifindex) exec (m.stats, m.executions) c) :
    ∃ m', Happens m m' ∧ (m'.stats, m'.executions) = c := by
  generalize same : (m.stats, m.executions) = start at step
  cases step with
  | spawn starts =>
      cases same
      exact ⟨_, .arrive starts.1 starts.2, rfl⟩
  | @advance _ s' before after e e' runs =>
      obtain ⟨rfl, running⟩ := Prod.mk.inj same
      have keys : ∃ keys : List Int32, m.keys.Sublist keys ∧ keys.Perm s'.slots.keys := by
        have keeps := (exec_spec runs).1.keeps
        by_cases new : s'.Has e.ifindex ∧ ¬ m.stats.Has e.ifindex
        · have absent : e.ifindex ∉ m.keys := fun member => new.2 (m.mem_keys_iff.mp member)
          refine ⟨e.ifindex :: m.keys, List.sublist_cons_self _ _, ?_⟩
          refine (List.perm_ext_iff_of_nodup (List.nodup_cons.mpr ⟨absent,
            m.listed.nodup_iff.mpr (AList.keys_nodup _)⟩) (AList.keys_nodup _)).mpr fun k => ?_
          rw [List.mem_cons, m.mem_keys_iff]
          constructor
          · rintro (rfl | old)
            · exact new.1
            · exact keeps k old
          · exact fun has => (has_exec runs has).symm
        · refine ⟨m.keys, List.Sublist.refl _, ?_⟩
          refine (List.perm_ext_iff_of_nodup (m.listed.nodup_iff.mpr (AList.keys_nodup _))
            (AList.keys_nodup _)).mpr fun k => ?_
          rw [m.mem_keys_iff]
          refine ⟨keeps k, fun has => ?_⟩
          rcases has_exec runs has with old | rfl
          · exact old
          · by_contra missing
            exact new ⟨has, missing⟩
      obtain ⟨keys, inserted, listed⟩ := keys
      exact ⟨⟨s', keys, before ++ e' :: after, listed⟩, .advance running runs rfl inserted, rfl⟩

theorem exists_happened {m : Traffic Cpu} {c : Configuration (IfStats Cpu) (Execution Cpu)}
    (steps : Steps (fun e => Starts e ∧ 0 < e.ifindex) exec (m.stats, m.executions) c) :
    ∃ m', Happened m m' ∧ (m'.stats, m'.executions) = c := by
  induction steps with
  | refl => exact ⟨m, .refl, rfl⟩
  | tail _ last ih =>
      obtain ⟨m₁, happened, rfl⟩ := ih
      obtain ⟨m₂, happens, same⟩ := exists_happens last
      exact ⟨m₂, happened.tail happens, same⟩

end Traffic

/-! ## What has been counted -/

section Counted

variable {Cpu : Type}

/-- What an execution has added to a counter, as a number. -/
def Execution.amount (f : Field) (e : Execution Cpu) : ℕ :=
  (if bytesField e.direction = f ∧ (e.pc = .addPackets ∨ e.pc = .counted) then e.len.toNat
    else 0) + if packetsField e.direction = f ∧ e.pc = .counted then 1 else 0

theorem reads_counted (f : Field) (e : Execution Cpu) :
    ReadsResidue (e.counted f) (e.amount f) := by
  have len : ReadsResidue e.len.toUInt64 e.len.toNat := by
    have small := e.len.toNat_lt
    rw [ReadsResidue, UInt32.toNat_toUInt64, Nat.mod_eq_of_lt (by omega)]
  have one : ReadsResidue 1 1 := rfl
  unfold Execution.counted Execution.amount
  apply ReadsResidue.add
  · split
    · exact len
    · exact .zero
  · split
    · exact one
    · exact .zero

variable [DecidableEq Cpu]

/-- An operation adds to what its execution has counted. -/
theorem amount_le {s s' : IfStats Cpu} {e e' : Execution Cpu} (runs : exec s e = some (s', e'))
    (f : Field) : e.amount f ≤ e'.amount f := by
  unfold exec at runs
  cases pc : e.pc <;> simp only [pc] at runs
  case lookup => cases runs; simp [Execution.amount, pc]
  case update => cases runs; simp [Execution.amount, pc]
  case lookupAgain => cases runs; simp [Execution.amount, pc]
  case addBytes =>
    obtain ⟨_, _, same⟩ := Option.map_eq_some_iff.mp runs
    cases same
    simp [Execution.amount, pc]
  case addPackets =>
    obtain ⟨_, _, same⟩ := Option.map_eq_some_iff.mp runs
    cases same
    simp [Execution.amount, pc]
  case counted => cases runs
  case dropped => cases runs

namespace Traffic

/-- What the executions on a CPU have counted for an interface. -/
def onCpu (m : Traffic Cpu) (ifindex : Int32) (f : Field) (cpu : Cpu) : ℕ :=
  (m.executions.map fun e =>
    if ifindex = e.ifindex ∧ cpu = e.cpu then e.amount f else 0).sum

/-- What the executions have counted for an interface. -/
def counted (m : Traffic Cpu) (ifindex : Int32) (f : Field) : ℕ :=
  (m.executions.map fun e => if ifindex = e.ifindex then e.amount f else 0).sum

/-- **A counter reads what the executions on its CPU have counted.** -/
theorem reads_counter {m : Traffic Cpu} (reached : m.Reached) (ifindex : Int32) (f : Field)
    (cpu : Cpu) :
    ReadsResidue (m.stats.counter ifindex cpu f) (m.onCpu ifindex f cpu) := by
  have balanced := reached.reachable.ledger (fun s => s.counter ifindex cpu f)
    (fun e => if ifindex = e.ifindex ∧ cpu = e.cpu then e.counted f else 0)
    (by
      rintro e (begins | begins) <;> rw [begins] <;>
        simp [Execution.counted, onIngress, onEgress])
    (fun s e s' e' runs => by
      obtain ⟨pc, same⟩ := (exec_spec runs).2.1
      have moved := (exec_spec runs).2.2 ifindex cpu f
      rw [same] at moved ⊢
      exact moved)
  have start : (IfStats.empty : IfStats Cpu).counter ifindex cpu f = 0 := rfl
  have holds : m.stats.counter ifindex cpu f = (m.executions.map fun e =>
      if ifindex = e.ifindex ∧ cpu = e.cpu then e.counted f else 0).sum := by
    simpa [start] using balanced
  rw [holds, onCpu]
  apply readsResidue_sum
  intro e _
  split
  · exact reads_counted f e
  · exact .zero

/-- What events add to a sum over the executions. -/
theorem Happens.sum_le {m m' : Traffic Cpu} (happens : Happens m m') (f : Field)
    (mine : Int32 → Cpu → Prop) [∀ ifindex cpu, Decidable (mine ifindex cpu)] :
    (m.executions.map fun e => if mine e.ifindex e.cpu then e.amount f else 0).sum ≤
      (m'.executions.map fun e => if mine e.ifindex e.cpu then e.amount f else 0).sum := by
  cases happens with
  | arrive _ _ => simp
  | advance running runs next _ =>
      obtain ⟨pc, same⟩ := (exec_spec runs).2.1
      have more := amount_le runs f
      rw [running, next, same]
      rw [same] at more
      simp only [List.map_append, List.map_cons, List.sum_append, List.sum_cons]
      split <;> omega

theorem onCpu_mono {m m' : Traffic Cpu} (happened : Happened m m') (ifindex : Int32) (f : Field)
    (cpu : Cpu) : m.onCpu ifindex f cpu ≤ m'.onCpu ifindex f cpu := by
  induction happened with
  | refl => exact le_rfl
  | tail _ last ih =>
      exact ih.trans (last.sum_le f fun ifindex' cpu' => ifindex = ifindex' ∧ cpu = cpu')

theorem counted_mono {m m' : Traffic Cpu} (happened : Happened m m') (ifindex : Int32)
    (f : Field) : m.counted ifindex f ≤ m'.counted ifindex f := by
  induction happened with
  | refl => exact le_rfl
  | tail _ last ih => exact ih.trans (last.sum_le f fun ifindex' _ => ifindex = ifindex')

end Traffic

end Counted

/-! ## The copies -/

/-- The CPUs that a slot is copied for, each once. -/
structure PossibleCpus (Cpu : Type) where
  cpus : List Cpu
  nodup : cpus.Nodup
  complete : ∀ cpu, cpu ∈ cpus

section Copies

variable {Cpu : Type} [DecidableEq Cpu]

/-- A number that stands at one CPU only. -/
theorem sum_at_cpu (possible : PossibleCpus Cpu) (cpu : Cpu) (n : ℕ) :
    (possible.cpus.map fun c => if c = cpu then n else 0).sum = n := by
  have once := List.count_eq_one_of_mem possible.nodup (possible.complete cpu)
  rw [List.sum_map_eq_nsmul_single cpu _ fun c other _ => if_neg other, once, one_nsmul,
    if_pos rfl]

/-- What is counted for an interface is counted on some CPU. -/
theorem sum_onCpu (possible : PossibleCpus Cpu) (m : Traffic Cpu) (ifindex : Int32) (f : Field) :
    (possible.cpus.map (m.onCpu ifindex f)).sum = m.counted ifindex f := by
  unfold Traffic.counted
  have swap : ∀ executions : List (Execution Cpu),
      (possible.cpus.map fun cpu => (executions.map fun e =>
        if ifindex = e.ifindex ∧ cpu = e.cpu then e.amount f else 0).sum).sum =
      (executions.map fun e => if ifindex = e.ifindex then e.amount f else 0).sum := by
    intro executions
    induction executions with
    | nil => simp
    | cons e executions ih =>
        simp only [List.map_cons, List.sum_cons, List.sum_map_add]
        rw [ih]
        congr 1
        by_cases mine : ifindex = e.ifindex
        · simpa [mine] using sum_at_cpu possible e.cpu (e.amount f)
        · simp [mine]
  exact swap m.executions

/-- The slot of one CPU is copied word by word. -/
def copySlot (ifindex : Int32) (cpu : Cpu) : Loads (Traffic Cpu) Unit IfCounters := do
  let rcvBytes ← Loads.read (fun m => m.stats.counter ifindex cpu .rcvBytes) ()
  let rcvPackets ← Loads.read (fun m => m.stats.counter ifindex cpu .rcvPackets) ()
  let sndBytes ← Loads.read (fun m => m.stats.counter ifindex cpu .sndBytes) ()
  let sndPackets ← Loads.read (fun m => m.stats.counter ifindex cpu .sndPackets) ()
  return ⟨rcvBytes, rcvPackets, sndBytes, sndPackets⟩

def copySlots (ifindex : Int32) : List Cpu → Loads (Traffic Cpu) Unit (List IfCounters)
  | [] => pure []
  | cpu :: cpus => do
      let slot ← copySlot ifindex cpu
      let slots ← copySlots ifindex cpus
      return slot :: slots

/-- `bpf_map_lookup_elem(map_fd, &ifindex, values)` -/
def lookupElem (possible : PossibleCpus Cpu) (ifindex : Int32) :
    Loads (Traffic Cpu) Unit (Option (List IfCounters)) := do
  if ← Loads.read (fun m => decide (m.stats.Has ifindex)) () then do
    let slots ← copySlots ifindex possible.cpus
    return some slots
  else return none

/-- The reading is the residue of a number between the two. -/
def ReadsBetween (low high : ℕ) (reading : UInt64) : Prop :=
  ∃ n, ReadsResidue reading n ∧ low ≤ n ∧ n ≤ high

variable {m : Traffic Cpu} (ifindex : Int32)

theorem copySlot_meets (reached : m.Reached) (cpu : Cpu) :
    Loads.Meets (fun _ => Traffic.Happens)
      (fun _ m' slot => ∀ f, ReadsBetween (m.onCpu ifindex f cpu) (m'.onCpu ifindex f cpu)
        (slot.get f))
      (copySlot ifindex cpu) () m := by
  refine Loads.Meets.read_bind fun m₁ later₁ => ?_
  refine Loads.Meets.read_bind fun m₂ later₂ => ?_
  refine Loads.Meets.read_bind fun m₃ later₃ => ?_
  refine Loads.Meets.read_bind fun m₄ later₄ => ?_
  refine Loads.Meets.pure fun m' later => ?_
  have to₂ := later₁.trans later₂
  have to₃ := to₂.trans later₃
  have to₄ := to₃.trans later₄
  have from₃ := later₄.trans later
  have from₂ := later₃.trans from₃
  have between : ∀ {mid : Traffic Cpu} (f : Field), Traffic.Happened m mid →
      Traffic.Happened mid m' → ReadsBetween (m.onCpu ifindex f cpu) (m'.onCpu ifindex f cpu)
        (mid.stats.counter ifindex cpu f) := by
    intro mid f before after
    exact ⟨_, Traffic.reads_counter (reached.trans before) ifindex f cpu,
      Traffic.onCpu_mono before ifindex f cpu, Traffic.onCpu_mono after ifindex f cpu⟩
  intro f
  cases f with
  | rcvBytes => exact between .rcvBytes later₁ (later₂.trans from₂)
  | rcvPackets => exact between .rcvPackets to₂ from₂
  | sndBytes => exact between .sndBytes to₃ from₃
  | sndPackets => exact between .sndPackets to₄ later

theorem copySlots_meets (reached : m.Reached) (cpus : List Cpu) :
    Loads.Meets (fun _ => Traffic.Happens)
      (fun _ m' slots => ∀ f, ReadsBetween (cpus.map (m.onCpu ifindex f)).sum
        (cpus.map (m'.onCpu ifindex f)).sum (slots.map fun slot => slot.get f).sum)
      (copySlots ifindex cpus) () m := by
  induction cpus generalizing m with
  | nil => exact Loads.Meets.pure fun m' _ f => ⟨0, .zero, le_rfl, le_rfl⟩
  | cons cpu cpus ih =>
      have first := (copySlot_meets ifindex reached cpu).keeps (Traffic.Happened m)
        (fun _ _ _ happens happened => happened.tail happens) .refl
      refine Loads.Meets.bind (first.mono fun _ m₁ slot read => ?_)
      obtain ⟨happened, slotRead⟩ := read
      have rest := (ih (reached.trans happened)).keeps (Traffic.Happened m₁)
        (fun _ _ _ happens happened => happened.tail happens) .refl
      refine Loads.Meets.bind (rest.mono fun _ m₂ slots restRead => ?_)
      refine Loads.Meets.pure fun m' later f => ?_
      obtain ⟨between, slotsRead⟩ := restRead
      obtain ⟨n, reads, low, high⟩ := slotRead f
      obtain ⟨k, readsRest, lowRest, highRest⟩ := slotsRead f
      have mono : ∀ {a b : Traffic Cpu}, Traffic.Happened a b →
          (cpus.map (a.onCpu ifindex f)).sum ≤ (cpus.map (b.onCpu ifindex f)).sum :=
        fun happened => List.sum_le_sum fun cpu _ => Traffic.onCpu_mono happened ifindex f cpu
      have slotLater := Traffic.onCpu_mono (between.trans later) ifindex f cpu
      have restEarlier := mono happened
      have restLater := mono later
      refine ⟨n + k, reads.add readsRest, ?_, ?_⟩
      · rw [List.map_cons, List.sum_cons]
        omega
      · rw [List.map_cons, List.sum_cons]
        omega

/-- **A lookup reads numbers between what had been counted and what has been counted.** -/
theorem lookupElem_meets (possible : PossibleCpus Cpu) (reached : m.Reached)
    (has : m.stats.Has ifindex) :
    Loads.Meets (fun _ => Traffic.Happens)
      (fun _ m' found => ∃ values, found = some values ∧ ∀ f,
        ReadsBetween (m.counted ifindex f) (m'.counted ifindex f)
          (values.map fun slot => slot.get f).sum)
      (lookupElem possible ifindex) () m := by
  refine Loads.Meets.read_bind fun m₁ later => ?_
  rw [if_pos (decide_eq_true (Traffic.has_later later has))]
  have copies := copySlots_meets ifindex (reached.trans later) possible.cpus
  refine Loads.Meets.bind (copies.mono fun _ m₂ slots read => ?_)
  refine Loads.Meets.pure fun m' further => ⟨slots, rfl, fun f => ?_⟩
  obtain ⟨n, reads, low, high⟩ := read f
  rw [sum_onCpu] at low high
  exact ⟨n, reads, (Traffic.counted_mono later ifindex f).trans low,
    high.trans (Traffic.counted_mono further ifindex f)⟩

end Copies

end LinuxMonitor.Bpf
