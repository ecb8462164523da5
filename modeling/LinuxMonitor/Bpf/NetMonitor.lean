import Mathlib.Data.List.AList
import Mathlib.Algebra.BigOperators.Group.Finset.Piecewise
import Mathlib.Data.UInt
import Mathlib.Data.Fintype.Basic
import LinuxMonitor.Library.Counter
import LinuxMonitor.Library.Interleaving

/-!
# The traffic counters of `net_monitor.bpf.c`

The programs `on_ingress` and `on_egress` run once for each packet, on any CPU and in
any interleaving, and count into a per-CPU hash map keyed by the interface index.
Each looks up its slot, creates the entry when there is none, looks again, and adds
the packet's length and one to two of the four counters of its CPU's slot.

The map holds at most 128 entries and never loses one.  An update with `BPF_NOEXIST`
creates an entry that is zero on every CPU, and does nothing when the key exists or
the map is full.

* `progress`: an execution that has not ended can always take its next operation.
* `total_eq_counted`: in every reachable configuration the counters of an interface,
  summed over the CPUs, are what its executions have added.
* `traffic_totals`: **when all executions have ended, the counters of every interface
  with an entry are the totals of its packets modulo `2 ^ 64`; an interface without an
  entry had packets only if the map is full; and entries once created stay.**
-/

set_option autoImplicit false

namespace LinuxMonitor.Bpf

open Library

/-! ## The map -/

/-- `struct if_counters` -/
structure IfCounters where
  rcvBytes : UInt64
  rcvPackets : UInt64
  sndBytes : UInt64
  sndPackets : UInt64
deriving DecidableEq, Repr

/-- The counters of `struct if_counters`. -/
inductive Field where
  | rcvBytes
  | rcvPackets
  | sndBytes
  | sndPackets
deriving DecidableEq, Repr

namespace IfCounters

/-- `struct if_counters zero = {}` -/
def zero : IfCounters := ⟨0, 0, 0, 0⟩

def get (c : IfCounters) : Field → UInt64
  | .rcvBytes => c.rcvBytes
  | .rcvPackets => c.rcvPackets
  | .sndBytes => c.sndBytes
  | .sndPackets => c.sndPackets

/-- `__sync_fetch_and_add(&c->field, amount)` -/
def add (c : IfCounters) (amount : UInt64) : Field → IfCounters
  | .rcvBytes => { c with rcvBytes := c.rcvBytes + amount }
  | .rcvPackets => { c with rcvPackets := c.rcvPackets + amount }
  | .sndBytes => { c with sndBytes := c.sndBytes + amount }
  | .sndPackets => { c with sndPackets := c.sndPackets + amount }

@[simp] theorem get_zero (f : Field) : zero.get f = 0 := by cases f <;> rfl

theorem get_add (c : IfCounters) (amount : UInt64) (f g : Field) :
    (c.add amount g).get f = c.get f + if f = g then amount else 0 := by
  cases f <;> cases g <;> simp [get, add]

end IfCounters

/-- `__uint(max_entries, 128)` -/
def maxEntries : ℕ := 128

/-- The map `if_stats`: for each interface index one slot on every CPU. -/
structure IfStats (Cpu : Type) where
  slots : AList (fun _ : Int32 => Cpu → IfCounters)
  within : slots.keys.length ≤ maxEntries

namespace IfStats

variable {Cpu : Type}

/-- The map when the program is loaded. -/
def empty : IfStats Cpu := ⟨∅, Nat.zero_le _⟩

/-- The interface has an entry: `bpf_map_lookup_elem` does not return null. -/
def Has (m : IfStats Cpu) (ifindex : Int32) : Prop := ifindex ∈ m.slots

instance (m : IfStats Cpu) (ifindex : Int32) : Decidable (m.Has ifindex) :=
  inferInstanceAs (Decidable (ifindex ∈ m.slots))

/-- As many interfaces have an entry as the map takes. -/
def Full (m : IfStats Cpu) : Prop := m.slots.keys.length = maxEntries

instance (m : IfStats Cpu) : Decidable m.Full :=
  inferInstanceAs (Decidable (m.slots.keys.length = maxEntries))

/-- `bpf_map_update_elem(&if_stats, &ifindex, &zero, BPF_NOEXIST)` -/
def updateNoexist (m : IfStats Cpu) (ifindex : Int32) : IfStats Cpu :=
  if absent : ¬ m.Has ifindex ∧ ¬ m.Full then
    { slots := m.slots.insert ifindex fun _ => .zero
      within := by
        have room : m.slots.keys.length < maxEntries := lt_of_le_of_ne m.within absent.2
        have missing : ifindex ∉ m.slots.keys := absent.1
        rw [AList.keys_insert, List.erase_of_not_mem missing]
        exact room }
  else m

/-- The value of one counter of an interface in one CPU's slot; an interface without an
entry counts nothing. -/
def counter (m : IfStats Cpu) (ifindex : Int32) (cpu : Cpu) (f : Field) : UInt64 :=
  match m.slots.lookup ifindex with
  | none => 0
  | some slot => (slot cpu).get f

/-- Creating an entry moves no counter. -/
theorem counter_updateNoexist (m : IfStats Cpu) (created ifindex : Int32) (cpu : Cpu)
    (f : Field) : (m.updateNoexist created).counter ifindex cpu f = m.counter ifindex cpu f := by
  unfold updateNoexist
  split
  · next absent =>
      by_cases same : ifindex = created
      · subst same
        have missing : m.slots.lookup ifindex = none :=
          AList.lookup_eq_none.mpr absent.1
        simp [counter, missing]
      · simp [counter, AList.lookup_insert_ne same]
  · rfl

theorem has_updateNoexist (m : IfStats Cpu) (created : Int32) :
    (m.updateNoexist created).Has created ∨ (m.updateNoexist created).Full := by
  unfold updateNoexist
  split
  · exact Or.inl (AList.mem_insert _ |>.mpr (Or.inl rfl))
  · next present =>
      by_cases member : m.Has created
      · exact Or.inl member
      · right
        by_contra room
        exact present ⟨member, room⟩

variable [DecidableEq Cpu]

/-- An atomic addition through the pointer to the executing CPU's slot. -/
def fetchAndAdd (m : IfStats Cpu) (ifindex : Int32) (cpu : Cpu) (f : Field) (amount : UInt64) :
    Option (IfStats Cpu) :=
  match found : m.slots.lookup ifindex with
  | none => none
  | some slot => some
      { slots := m.slots.insert ifindex
          (Function.update slot cpu ((slot cpu).add amount f))
        within := by
          have present : ifindex ∈ m.slots.keys :=
            AList.mem_keys.mp (AList.lookup_isSome.mp (by rw [found]; rfl))
          rw [AList.keys_insert, List.length_cons, List.length_erase_of_mem present,
            Nat.sub_add_cancel (List.length_pos_of_mem present)]
          exact m.within }

/-- An addition through the pointer finds the entry and moves one counter. -/
theorem fetchAndAdd_cases {m m' : IfStats Cpu} {ifindex : Int32} {cpu : Cpu} {f : Field}
    {amount : UInt64} (added : m.fetchAndAdd ifindex cpu f amount = some m') :
    (∀ other, m'.Has other ↔ m.Has other) ∧ (m'.Full ↔ m.Full) ∧
      ∀ other cpu' g, m'.counter other cpu' g = m.counter other cpu' g +
        if other = ifindex ∧ g = f ∧ cpu' = cpu then amount else 0 := by
  unfold fetchAndAdd at added
  split at added
  · cases added
  · next slot found =>
      cases added
      have present : ifindex ∈ m.slots :=
        AList.lookup_isSome.mp (by rw [found]; rfl)
      refine ⟨fun other => ?_, ?_, fun other cpu' g => ?_⟩
      · refine (AList.mem_insert _).trans ⟨?_, Or.inr⟩
        rintro (rfl | old)
        · exact present
        · exact old
      · have member : ifindex ∈ m.slots.keys := present
        simp only [Full, AList.keys_insert, List.length_cons]
        rw [List.length_erase_of_mem member,
          Nat.sub_add_cancel (List.length_pos_of_mem member)]
      · by_cases same : other = ifindex
        · subst same
          by_cases here : cpu' = cpu
          · subst here
            simp [counter, found, IfCounters.get_add]
          · simp [counter, found, here]
        · simp [counter, AList.lookup_insert_ne same, same]

/-- An addition succeeds on every interface with an entry. -/
theorem fetchAndAdd_isSome {m : IfStats Cpu} {ifindex : Int32} (has : m.Has ifindex)
    (cpu : Cpu) (f : Field) (amount : UInt64) :
    (m.fetchAndAdd ifindex cpu f amount).isSome := by
  unfold fetchAndAdd
  split
  · next missing => exact absurd has (AList.lookup_eq_none.mp missing)
  · rfl

end IfStats

/-! ## The programs -/

inductive Direction where
  | ingress
  | egress
deriving DecidableEq, Repr

/-- The counter that takes the packet's length. -/
def bytesField : Direction → Field
  | .ingress => .rcvBytes
  | .egress => .sndBytes

/-- The counter that takes one for the packet. -/
def packetsField : Direction → Field
  | .ingress => .rcvPackets
  | .egress => .sndPackets

/-- The next operation of an execution. -/
inductive Pc where
  | lookup
  | update
  | lookupAgain
  | addBytes
  | addPackets
  | counted
  | dropped
deriving DecidableEq, Repr

/-- An execution for one packet on one CPU. -/
structure Execution (Cpu : Type) where
  direction : Direction
  cpu : Cpu
  ifindex : Int32
  len : UInt32
  pc : Pc

/-- `on_ingress(skb)` at its start. -/
def onIngress {Cpu : Type} (cpu : Cpu) (ifindex : Int32) (len : UInt32) : Execution Cpu :=
  ⟨.ingress, cpu, ifindex, len, .lookup⟩

/-- `on_egress(skb)` at its start. -/
def onEgress {Cpu : Type} (cpu : Cpu) (ifindex : Int32) (len : UInt32) : Execution Cpu :=
  ⟨.egress, cpu, ifindex, len, .lookup⟩

/-- An execution that has not begun. -/
def Starts {Cpu : Type} (e : Execution Cpu) : Prop :=
  e = onIngress e.cpu e.ifindex e.len ∨ e = onEgress e.cpu e.ifindex e.len

/-- An execution that has returned. -/
def Execution.Ended {Cpu : Type} (e : Execution Cpu) : Prop := e.pc = .counted ∨ e.pc = .dropped

section Programs

variable {Cpu : Type} [DecidableEq Cpu]

/-- One atomic operation of `on_ingress` or `on_egress`, which differ in the counters
they add to. -/
def exec (m : IfStats Cpu) (e : Execution Cpu) : Option (IfStats Cpu × Execution Cpu) :=
  match e.pc with
  | .lookup => some (m, { e with pc := if m.Has e.ifindex then .addBytes else .update })
  | .update => some (m.updateNoexist e.ifindex, { e with pc := .lookupAgain })
  | .lookupAgain => some (m, { e with pc := if m.Has e.ifindex then .addBytes else .dropped })
  | .addBytes =>
      (m.fetchAndAdd e.ifindex e.cpu (bytesField e.direction) e.len.toUInt64).map
        fun m => (m, { e with pc := .addPackets })
  | .addPackets =>
      (m.fetchAndAdd e.ifindex e.cpu (packetsField e.direction) 1).map
        fun m => (m, { e with pc := .counted })
  | .counted => none
  | .dropped => none

/-- Runs of any number of executions, from the loaded program on. -/
abbrev Reachable (m : IfStats Cpu) (pool : List (Execution Cpu)) : Prop :=
  Steps Starts exec (IfStats.empty, []) (m, pool)

end Programs

/-! ## What one operation does -/

section Grows

variable {Cpu : Type}

/-- The map after an operation: entries stay, and a full map gets no new one. -/
structure Grows (m m' : IfStats Cpu) : Prop where
  keeps : ∀ ifindex, m.Has ifindex → m'.Has ifindex
  full : m.Full → m'.Full
  frozen : m.Full → ∀ ifindex, m'.Has ifindex → m.Has ifindex

theorem Grows.refl (m : IfStats Cpu) : Grows m m := ⟨fun _ => id, id, fun _ _ => id⟩

theorem Grows.trans {m m' m'' : IfStats Cpu} (first : Grows m m') (second : Grows m' m'') :
    Grows m m'' where
  keeps ifindex has := second.keeps ifindex (first.keeps ifindex has)
  full isFull := second.full (first.full isFull)
  frozen isFull ifindex has :=
    first.frozen isFull ifindex (second.frozen (first.full isFull) ifindex has)

theorem grows_updateNoexist (m : IfStats Cpu) (ifindex : Int32) :
    Grows m (m.updateNoexist ifindex) := by
  unfold IfStats.updateNoexist
  split
  · next absent =>
      exact ⟨fun _ has => (AList.mem_insert _).mpr (Or.inr has),
        fun isFull => absurd isFull absent.2, fun isFull => absurd isFull absent.2⟩
  · exact Grows.refl m

theorem grows_fetchAndAdd [DecidableEq Cpu] {m m' : IfStats Cpu} {ifindex : Int32} {cpu : Cpu}
    {f : Field} {amount : UInt64} (added : m.fetchAndAdd ifindex cpu f amount = some m') :
    Grows m m' := by
  obtain ⟨has, full, _⟩ := IfStats.fetchAndAdd_cases added
  exact ⟨fun other => (has other).mpr, full.mpr, fun _ other => (has other).mp⟩

/-- What an execution relies on at each of its points. -/
def Execution.Knows (m : IfStats Cpu) (e : Execution Cpu) : Prop :=
  match e.pc with
  | .lookup => True
  | .update => True
  | .lookupAgain => m.Has e.ifindex ∨ m.Full
  | .addBytes => m.Has e.ifindex
  | .addPackets => m.Has e.ifindex
  | .counted => m.Has e.ifindex
  | .dropped => ¬ m.Has e.ifindex ∧ m.Full

theorem Grows.knows {m m' : IfStats Cpu} (grows : Grows m m') {e : Execution Cpu}
    (knows : e.Knows m) : e.Knows m' := by
  unfold Execution.Knows at knows ⊢
  cases pc : e.pc <;> simp only [pc] at knows ⊢
  case lookupAgain => exact knows.imp (grows.keeps _) grows.full
  case addBytes => exact grows.keeps _ knows
  case addPackets => exact grows.keeps _ knows
  case counted => exact grows.keeps _ knows
  case dropped =>
    exact ⟨fun has => knows.1 (grows.frozen knows.2 _ has), grows.full knows.2⟩

end Grows

section Shares

variable {Cpu : Type}

/-- What an execution has added to a counter. -/
def Execution.counted (f : Field) (e : Execution Cpu) : UInt64 :=
  (if bytesField e.direction = f ∧ (e.pc = .addPackets ∨ e.pc = .counted)
    then e.len.toUInt64 else 0) +
  (if packetsField e.direction = f ∧ e.pc = .counted then 1 else 0)

/-- What an execution has added to a counter of an interface. -/
def Execution.share (ifindex : Int32) (f : Field) (e : Execution Cpu) : UInt64 :=
  if ifindex = e.ifindex then e.counted f else 0

/-- The packets of an interface in one direction. -/
def packets (direction : Direction) (ifindex : Int32) (pool : List (Execution Cpu)) :
    List (Execution Cpu) :=
  pool.filter fun e => decide (e.direction = direction ∧ e.ifindex = ifindex)

/-- Executions that have all counted have put in the lengths and the number of the
packets. -/
theorem sum_shares_of_counted {pool : List (Execution Cpu)} {ifindex : Int32}
    (counted : ∀ e ∈ pool, e.ifindex = ifindex → e.pc = .counted) (direction : Direction) :
    (pool.map (Execution.share ifindex (bytesField direction))).sum =
        ((packets direction ifindex pool).map fun e => e.len.toUInt64).sum ∧
      (pool.map (Execution.share ifindex (packetsField direction))).sum =
        ((packets direction ifindex pool).map fun _ => 1).sum := by
  induction pool with
  | nil => exact ⟨rfl, rfl⟩
  | cons e pool ih =>
      obtain ⟨bytes, number⟩ :=
        ih fun later member => counted later (List.mem_cons_of_mem _ member)
      rw [List.map_cons, List.sum_cons, bytes, List.map_cons, List.sum_cons, number]
      by_cases mine : e.ifindex = ifindex
      · have done := counted e List.mem_cons_self mine
        cases same : e.direction <;> cases direction <;>
          simp [Execution.share, Execution.counted, mine, done, same, bytesField, packetsField,
            packets]
      · simp [Execution.share, packets, mine, Ne.symm mine]

variable [Fintype Cpu]

/-- A counter of an interface, summed over the CPUs. -/
def IfStats.total (m : IfStats Cpu) (ifindex : Int32) (f : Field) : UInt64 :=
  ∑ cpu, m.counter ifindex cpu f

/-- The counters summed over the CPUs as natural numbers have the total as residue. -/
theorem total_modEq (m : IfStats Cpu) (ifindex : Int32) (f : Field) :
    ∑ cpu, (m.counter ifindex cpu f).toNat ≡ (m.total ifindex f).toNat [MOD 2 ^ 64] :=
  (toNat_finsetSum_modEq _ _).symm

end Shares

section Programs

variable {Cpu : Type} [DecidableEq Cpu]

/-- An addition moves a counter by what the execution it belongs to gains there. -/
theorem counter_balance {m m' : IfStats Cpu} {i : Int32} {cpu : Cpu} {g : Field}
    {amount : UInt64} (added : m.fetchAndAdd i cpu g amount = some m')
    {before after : Field → UInt64}
    (gain : ∀ f, after f = before f + if f = g then amount else 0)
    (ifindex : Int32) (cpu' : Cpu) (f : Field) :
    m'.counter ifindex cpu' f + (if ifindex = i ∧ cpu' = cpu then before f else 0) =
      m.counter ifindex cpu' f + (if ifindex = i ∧ cpu' = cpu then after f else 0) := by
  rw [(IfStats.fetchAndAdd_cases added).2.2]
  by_cases mine : ifindex = i ∧ cpu' = cpu
  · rw [if_pos mine, if_pos mine, gain, add_assoc, add_comm (before f)]
    simp [mine]
  · have theirs : ¬ (ifindex = i ∧ f = g ∧ cpu' = cpu) := fun both => mine ⟨both.1, both.2.2⟩
    rw [if_neg mine, if_neg theirs, if_neg mine, add_zero]

/-- An operation advances its execution alone; the map grows, and each counter moves by
what the execution adds to it. -/
theorem exec_spec {m m' : IfStats Cpu} {e e' : Execution Cpu} (runs : exec m e = some (m', e')) :
    Grows m m' ∧ (∃ pc, e' = { e with pc }) ∧
      ∀ ifindex cpu f, m'.counter ifindex cpu f +
          (if ifindex = e.ifindex ∧ cpu = e.cpu then e.counted f else 0) =
        m.counter ifindex cpu f +
          (if ifindex = e.ifindex ∧ cpu = e.cpu then e'.counted f else 0) := by
  unfold exec at runs
  split at runs
  case h_1 pc =>
    cases runs
    refine ⟨Grows.refl _, ⟨_, rfl⟩, fun ifindex cpu f => ?_⟩
    by_cases has : m.Has e.ifindex <;> simp [Execution.counted, pc, has]
  case h_2 pc =>
    cases runs
    refine ⟨grows_updateNoexist _ _, ⟨_, rfl⟩, fun ifindex cpu f => ?_⟩
    simp [Execution.counted, pc, IfStats.counter_updateNoexist]
  case h_3 pc =>
    cases runs
    refine ⟨Grows.refl _, ⟨_, rfl⟩, fun ifindex cpu f => ?_⟩
    by_cases has : m.Has e.ifindex <;> simp [Execution.counted, pc, has]
  case h_4 pc =>
    obtain ⟨_, added, same⟩ := Option.map_eq_some_iff.mp runs
    cases same
    refine ⟨grows_fetchAndAdd added, ⟨_, rfl⟩, counter_balance added fun f => ?_⟩
    simp [Execution.counted, pc, eq_comm]
  case h_5 pc =>
    obtain ⟨_, added, same⟩ := Option.map_eq_some_iff.mp runs
    cases same
    refine ⟨grows_fetchAndAdd added, ⟨_, rfl⟩, counter_balance added fun f => ?_⟩
    simp [Execution.counted, pc, eq_comm]
  case h_6 => cases runs
  case h_7 => cases runs

/-- An operation keeps what its own execution relies on. -/
theorem exec_knows {m m' : IfStats Cpu} {e e' : Execution Cpu}
    (runs : exec m e = some (m', e')) (knows : e.Knows m) : e'.Knows m' := by
  have grows := (exec_spec runs).1
  unfold exec at runs
  split at runs
  case h_1 pc =>
    cases runs
    by_cases has : m.Has e.ifindex <;> simp [Execution.Knows, has]
  case h_2 pc =>
    cases runs
    exact m.has_updateNoexist e.ifindex
  case h_3 pc =>
    cases runs
    simp only [Execution.Knows, pc] at knows
    by_cases has : m.Has e.ifindex
    · simp [Execution.Knows, has]
    · simpa [Execution.Knows, has] using knows
  case h_4 pc =>
    obtain ⟨_, _, same⟩ := Option.map_eq_some_iff.mp runs
    cases same
    simp only [Execution.Knows, pc] at knows
    exact grows.keeps _ knows
  case h_5 pc =>
    obtain ⟨_, _, same⟩ := Option.map_eq_some_iff.mp runs
    cases same
    simp only [Execution.Knows, pc] at knows
    exact grows.keeps _ knows
  case h_6 => cases runs
  case h_7 => cases runs

/-- An execution that knows what it relies on and has not ended can take its next
operation. -/
theorem progress {m : IfStats Cpu} {e : Execution Cpu} (knows : e.Knows m)
    (running : ¬ e.Ended) : (exec m e).isSome := by
  unfold Execution.Knows at knows
  unfold exec
  cases pc : e.pc <;> simp only [pc] at knows ⊢
  case lookup => rfl
  case update => rfl
  case lookupAgain => rfl
  case addBytes => simpa using IfStats.fetchAndAdd_isSome knows _ _ _
  case addPackets => simpa using IfStats.fetchAndAdd_isSome knows _ _ _
  case counted => exact absurd (Or.inl pc) running
  case dropped => exact absurd (Or.inr pc) running

/-! ## Runs -/

/-- **Every execution of a run knows what it relies on.** -/
theorem Reachable.knows {m : IfStats Cpu} {pool : List (Execution Cpu)}
    (reached : Reachable m pool) : ∀ e ∈ pool, e.Knows m := by
  refine reached.forall_local (fun m e => e.Knows m) ?_ ?_ ?_ (by simp)
  · rintro m e (begins | begins) <;> rw [begins] <;> exact trivial
  · exact fun _ _ _ _ runs => exec_knows runs
  · exact fun _ _ _ _ runs _ => (exec_spec runs).1.knows

theorem grows_of_steps {m m' : IfStats Cpu} {pool pool' : List (Execution Cpu)}
    (steps : Steps Starts exec (m, pool) (m', pool')) : Grows m m' :=
  steps.stable (Grows m) (fun _ _ _ _ runs grown => grown.trans (exec_spec runs).1)
    (Grows.refl m)

/-- In a full map an execution for an interface without an entry changes nothing. -/
theorem exec_of_full {m m' : IfStats Cpu} {e e' : Execution Cpu} (knows : e.Knows m)
    (full : m.Full) (missing : ¬ m.Has e.ifindex) (runs : exec m e = some (m', e')) : m' = m := by
  unfold Execution.Knows at knows
  unfold exec at runs
  cases pc : e.pc <;> simp only [pc] at knows runs
  case lookup => cases runs; rfl
  case update =>
    cases runs
    exact dif_neg fun absent => absent.2 full
  case lookupAgain => cases runs; rfl
  case addBytes => exact absurd knows missing
  case addPackets => exact absurd knows missing
  case counted => cases runs
  case dropped => cases runs

variable [Fintype Cpu]

theorem total_exec {m m' : IfStats Cpu} {e e' : Execution Cpu} (runs : exec m e = some (m', e'))
    (ifindex : Int32) (f : Field) :
    m'.total ifindex f + e.share ifindex f = m.total ifindex f + e'.share ifindex f := by
  obtain ⟨_, ⟨pc, rfl⟩, moved⟩ := exec_spec runs
  have summed := Finset.sum_congr (rfl : Finset.univ = Finset.univ)
    fun cpu (_ : cpu ∈ Finset.univ) => moved ifindex cpu f
  rw [Finset.sum_add_distrib, Finset.sum_add_distrib] at summed
  by_cases same : ifindex = e.ifindex
  · simpa [IfStats.total, Execution.share, same] using summed
  · simpa [IfStats.total, Execution.share, same] using summed

/-- **The counters hold what the executions have added.** -/
theorem total_eq_counted {m : IfStats Cpu} {pool : List (Execution Cpu)}
    (reached : Reachable m pool) (ifindex : Int32) (f : Field) :
    m.total ifindex f = (pool.map (Execution.share ifindex f)).sum := by
  have balanced := reached.ledger (fun m => m.total ifindex f) (Execution.share ifindex f)
    (by
      rintro e (begins | begins) <;> rw [begins] <;>
        simp [Execution.share, Execution.counted, onIngress, onEgress])
    (fun _ _ _ _ runs => total_exec runs ifindex f)
  simpa [IfStats.total, IfStats.counter, IfStats.empty] using balanced

theorem totals_of_ended {m : IfStats Cpu} {pool : List (Execution Cpu)}
    (reached : Reachable m pool) (ended : ∀ e ∈ pool, e.Ended) {ifindex : Int32}
    (has : m.Has ifindex) (direction : Direction) :
    ∑ cpu, (m.counter ifindex cpu (bytesField direction)).toNat ≡
        ((packets direction ifindex pool).map fun e => e.len.toNat).sum [MOD 2 ^ 64] ∧
      ∑ cpu, (m.counter ifindex cpu (packetsField direction)).toNat ≡
        (packets direction ifindex pool).length [MOD 2 ^ 64] := by
  have counted : ∀ e ∈ pool, e.ifindex = ifindex → e.pc = .counted := by
    intro e member same
    rcases ended e member with done | gone
    · exact done
    · have knows := reached.knows e member
      simp only [Execution.Knows, gone, same] at knows
      exact absurd has knows.1
  obtain ⟨bytes, number⟩ := sum_shares_of_counted counted direction
  refine ⟨(total_modEq _ _ _).trans ?_, (total_modEq _ _ _).trans ?_⟩
  · rw [total_eq_counted reached, bytes]
    simpa [Function.comp_def] using
      toNat_listSum_modEq ((packets direction ifindex pool).map fun e => e.len.toUInt64)
  · rw [total_eq_counted reached, number]
    simpa [Function.comp_def] using
      toNat_listSum_modEq ((packets direction ifindex pool).map fun _ => 1)

/-- **The map counts the traffic.**  Take any run of the programs whose executions have
all ended, and any configuration it passed through.  Every interface with an entry has
the bytes and the packets of its executions, summed over the CPUs and modulo `2 ^ 64`.
An execution that met no entry was for one interface too many: the map is full, and the
interface has counted nothing.  No entry that was there has gone, and from a full map on
the interfaces with an entry stay the same and executions for the others leave the map as
it is. -/
theorem traffic_totals {m m' : IfStats Cpu} {pool pool' : List (Execution Cpu)}
    (reached : Reachable m pool) (later : Steps Starts exec (m, pool) (m', pool'))
    (ended : ∀ e ∈ pool', e.Ended) :
    (∀ ifindex, m'.Has ifindex → ∀ direction,
      ∑ cpu, (m'.counter ifindex cpu (bytesField direction)).toNat ≡
          ((packets direction ifindex pool').map fun e => e.len.toNat).sum [MOD 2 ^ 64] ∧
        ∑ cpu, (m'.counter ifindex cpu (packetsField direction)).toNat ≡
          (packets direction ifindex pool').length [MOD 2 ^ 64]) ∧
    (∀ e ∈ pool', ¬ m'.Has e.ifindex → m'.Full ∧ ∀ cpu f, m'.counter e.ifindex cpu f = 0) ∧
    (∀ ifindex, m.Has ifindex → m'.Has ifindex) ∧
    (m.Full → (∀ ifindex, m'.Has ifindex ↔ m.Has ifindex) ∧
      ∀ e ∈ pool, ¬ m.Has e.ifindex → ∀ next e', exec m e = some (next, e') → next = m) := by
  have grows := grows_of_steps later
  have reached' : Reachable m' pool' := reached.trans later
  refine ⟨fun ifindex has => totals_of_ended reached' ended has, ?_, grows.keeps, ?_⟩
  · intro e member missing
    constructor
    · have knows := reached'.knows e member
      rcases ended e member with done | gone
      · simp only [Execution.Knows, done] at knows
        exact absurd knows missing
      · simp only [Execution.Knows, gone] at knows
        exact knows.2
    · intro cpu f
      have none := AList.lookup_eq_none.mpr missing
      simp [IfStats.counter, none]
  · intro full
    refine ⟨fun ifindex => ⟨grows.frozen full ifindex, grows.keeps ifindex⟩, ?_⟩
    exact fun e member missing _ _ runs => exec_of_full (reached.knows e member) full missing runs

end Programs

/-! ## An ingress execution inside an egress execution -/

/-- A packet leaves on CPU 0; after the first lookup a packet for the same interface comes
in on that CPU and is counted before the first one goes on. -/
def nestedMoves : List (Move (Execution (Fin 2))) :=
  [.spawn (onEgress 0 2 1500), .advance 0, .spawn (onIngress 0 2 60)] ++
    List.replicate 5 (.advance 1) ++ List.replicate 4 (.advance 0)

/-- The configuration after `nestedMoves`. -/
def nestedEnd : Configuration (IfStats (Fin 2)) (Execution (Fin 2)) :=
  (play exec nestedMoves (IfStats.empty, [])).getD (IfStats.empty, [])

theorem traffic_totals_nested :
    Reachable nestedEnd.1 nestedEnd.2 ∧ (∀ e ∈ nestedEnd.2, e.Ended) ∧ nestedEnd.1.Has 2 ∧
      ∑ cpu, (nestedEnd.1.counter 2 cpu .sndBytes).toNat ≡ 1500 [MOD 2 ^ 64] ∧
      ∑ cpu, (nestedEnd.1.counter 2 cpu .rcvBytes).toNat ≡ 60 [MOD 2 ^ 64] := by
  have played : play exec nestedMoves (IfStats.empty, []) = some nestedEnd := by rfl
  have starts : ∀ e, Move.spawn e ∈ nestedMoves → Starts e := by
    intro e member
    simp [nestedMoves] at member
    rcases member with rfl | rfl
    · exact Or.inr rfl
    · exact Or.inl rfl
  have reached : Reachable nestedEnd.1 nestedEnd.2 := Steps.of_play starts played
  have ended : ∀ e ∈ nestedEnd.2, e.Ended := by
    have pcs : nestedEnd.2.map Execution.pc = [.counted, .counted] := by rfl
    intro e member
    have inside : e.pc ∈ nestedEnd.2.map Execution.pc := List.mem_map_of_mem member
    rw [pcs] at inside
    simp at inside
    exact Or.inl inside
  have has : nestedEnd.1.Has 2 := by decide
  have totals := (traffic_totals reached .refl ended).1 2 has
  exact ⟨reached, ended, has, (totals .egress).1, (totals .ingress).1⟩

end LinuxMonitor.Bpf
