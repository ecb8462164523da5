import LinuxMonitor.Monitor.NetLifetime

/-!
# The hooks of a `NetMonitor`

Setting an interface up creates two hooks and attaches two programs.  When one of the four
calls fails the body of the loop undoes what came before, but the flags that the destructor
reads stay as they are.  When the constructor throws nothing is undone.

* `callsOf_forInterfaces`: the calls for one interface are those of one turn of the loop.
* `paired_thrown_iff`, `paired_kept_iff`: one interface, without and with the destructor.
* `hooksPaired_of_early`, `hooksPaired_thrown_iff`, `hooksPaired_complete_iff`: the ways in
  which a constructor ends.
* `hooksPaired_iff`: **every created hook is destroyed once, no other hook is destroyed, and
  every attached program is detached once, exactly when no interface is rolled back by a
  constructor that returns, and none is attached by one that throws.**
-/

set_option autoImplicit false

namespace LinuxMonitor.Monitor.NetMonitor

open Bpf

/-! ## Pairing -/

/-- The calls for the `i`-th interface. -/
def callsOf (i : ℕ) (events : List Event) : List HookCall :=
  events.filterMap fun event =>
    match event with
    | .interface j call => if j = i then some call else none
    | _ => none

/-- In one direction, what is created is destroyed once, nothing else is destroyed, and what is
attached is detached once.  The destruction before the creation is a call of its own. -/
structure PairedIn (d : Direction) (calls : List HookCall) : Prop where
  destroyed : .create d .ok ∈ calls → calls.count (.destroy d) = 1
  foreign : .create d .ok ∉ calls → .destroy d ∉ calls
  detached : .attach d true ∈ calls → calls.count (.detach d) = 1

instance decidablePairedIn (d : Direction) (calls : List HookCall) :
    Decidable (PairedIn d calls) :=
  decidable_of_iff
    ((.create d .ok ∈ calls → calls.count (.destroy d) = 1) ∧
      (.create d .ok ∉ calls → .destroy d ∉ calls) ∧
      (.attach d true ∈ calls → calls.count (.detach d) = 1))
    ⟨fun h => ⟨h.1, h.2.1, h.2.2⟩, fun h => ⟨h.destroyed, h.foreign, h.detached⟩⟩

/-- Both directions are paired. -/
def Paired (calls : List HookCall) : Prop := ∀ d, PairedIn d calls

instance decidablePaired (calls : List HookCall) : Decidable (Paired calls) :=
  decidable_of_iff (PairedIn .ingress calls ∧ PairedIn .egress calls)
    ⟨fun h d => by cases d <;> simp [h], fun h => ⟨h .ingress, h .egress⟩⟩

/-- The calls for every interface are paired. -/
def HooksPaired (events : List Event) : Prop := ∀ i, Paired (callsOf i events)

/-! ## The outcomes that go wrong -/

/-- Both programs are attached. -/
def HookOutcomes.Attached (o : HookOutcomes) : Prop :=
  o.createIngress ≠ .error ∧ o.createEgress ≠ .error ∧ o.attachIngress = true ∧
    o.attachEgress = true

/-- A later call fails, and something that came before it is undone. -/
def HookOutcomes.RolledBack (o : HookOutcomes) : Prop :=
  o.createIngress ≠ .error ∧
    if o.createEgress = .error then o.createIngress = .ok
    else if o.attachIngress then o.attachEgress = false
    else o.createIngress = .ok ∨ o.createEgress = .ok

instance decidableAttached (o : HookOutcomes) : Decidable o.Attached :=
  inferInstanceAs (Decidable (_ ∧ _ ∧ _ ∧ _))

instance decidableRolledBack (o : HookOutcomes) : Decidable o.RolledBack :=
  inferInstanceAs (Decidable (_ ∧ ite _ _ (ite _ _ _)))

/-! ## The calls for one interface -/

theorem callsOf_append (i : ℕ) (events events' : List Event) :
    callsOf i (events ++ events') = callsOf i events ++ callsOf i events' :=
  List.filterMap_append

theorem callsOf_interface (i j : ℕ) (calls : List HookCall) :
    callsOf i (calls.map (.interface j)) = if j = i then calls else [] := by
  induction calls with
  | nil => simp [callsOf]
  | cons call calls ih =>
      by_cases same : j = i <;> simp_all [callsOf]

/-- Of a loop over the interfaces one turn is for the `i`-th. -/
theorem callsOf_forInterfaces (i count : ℕ) (body : ℕ → List HookCall) :
    callsOf i (forInterfaces count body) = if i < count then body i else [] := by
  induction count with
  | zero => rfl
  | succ count ih =>
      have split : forInterfaces (count + 1) body =
          forInterfaces count body ++ (body count).map (.interface count) := by
        simp [forInterfaces, List.range_succ]
      rw [split, callsOf_append, ih, callsOf_interface]
      rcases Nat.lt_trichotomy i count with below | rfl | above
      · rw [if_pos below, if_neg (by omega), if_pos (by omega), List.append_nil]
      · simp
      · rw [if_neg (by omega), if_neg (by omega), if_neg (by omega), List.append_nil]

/-- Events that are not for an interface. -/
theorem callsOf_eq_nil {i : ℕ} {events : List Event}
    (others : ∀ event ∈ events, ∀ call, event ≠ .interface i call) : callsOf i events = [] := by
  apply List.filterMap_eq_nil_iff.mpr
  intro event member
  cases event with
  | interface j call =>
      have different : j ≠ i := fun same => others _ member call (same ▸ rfl)
      exact if_neg different
  | _ => rfl

theorem callsOf_allocations (i : ℕ) (o : Outcomes) : callsOf i (allocations o) = [] := by
  apply callsOf_eq_nil
  intro event member call same
  subst same
  simp [allocations] at member

theorem callsOf_updates (i updates : ℕ) (m : Members) :
    callsOf i (List.replicate updates (update m)).flatten = [] := by
  apply callsOf_eq_nil
  intro event member call same
  rw [same] at member
  rcases mem_update (mem_updates member) with other | other <;> cases other

/-- The calls of the first two loops for the `i`-th interface. -/
theorem callsOf_setUpInterfaces (i : ℕ) (o : Outcomes) :
    callsOf i (setUpInterfaces o) =
      if i < o.ifindexMap.entries.length then initInterface ++ (setUpInterface (o.hooks i)).1
      else [] := by
  rw [setUpInterfaces, callsOf_append, callsOf_forInterfaces, callsOf_forInterfaces]
  split
  · rfl
  · rfl

/-! ## The destructor -/

/-- With all arrays the destructor's loop has a turn for every interface. -/
theorem destroyInterfaces_eq {m : Members} (complete : ∀ kind d, m.allocated kind d = true)
    (is : List ℕ) :
    (destroyInterfaces m is).1 =
      is.flatMap fun i => (destroyInterface m i).1.map (.interface i) := by
  induction is with
  | nil => rfl
  | cons i others ih =>
      have ended : (destroyInterface m i).2 = true := by simp [destroyInterface, complete]
      simp [destroyInterfaces, ended, ih]

/-- The calls of one turn of the destructor's loop. -/
def destroyCalls (created : Direction → Bool) : List HookCall :=
  [.detach .ingress, .detach .egress] ++
    (destroyIfCreated .ingress (created .ingress) ++ destroyIfCreated .egress (created .egress))

theorem callsOf_destruct {m : Members} (complete : ∀ kind d, m.allocated kind d = true) (i : ℕ) :
    callsOf i (destruct m) =
      if i < m.interfaceCount then destroyCalls fun d => m.hooksCreated d i else [] := by
  have freed : callsOf i ((arrays.map fun a => .free a.1 a.2 (m.allocated a.1 a.2)) ++
      [.destroySkel m.skel]) = [] := rfl
  have turn : (destroyInterface m i).1 = destroyCalls fun d => m.hooksCreated d i := by
    simp [destroyInterface, complete, destroyCalls]
  simp only [destruct, destroyInterfaces_complete complete, if_true]
  rw [callsOf_append, freed, List.append_nil, destroyInterfaces_eq complete, ← turn]
  exact callsOf_forInterfaces i m.interfaceCount fun i => (destroyInterface m i).1

theorem mem_callsOf {i : ℕ} {events : List Event} {call : HookCall} :
    call ∈ callsOf i events ↔ .interface i call ∈ events := by
  rw [callsOf, List.mem_filterMap]
  constructor
  · rintro ⟨event, member, found⟩
    cases event with
    | interface j made =>
        by_cases here : j = i
        · obtain rfl : made = call := Option.some.inj ((if_pos here).symm.trans found)
          rwa [here] at member
        · exact absurd ((if_neg here).symm.trans found) (by simp)
    | _ => cases found
  · exact fun member => ⟨_, member, if_pos rfl⟩

/-- A call that changes no hook but for what is attached. -/
def HookCall.Quiet (call : HookCall) : Prop := (∃ d, call = .detach d) ∨ ∃ d, call = .readCreated d

/-- Without a flag the destructor only detaches. -/
theorem quiet_of_mem_destruct {m : Members} (fresh : m.hooksCreated = fun _ _ => false) {i : ℕ}
    {call : HookCall} (member : call ∈ callsOf i (destruct m)) : call.Quiet := by
  rcases mem_destruct (mem_callsOf.mp member) with ⟨j, made, turn, same⟩ | ⟨_, _, same⟩ | same
  · obtain ⟨rfl, rfl⟩ := Event.interface.inj same
    have calls : call ∈ [HookCall.detach .ingress, .detach .egress, .readCreated .ingress,
        .readCreated .egress] := by
      simp only [destroyInterface, fresh, destroyIfCreated] at turn
      split at turn
      · exact List.mem_of_mem_dropLast turn
      · split at turn <;> exact turn
    simp only [List.mem_cons, List.not_mem_nil, or_false] at calls
    rcases calls with rfl | rfl | rfl | rfl
    · exact Or.inl ⟨_, rfl⟩
    · exact Or.inl ⟨_, rfl⟩
    · exact Or.inr ⟨_, rfl⟩
    · exact Or.inr ⟨_, rfl⟩
  · cases same
  · cases same

/-! ## One interface -/

/-- Calls that create, attach and destroy nothing are paired. -/
theorem paired_of_quiet {calls : List HookCall}
    (quiet : ∀ call ∈ calls, call.Quiet) : Paired calls := by
  have absent : ∀ call, (∀ d, call ≠ .detach d) → (∀ d, call ≠ .readCreated d) → call ∉ calls := by
    intro call noDetach noRead member
    rcases quiet call member with ⟨d, same⟩ | ⟨d, same⟩
    · exact noDetach d same
    · exact noRead d same
  intro d
  constructor
  · exact fun created => absurd created (absent _ (by simp) (by simp))
  · exact fun _ => absent _ (by simp) (by simp)
  · exact fun attached => absurd attached (absent _ (by simp) (by simp))

/-- Without the destructor what is attached stays attached. -/
theorem paired_thrown_iff (o : HookOutcomes) :
    Paired (initInterface ++ (setUpInterface o).1) ↔ ¬ o.Attached := by
  obtain ⟨createIngress, createEgress, attachIngress, attachEgress⟩ := o
  cases createIngress <;> cases createEgress <;> cases attachIngress <;> cases attachEgress <;>
    decide

/-- With the destructor what was rolled back is undone once more. -/
theorem paired_kept_iff (o : HookOutcomes) :
    Paired (initInterface ++ (setUpInterface o).1 ++ destroyCalls (setUpInterface o).2) ↔
      ¬ o.RolledBack := by
  obtain ⟨createIngress, createEgress, attachIngress, attachEgress⟩ := o
  cases createIngress <;> cases createEgress <;> cases attachIngress <;> cases attachEgress <;>
    decide

/-! ## The main result -/

/-- The interfaces are paired exactly when each of them is. -/
theorem hooksPaired_congr {events : List Event} {count : ℕ} {calls : ℕ → List HookCall}
    {good : ℕ → Prop} (each : ∀ i, callsOf i events = if i < count then calls i else [])
    (paired : ∀ i, Paired (calls i) ↔ good i) :
    HooksPaired events ↔ ∀ i < count, good i := by
  constructor
  · intro all i below
    have here := all i
    rw [each, if_pos below] at here
    exact (paired i).mp here
  · intro all i
    rw [each]
    split
    · next below => exact (paired i).mpr (all i below)
    · exact paired_of_quiet fun _ member => by cases member

/-- A constructor that returns before it sets an interface up leaves nothing to undo. -/
theorem hooksPaired_of_early {o : Outcomes} {events : List Event} {m : Members}
    (ending : construct o = ⟨events, m, false⟩) (fresh : m.hooksCreated = fun _ _ => false)
    (early : ∀ i, callsOf i events = []) (updates : ℕ) : HooksPaired (lifetime o updates) := by
  intro i
  have trace : callsOf i (lifetime o updates) = callsOf i (destruct m) := by
    simp only [lifetime, ending]
    rw [if_neg Bool.false_ne_true, callsOf_append, callsOf_append, early, callsOf_updates]
    rfl
  rw [trace]
  exact paired_of_quiet fun call member => quiet_of_mem_destruct fresh member

/-- A constructor that throws leaves the hooks as it set them up. -/
theorem hooksPaired_thrown_iff {o : Outcomes} {final : List Event} {m : Members}
    (ending : construct o = ⟨allocations o ++ setUpInterfaces o ++ final, m, true⟩)
    (nothing : ∀ i, callsOf i final = []) (updates : ℕ) :
    HooksPaired (lifetime o updates) ↔
      ∀ i < o.ifindexMap.entries.length, ¬ (o.hooks i).Attached := by
  refine hooksPaired_congr (fun i => ?_) fun i => paired_thrown_iff (o.hooks i)
  simp only [lifetime, ending, if_true]
  rw [callsOf_append, callsOf_append, callsOf_allocations, callsOf_setUpInterfaces, nothing,
    List.append_nil]
  rfl

/-- The life of a monitor whose constructor succeeds. -/
theorem hooksPaired_complete_iff {o : Outcomes} (complete : ∀ kind d, o.calloc kind d = true)
    (ending : construct o = ⟨allocations o ++ setUpInterfaces o ++
      [.attachSkeleton true, .mapInfo true], .setUp o, false⟩) (updates : ℕ) :
    HooksPaired (lifetime o updates) ↔
      ∀ i < o.ifindexMap.entries.length, ¬ (o.hooks i).RolledBack := by
  refine hooksPaired_congr (fun i => ?_) fun i => paired_kept_iff (o.hooks i)
  have final : callsOf i [.attachSkeleton true, .mapInfo true] = [] := rfl
  have destroyed : callsOf i (destruct (.setUp o)) =
      if i < o.ifindexMap.entries.length then destroyCalls (setUpInterface (o.hooks i)).2 else [] :=
    callsOf_destruct complete i
  simp only [lifetime, ending]
  rw [if_neg Bool.false_ne_true, callsOf_append, callsOf_append, callsOf_append, callsOf_append,
    callsOf_allocations, callsOf_setUpInterfaces, callsOf_updates, destroyed, final,
    List.append_nil]
  split
  · rfl
  · rfl

/-- **Every created hook is destroyed once, no other hook is destroyed, and every attached
program is detached once, exactly when no interface is rolled back by a constructor that
returns, and none is attached by one that throws.** -/
theorem hooksPaired_iff (o : Outcomes) (updates : ℕ) :
    HooksPaired (lifetime o updates) ↔
      (o.openAndLoad = true → (∀ kind d, o.calloc kind d = true) →
        ∀ i < o.ifindexMap.entries.length,
          if o.attachSkeleton ∧ o.mapInfo then ¬ (o.hooks i).RolledBack
          else ¬ (o.hooks i).Attached) := by
  by_cases none : o.ifindexMap.entries = []
  · refine iff_of_true
      (hooksPaired_of_early (construct_of_none none) rfl (fun _ => rfl) updates) ?_
    intro _ _ i below
    rw [none] at below
    cases below
  cases loaded : o.openAndLoad with
  | false =>
      refine iff_of_true (hooksPaired_of_early (construct_of_not_loaded none loaded) rfl
        (fun _ => rfl) updates) fun there => ?_
      cases there
  | true =>
      by_cases complete : ∀ kind d, o.calloc kind d = true
      · rw [forall_prop_of_true rfl, forall_prop_of_true complete]
        cases attached : o.attachSkeleton with
        | false =>
            exact hooksPaired_thrown_iff
              (construct_of_not_attached none loaded complete attached) (fun _ => rfl) updates
        | true =>
            cases known : o.mapInfo with
            | false =>
                exact hooksPaired_thrown_iff
                  (construct_of_no_info none loaded complete attached known) (fun _ => rfl) updates
            | true =>
                exact hooksPaired_complete_iff complete
                  (construct_complete none loaded complete attached known) updates
      · refine iff_of_true (hooksPaired_of_early (construct_of_not_allocated none loaded complete)
          rfl (fun i => ?_) updates) fun _ there => absurd there complete
        rw [callsOf_append, callsOf_allocations]
        rfl

/-- Both hooks of an interface are created, and the second program cannot be attached. -/
def egressFails : Outcomes where
  ifindexMap := AList.singleton 2 "eth0".toList
  openAndLoad := true
  calloc := fun _ _ => true
  hooks := fun _ => ⟨.ok, .ok, true, false⟩
  attachSkeleton := true
  mapInfo := true

/-- The destructor detaches a second time, and destroys the hooks a second time. -/
theorem egressFails_not_paired : ¬ HooksPaired (lifetime egressFails 0) := by
  intro paired
  exact absurd (paired 0 .ingress).destroyed (by decide)

end LinuxMonitor.Monitor.NetMonitor
