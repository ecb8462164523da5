import Mathlib.Data.List.Basic
import Mathlib.Data.List.Induction

/-!
# Resources that are acquired, used and released

A program acquires, uses and releases resources, and its trace lists what it did.  The
discipline of one resource is followed through a trace by `track`: it may be acquired when
it is not held, and used and released when it is; a trace that does anything else is
stuck.  `holds` only looks at the last acquisition or release.

* `track_append`: a trace is followed part by part.
* `step_of_ne`, `track_uses`: operations on other resources, and uses, change nothing.
* `Disciplined.acquire_mem`: what is used or released was acquired.
* `acquisitions_of_track`: **along a disciplined trace a resource is released as often as it
  is acquired, up to what is held in the end.**
-/

set_option autoImplicit false

namespace LinuxMonitor.Library

/-- An operation on a resource. -/
inductive Op (ρ : Type*) where
  | acquire (r : ρ)
  | use (r : ρ)
  | release (r : ρ)
deriving DecidableEq, Repr

variable {ρ : Type*} [DecidableEq ρ]

/-- The resource of an operation. -/
def Op.resource : Op ρ → ρ
  | .acquire r => r
  | .use r => r
  | .release r => r

/-- Whether `r` is held after an operation, nothing if the operation breaks the discipline. -/
def Op.step (r : ρ) (held : Bool) : Op ρ → Option Bool
  | .acquire r' => if r' = r then (if held then none else some true) else some held
  | .use r' => if r' = r then (if held then some true else none) else some held
  | .release r' => if r' = r then (if held then some false else none) else some held

/-- Whether `r` is held after a trace, nothing if an operation breaks the discipline. -/
def track (r : ρ) (held : Bool) : List (Op ρ) → Option Bool
  | [] => some held
  | op :: ops => (op.step r held).bind fun held => track r held ops

/-- Every operation of the trace on `r` keeps the discipline. -/
def Disciplined (r : ρ) (ops : List (Op ρ)) : Prop := (track r false ops).isSome

instance (r : ρ) (ops : List (Op ρ)) : Decidable (Disciplined r ops) :=
  inferInstanceAs (Decidable ((track r false ops).isSome = true))

/-- Whether the last acquisition or release of `r` is an acquisition. -/
def holds (r : ρ) (ops : List (Op ρ)) : Bool :=
  ops.foldl (fun held op =>
    match op with
    | .acquire r' => if r' = r then true else held
    | .use _ => held
    | .release r' => if r' = r then false else held) false

/-- How often `r` is acquired. -/
def acquisitions (r : ρ) (ops : List (Op ρ)) : ℕ := ops.count (.acquire r)

/-- How often `r` is released. -/
def releases (r : ρ) (ops : List (Op ρ)) : ℕ := ops.count (.release r)

/-! ## Following a trace -/

@[simp] theorem track_nil (r : ρ) (held : Bool) : track r held [] = some held := rfl

@[simp] theorem track_cons (r : ρ) (held : Bool) (op : Op ρ) (ops : List (Op ρ)) :
    track r held (op :: ops) = (op.step r held).bind fun held => track r held ops := rfl

/-- **A trace is followed part by part.** -/
theorem track_append (r : ρ) (held : Bool) (ops ops' : List (Op ρ)) :
    track r held (ops ++ ops') = (track r held ops).bind fun held => track r held ops' := by
  induction ops generalizing held with
  | nil => rfl
  | cons op ops ih =>
      rw [List.cons_append, track_cons, track_cons, Option.bind_assoc]
      exact congrArg _ (funext fun held => ih held)

/-- An operation on another resource changes nothing. -/
theorem step_of_ne {r : ρ} {op : Op ρ} (other : op.resource ≠ r) (held : Bool) :
    op.step r held = some held := by
  cases op with
  | acquire r' => exact if_neg other
  | use r' => exact if_neg other
  | release r' => exact if_neg other

/-- Uses of something held change nothing. -/
theorem track_uses {r : ρ} {ops : List (Op ρ)}
    (uses : ∀ op ∈ ops, op.resource = r → op = .use r) : track r true ops = some true := by
  induction ops with
  | nil => rfl
  | cons op ops ih =>
      have step : op.step r true = some true := by
        by_cases same : op.resource = r
        · rw [uses op List.mem_cons_self same]
          simp [Op.step]
        · exact step_of_ne same true
      rw [track_cons, step]
      exact ih fun op' member => uses op' (List.mem_cons_of_mem _ member)

/-- Without an acquisition a trace that goes through does not touch the resource. -/
theorem resource_ne_of_track {r : ρ} {ops : List (Op ρ)} {held : Bool}
    (tracked : track r false ops = some held) (never : .acquire r ∉ ops) :
    ∀ op ∈ ops, op.resource ≠ r := by
  induction ops with
  | nil => exact fun _ member => by cases member
  | cons op ops ih =>
      rw [List.mem_cons, not_or] at never
      have other : op.resource ≠ r := by
        intro same
        cases op with
        | acquire r' =>
            cases same
            exact never.1 rfl
        | use r' =>
            cases same
            simp [Op.step, Op.resource] at tracked
        | release r' =>
            cases same
            simp [Op.step, Op.resource] at tracked
      rw [track_cons, step_of_ne other] at tracked
      exact List.forall_mem_cons.mpr ⟨other, ih tracked never.2⟩

/-- **What is used or released was acquired.** -/
theorem Disciplined.acquire_mem {r : ρ} {ops : List (Op ρ)} {op : Op ρ}
    (disciplined : Disciplined r ops) (member : op ∈ ops) (same : op.resource = r) :
    .acquire r ∈ ops := by
  obtain ⟨held, tracked⟩ := Option.isSome_iff_exists.mp disciplined
  by_contra never
  exact resource_ne_of_track tracked never op member same

/-- What is held was acquired. -/
theorem acquire_mem_of_holds {r : ρ} {ops : List (Op ρ)} (held : holds r ops = true) :
    .acquire r ∈ ops := by
  induction ops using List.reverseRecOn with
  | nil => cases held
  | append_singleton ops op ih =>
      rw [holds, List.foldl_append] at held
      rw [List.mem_append, List.mem_singleton]
      cases op with
      | acquire r' =>
          by_cases same : r' = r
          · exact .inr (same ▸ rfl)
          · exact .inl (ih ((if_neg same).symm.trans held))
      | use r' => exact .inl (ih held)
      | release r' =>
          by_cases same : r' = r
          · exact absurd ((if_pos same).symm.trans held) Bool.false_ne_true
          · exact .inl (ih ((if_neg same).symm.trans held))

/-! ## Counting -/

theorem acquisitions_append (r : ρ) (ops ops' : List (Op ρ)) :
    acquisitions r (ops ++ ops') = acquisitions r ops + acquisitions r ops' :=
  List.count_append

theorem releases_append (r : ρ) (ops ops' : List (Op ρ)) :
    releases r (ops ++ ops') = releases r ops + releases r ops' :=
  List.count_append

/-- One operation changes what is held by one acquisition or release. -/
theorem balance_step {r : ρ} {held held' : Bool} {op : Op ρ}
    (step : op.step r held = some held') :
    acquisitions r [op] + held.toNat = releases r [op] + held'.toNat := by
  cases op with
  | acquire r' =>
      by_cases same : r' = r <;> cases held <;> simp_all [Op.step, acquisitions, releases]
  | use r' =>
      by_cases same : r' = r <;> cases held <;> simp_all [Op.step, acquisitions, releases]
  | release r' =>
      by_cases same : r' = r <;> cases held <;> simp_all [Op.step, acquisitions, releases]

/-- **Along a disciplined trace a resource is released as often as it is acquired, up to
what is held in the beginning and in the end.** -/
theorem acquisitions_of_track {r : ρ} {held held' : Bool} {ops : List (Op ρ)}
    (tracked : track r held ops = some held') :
    acquisitions r ops + held.toNat = releases r ops + held'.toNat := by
  induction ops generalizing held with
  | nil =>
      cases tracked
      rfl
  | cons op ops ih =>
      obtain ⟨middle, step, rest⟩ := Option.bind_eq_some_iff.mp tracked
      have first := balance_step step
      have later := ih rest
      rw [← List.singleton_append, acquisitions_append, releases_append]
      omega

/-- A disciplined trace ends with what was acquired last. -/
theorem holds_of_track {r : ρ} {ops : List (Op ρ)} {held : Bool}
    (tracked : track r false ops = some held) : holds r ops = held := by
  induction ops using List.reverseRecOn generalizing held with
  | nil => exact Option.some.inj tracked
  | append_singleton ops op ih =>
      rw [track_append] at tracked
      obtain ⟨middle, before, last⟩ := Option.bind_eq_some_iff.mp tracked
      obtain ⟨after, step, final⟩ := Option.bind_eq_some_iff.mp last
      have earlier := ih before
      cases final
      rw [holds, List.foldl_append] at *
      rw [earlier]
      cases op <;> simp only [List.foldl_cons, List.foldl_nil, Op.step] at step ⊢ <;>
        split at step <;> cases middle <;> simp_all

end LinuxMonitor.Library
