import Mathlib.Algebra.BigOperators.Group.List.Basic
import Mathlib.Logic.Relation
import Mathlib.Tactic.Abel

/-!
# Interleaved executions on a shared state

Any number of executions run one program on a shared state.  `exec` is one atomic
operation of an execution; it returns nothing when the execution has ended.  A step
of the whole either starts an execution or lets any of them take its next operation,
so the runs cover every schedule, also the nesting of one execution in another.

* `Steps.forall_local`: a property of the shared state and one execution holds of all
  executions in every reachable configuration when each start has it, each operation
  keeps it for its own execution and no operation spoils it for another.
* `Steps.ledger`: a quantity of the shared state that every operation changes by what
  it adds to its execution's share is the sum of the shares.
* `Steps.of_play`: a schedule that can be played is a run.
-/

set_option autoImplicit false

namespace LinuxMonitor.Library

variable {S T : Type*}

/-- A configuration: the shared state and the executions started so far. -/
abbrev Configuration (S T : Type*) := S × List T

/-- A step of the interleaving. -/
inductive Interleaved (start : T → Prop) (exec : S → T → Option (S × T)) :
    Configuration S T → Configuration S T → Prop where
  | spawn {s : S} {pool : List T} {t : T} (starts : start t) :
      Interleaved start exec (s, pool) (s, pool ++ [t])
  | advance {s s' : S} {before after : List T} {t t' : T} (runs : exec s t = some (s', t')) :
      Interleaved start exec (s, before ++ t :: after) (s', before ++ t' :: after)

/-- Finitely many steps of the interleaving. -/
abbrev Steps (start : T → Prop) (exec : S → T → Option (S × T)) :
    Configuration S T → Configuration S T → Prop :=
  Relation.ReflTransGen (Interleaved start exec)

/-- A step starts an execution or advances the one at some place. -/
theorem Interleaved.cases_at {start : T → Prop} {exec : S → T → Option (S × T)}
    {c c' : Configuration S T} (step : Interleaved start exec c c') :
    (∃ t, start t ∧ c' = (c.1, c.2 ++ [t])) ∨
      ∃ i t s' t', c.2[i]? = some t ∧ exec c.1 t = some (s', t') ∧ c' = (s', c.2.set i t') := by
  cases step with
  | spawn starts => exact Or.inl ⟨_, starts, rfl⟩
  | @advance s s' before after t t' runs =>
      exact Or.inr ⟨before.length, t, s', t', by simp, runs, by simp⟩

namespace Steps

variable {start : T → Prop} {exec : S → T → Option (S × T)}

/-- **A local property holds of all executions.** -/
theorem forall_local (holds : S → T → Prop) (starting : ∀ s t, start t → holds s t)
    (own : ∀ s t s' t', exec s t = some (s', t') → holds s t → holds s' t')
    (other : ∀ s t s' t', exec s t = some (s', t') → ∀ u, holds s u → holds s' u)
    {c c' : Configuration S T} (steps : Steps start exec c c')
    (initially : ∀ t ∈ c.2, holds c.1 t) : ∀ t ∈ c'.2, holds c'.1 t := by
  induction steps with
  | refl => exact initially
  | tail _ step ih =>
      cases step with
      | spawn starts =>
          intro u member
          rcases List.mem_append.mp member with old | new
          · exact ih u old
          · rw [List.mem_singleton.mp new]
            exact starting _ _ starts
      | @advance s s' before after t t' runs =>
          intro u member
          have kept : ∀ v ∈ before ++ t :: after, holds s' v :=
            fun v inside => other s t s' t' runs v (ih v inside)
          rcases List.mem_append.mp member with old | new
          · exact kept u (List.mem_append_left _ old)
          · rcases List.mem_cons.mp new with rfl | rest
            · have had := ih t (List.mem_append_right _ List.mem_cons_self)
              exact own s t s' _ runs had
            · exact kept u (List.mem_append_right _ (List.mem_cons_of_mem _ rest))

/-- A property of the shared state that no operation spoils. -/
theorem stable (holds : S → Prop)
    (keeps : ∀ s t s' t', exec s t = some (s', t') → holds s → holds s')
    {c c' : Configuration S T} (steps : Steps start exec c c') (initially : holds c.1) :
    holds c'.1 := by
  induction steps with
  | refl => exact initially
  | tail _ step ih =>
      cases step with
      | spawn _ => exact ih
      | advance runs => exact keeps _ _ _ _ runs ih

/-- **What the shared state holds is what the executions have put in.** -/
theorem ledger {M : Type*} [AddCommGroup M] (quantity : S → M) (share : T → M)
    (nothing : ∀ t, start t → share t = 0)
    (balance : ∀ s t s' t', exec s t = some (s', t') →
      quantity s' + share t = quantity s + share t')
    {c c' : Configuration S T} (steps : Steps start exec c c') :
    quantity c'.1 + (c.2.map share).sum = quantity c.1 + (c'.2.map share).sum := by
  induction steps with
  | refl => rfl
  | tail _ step ih =>
      cases step with
      | spawn starts =>
          rw [ih]
          simp [nothing _ starts]
      | @advance s s' before after t t' runs =>
          have balanced := balance s t s' t' runs
          simp only [List.map_append, List.map_cons, List.sum_append, List.sum_cons] at ih ⊢
          have gained : quantity s' = quantity s + share t' - share t := eq_sub_of_add_eq balanced
          rw [gained]
          calc
            quantity s + share t' - share t + (c.2.map share).sum
                = quantity s + (c.2.map share).sum + share t' - share t := by abel
            _ = quantity c.1 + ((before.map share).sum + (share t + (after.map share).sum))
                  + share t' - share t := by rw [ih]
            _ = quantity c.1 + ((before.map share).sum + (share t' + (after.map share).sum)) := by
                abel

end Steps

/-! ## Schedules -/

/-- A choice of the scheduler: to start an execution, or to let one of those started
take its next operation. -/
inductive Move (T : Type*) where
  | spawn (t : T)
  | advance (i : ℕ)

/-- Play a schedule; it fails where the chosen execution cannot go on. -/
def play (exec : S → T → Option (S × T)) :
    List (Move T) → Configuration S T → Option (Configuration S T)
  | [], c => some c
  | .spawn t :: moves, (s, pool) => play exec moves (s, pool ++ [t])
  | .advance i :: moves, (s, pool) =>
      match pool[i]? with
      | none => none
      | some t =>
          match exec s t with
          | none => none
          | some (s', t') => play exec moves (s', pool.set i t')

/-- **A schedule that can be played is a run.** -/
theorem Steps.of_play {start : T → Prop} {exec : S → T → Option (S × T)}
    {moves : List (Move T)} {c c' : Configuration S T}
    (starts : ∀ t, Move.spawn t ∈ moves → start t) (played : play exec moves c = some c') :
    Steps start exec c c' := by
  induction moves generalizing c with
  | nil =>
      cases played
      exact .refl
  | cons move moves ih =>
      obtain ⟨s, pool⟩ := c
      have rest : ∀ t, Move.spawn t ∈ moves → start t :=
        fun t member => starts t (List.mem_cons_of_mem _ member)
      cases move with
      | spawn t => exact .head (.spawn (starts t List.mem_cons_self)) (ih rest played)
      | advance i =>
          simp only [play] at played
          split at played
          · cases played
          · next t found =>
              split at played
              · cases played
              · next s' t' runs =>
                  obtain ⟨inside, rfl⟩ := List.getElem?_eq_some_iff.mp found
                  refine .head ?_ (ih rest played)
                  have before : pool = pool.take i ++ pool[i] :: pool.drop (i + 1) := by simp
                  rw [List.set_eq_take_append_cons_drop, if_pos inside]
                  conv_lhs => rw [before]
                  exact .advance runs

end LinuxMonitor.Library
