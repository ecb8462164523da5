import Mathlib.Data.Nat.Basic

/-!
# Loops

A loop takes turns until its body stops with a result.  It is run with a bound on the number
of turns and has no result when the bound is used up, so that a result shows that the loop
ends.

* `loop_mono`: more turns than needed change nothing.
* `loop_invariant`: what the turns keep holds when the loop stops.
* `loop_ends`: **a loop whose turns decrease a measure ends.**
* `Loop`: a loop that carries such a measure, and so has a result from every state.
-/

set_option autoImplicit false

namespace LinuxMonitor.Library

/-- What one turn of a loop comes to. -/
inductive Turn (σ ρ : Type*) where
  | next (s : σ)
  | stop (r : ρ)
deriving DecidableEq, Repr

variable {σ ρ : Type*} {body : σ → Turn σ ρ}

/-- The result of a loop that stops within `turns` turns. -/
def loop (body : σ → Turn σ ρ) : ℕ → σ → Option ρ
  | 0, _ => none
  | turns + 1, s =>
      match body s with
      | .next s' => loop body turns s'
      | .stop r => some r

theorem loop_next {s s' : σ} (next : body s = .next s') (turns : ℕ) :
    loop body (turns + 1) s = loop body turns s' := by
  rw [loop, next]

theorem loop_stop {s : σ} {r : ρ} (stop : body s = .stop r) (turns : ℕ) :
    loop body (turns + 1) s = some r := by
  rw [loop, stop]

/-- **More turns than needed change nothing.** -/
theorem loop_mono {s : σ} {r : ρ} {turns more : ℕ} (le : turns ≤ more)
    (ended : loop body turns s = some r) : loop body more s = some r := by
  induction turns generalizing s more with
  | zero => cases ended
  | succ turns ih =>
      obtain ⟨more, rfl⟩ : ∃ more', more = more' + 1 := ⟨more - 1, by omega⟩
      cases turn : body s with
      | next s' =>
          rw [loop_next turn] at ended ⊢
          exact ih (by omega) ended
      | stop r' =>
          rw [loop_stop turn] at ended ⊢
          exact ended

/-- **What the turns keep holds when the loop stops.** -/
theorem loop_invariant (holds : σ → Prop)
    (keeps : ∀ s s', holds s → body s = .next s' → holds s') {turns : ℕ} {s : σ} {r : ρ}
    (start : holds s) (ended : loop body turns s = some r) :
    ∃ last, holds last ∧ body last = .stop r := by
  induction turns generalizing s with
  | zero => cases ended
  | succ turns ih =>
      cases turn : body s with
      | next s' =>
          rw [loop_next turn] at ended
          exact ih (keeps s s' start turn) ended
      | stop r' =>
          rw [loop_stop turn, Option.some.injEq] at ended
          exact ⟨s, start, ended ▸ turn⟩

/-- **A loop whose turns decrease a measure ends**, after at most as many turns as the measure
has allowed. -/
theorem loop_ends (measure : σ → ℕ)
    (decreases : ∀ s s', body s = .next s' → measure s' < measure s) {s : σ} {turns : ℕ}
    (enough : measure s < turns) : (loop body turns s).isSome := by
  induction turns generalizing s with
  | zero => omega
  | succ turns ih =>
      cases turn : body s with
      | next s' =>
          have less := decreases s s' turn
          rw [loop_next turn]
          exact ih (by omega)
      | stop r =>
          rw [loop_stop turn]
          rfl

/-! ## Loops that carry their measure -/

/-- A loop with a measure that every turn decreases. -/
structure Loop (σ ρ : Type*) where
  body : σ → Turn σ ρ
  measure : σ → ℕ
  decreases : ∀ s s', body s = .next s' → measure s' < measure s

namespace Loop

variable (l : Loop σ ρ)

/-- The result of a loop. -/
def result (s : σ) : ρ :=
  (loop l.body (l.measure s + 1) s).get (loop_ends l.measure l.decreases (Nat.lt_succ_self _))

theorem ends (s : σ) : loop l.body (l.measure s + 1) s = some (l.result s) :=
  (Option.some_get _).symm

/-- **A loop stops with its result and no other.** -/
theorem ends_iff {s : σ} {r : ρ} :
    (∃ turns, loop l.body turns s = some r) ↔ l.result s = r := by
  constructor
  · rintro ⟨turns, ended⟩
    have first := loop_mono (Nat.le_max_left turns (l.measure s + 1)) ended
    have second := loop_mono (Nat.le_max_right turns (l.measure s + 1)) (l.ends s)
    exact Option.some.inj (second.symm.trans first)
  · rintro rfl
    exact ⟨_, l.ends s⟩

theorem result_next {s s' : σ} (next : l.body s = .next s') : l.result s = l.result s' :=
  l.ends_iff.mp ⟨l.measure s' + 2, (loop_next next _).trans (l.ends s')⟩

theorem result_stop {s : σ} {r : ρ} (stop : l.body s = .stop r) : l.result s = r :=
  l.ends_iff.mp ⟨1, loop_stop stop 0⟩

end Loop

end LinuxMonitor.Library
