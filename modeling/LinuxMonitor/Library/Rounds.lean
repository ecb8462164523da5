import Mathlib.Data.List.Induction

/-!
# Rounds

A program goes round with a state: each round takes an input and puts something out.  Its
rounds consist of stages, and a stage may throw.

* `foldlM_perm`: stages that commute give the same in every order.
* `getElem?_outputs`: what a round puts out.
* `getElem?_turns`: **when only the input decides whether a round throws, the rounds before the
  first that throws put out what they would without any exceptions.**
-/

set_option autoImplicit false

namespace LinuxMonitor.Library

variable {α σ ω ε χ : Type*}

/-! ## Stages -/

/-- **Stages that commute give the same in every order.** -/
theorem foldlM_perm {f : σ → α → Except ε σ} {order order' : List α} (same : order.Perm order')
    (commute : ∀ a b s, (f s a >>= fun t => f t b) = (f s b >>= fun t => f t a)) (s : σ) :
    order.foldlM f s = order'.foldlM f s := by
  induction same generalizing s with
  | nil => rfl
  | cons a _ ih => simp only [List.foldlM_cons, ih]
  | swap a b order =>
      simp only [List.foldlM_cons, ← bind_assoc, commute b a s]
  | trans _ _ first second => rw [first, second]

/-! ## Rounds that do not throw -/

/-- What the rounds put out, and the state they end in. -/
def outputs (round : α → σ → ω × σ) : List α → σ → List ω × σ
  | [], s => ([], s)
  | a :: inputs, s =>
      let (out, s) := round a s
      let (later, final) := outputs round inputs s
      (out :: later, final)

section Outputs

variable {round : α → σ → ω × σ}

theorem outputs_cons (a : α) (inputs : List α) (s : σ) :
    outputs round (a :: inputs) s =
      ((round a s).1 :: (outputs round inputs (round a s).2).1,
        (outputs round inputs (round a s).2).2) := rfl

theorem outputs_append (inputs others : List α) (s : σ) :
    outputs round (inputs ++ others) s =
      ((outputs round inputs s).1 ++ (outputs round others (outputs round inputs s).2).1,
        (outputs round others (outputs round inputs s).2).2) := by
  induction inputs generalizing s with
  | nil => rfl
  | cons a inputs ih => rw [List.cons_append, outputs_cons, ih, outputs_cons, List.cons_append]

theorem outputs_concat (inputs : List α) (a : α) (s : σ) :
    outputs round (inputs ++ [a]) s =
      ((outputs round inputs s).1 ++ [(round a (outputs round inputs s).2).1],
        (round a (outputs round inputs s).2).2) :=
  outputs_append inputs [a] s

/-- **What a round puts out.** -/
theorem getElem?_outputs (inputs : List α) (s : σ) (k : ℕ) :
    (outputs round inputs s).1[k]? =
      inputs[k]?.map fun a => (round a (outputs round (inputs.take k) s).2).1 := by
  induction inputs generalizing s k with
  | nil => rfl
  | cons a inputs ih =>
      cases k with
      | zero => rfl
      | succ k => exact ih (round a s).2 k

/-- The state is that after all rounds. -/
theorem snd_outputs (inputs : List α) (s : σ) :
    (outputs round inputs s).2 = inputs.foldl (fun s a => (round a s).2) s := by
  induction inputs generalizing s with
  | nil => rfl
  | cons a inputs ih => exact ih (round a s).2

/-- Each output is that of one of the rounds. -/
theorem exists_of_mem_outputs {inputs : List α} {s : σ} {out : ω}
    (member : out ∈ (outputs round inputs s).1) :
    ∃ before a after, inputs = before ++ a :: after ∧
      out = (round a (outputs round before s).2).1 := by
  obtain ⟨k, here⟩ := List.mem_iff_getElem?.mp member
  rw [getElem?_outputs] at here
  obtain ⟨a, found, made⟩ := Option.map_eq_some_iff.mp here
  obtain ⟨inside, rfl⟩ := List.getElem?_eq_some_iff.mp found
  refine ⟨inputs.take k, inputs[k], inputs.drop (k + 1), ?_, made.symm⟩
  rw [List.getElem_cons_drop, List.take_append_drop]

end Outputs

/-! ## Rounds that may throw -/

/-- What the rounds put out until one throws, and the state or the exception they end with. -/
def turns (body : α → σ → Except ε (ω × σ)) : List α → σ → List ω × Except ε σ
  | [], s => ([], .ok s)
  | a :: inputs, s =>
      match body a s with
      | .error e => ([], .error e)
      | .ok (out, s) =>
          let (later, final) := turns body inputs s
          (out :: later, final)

/-- The round throws what the check of its input throws, or else does not throw. -/
def Checked (check : α → Except ε χ) (round : χ → α → σ → ω × σ)
    (body : α → σ → Except ε (ω × σ)) : Prop :=
  ∀ a s, body a s = (check a).map fun c => round c a s

section Turns

variable {check : α → Except ε χ} {make : χ → α → σ → ω} {next : α → σ → σ}
  {body : α → σ → Except ε (ω × σ)}

/-- **The rounds up to the first that throws.** -/
theorem getElem?_turns (checks : Checked check (fun c a s => (make c a s, next a s)) body)
    (inputs : List α) (s : σ) (k : ℕ) (out : ω) :
    (turns body inputs s).1[k]? = some out ↔
      (∀ a ∈ inputs.take k, ∃ c, check a = .ok c) ∧ ∃ a c, inputs[k]? = some a ∧
        check a = .ok c ∧ out = make c a ((inputs.take k).foldl (fun s a => next a s) s) := by
  induction inputs generalizing s k with
  | nil => simp [turns]
  | cons a inputs ih =>
      rw [turns, checks a s]
      cases checked : check a with
      | error e => cases k <;> simp [Except.map, checked]
      | ok c =>
          cases k with
          | zero => simp [Except.map, checked, eq_comm]
          | succ k => simp [Except.map, checked, ih]

/-- The rounds end with the state after all inputs if and only if none of them throws. -/
theorem turns_eq_ok_iff (checks : Checked check (fun c a s => (make c a s, next a s)) body)
    (inputs : List α) (s : σ) :
    (∃ final, (turns body inputs s).2 = .ok final) ↔ ∀ a ∈ inputs, ∃ c, check a = .ok c := by
  induction inputs generalizing s with
  | nil => simp [turns]
  | cons a inputs ih =>
      rw [turns, checks a s]
      cases checked : check a with
      | error e => simp [Except.map, checked]
      | ok c => simp [Except.map, checked, ih]

end Turns

end LinuxMonitor.Library
