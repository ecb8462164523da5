import Mathlib.Data.List.Forall2
import Mathlib.Data.Nat.Notation
import Mathlib.Logic.Relation

/-!
# Programs that load from memory others write

A program makes loads, one after the other, and computes between them.  Each load is atomic
and sees the memory of its moment; between any two loads others may write.  With a load a
program notes a mark, which says how far it has come; which writes are possible may depend
on it.

* `Meets`: what a program guarantees under the writes of the others, with rules for a load
  (`Meets.read_bind`), for loads of parts that are not written (`Meets.read_same`,
  `Meets.readParts_same`) and for one program after another (`Meets.bind`).
* `Meets.result`: **what a program guarantees holds at the end of every interleaving.**
* `Meets.inSequence`: what programs guarantee one after the other.
* `Steps.along`: every history of the memory is met by some interleaving.
-/

set_option autoImplicit false

namespace LinuxMonitor.Library

variable {M W α β σ : Type}

/-- A program: it has a result, or it loads, notes a mark and goes on with what it has
seen. -/
inductive Loads (M W α : Type) where
  | done (result : α)
  | load (mark : W) (next : M → Loads M W α)

namespace Loads

/-- One program after another. -/
def bind : Loads M W α → (α → Loads M W β) → Loads M W β
  | .done a, f => f a
  | .load mark next, f => .load mark fun m => (next m).bind f

instance monad : Monad (Loads M W) where
  pure := .done
  bind := bind

/-- One load. -/
def read (look : M → α) (mark : W) : Loads M W α := .load mark fun m => .done (look m)

/-- The loads of several parts of what `frame` shows, in their order. -/
def readParts (frame : M → σ) (mark : W) : List (σ → β) → Loads M W (List β)
  | [] => pure []
  | part :: parts => do
      let b ← read (fun m => part (frame m)) mark
      let bs ← readParts frame mark parts
      return b :: bs

/-- A program in progress, with its mark and the memory. -/
abbrev Running (M W α : Type) := W × M × Loads M W α

/-- Loads that see the same. -/
theorem readParts_congr {τ ι : Type} {frame : M → σ} {frame' : M → τ} {part : ι → σ → β}
    {part' : ι → τ → β} (mark : W) {items : List ι}
    (same : ∀ i ∈ items, ∀ m, part i (frame m) = part' i (frame' m)) :
    readParts frame mark (items.map part) = readParts frame' mark (items.map part') := by
  induction items with
  | nil => rfl
  | cons i items ih =>
      have first : (fun m => part i (frame m)) = fun m => part' i (frame' m) := by
        funext m
        exact same i List.mem_cons_self m
      have rest := ih fun j member => same j (List.mem_cons_of_mem _ member)
      rw [List.map_cons, List.map_cons, readParts, readParts, first, rest]

/-- A step of the interleaving: the program loads, or the others write. -/
inductive Step (write : W → M → M → Prop) : Running M W α → Running M W α → Prop where
  | load {w mark : W} {m : M} {next : M → Loads M W α} :
      Step write (w, m, .load mark next) (mark, m, next m)
  | write {w : W} {m m' : M} {p : Loads M W α} (writes : write w m m') :
      Step write (w, m, p) (w, m', p)

/-- Finitely many steps. -/
abbrev Steps (write : W → M → M → Prop) : Running M W α → Running M W α → Prop :=
  Relation.ReflTransGen (Step write)

/-- Finitely many writes while the program is at one mark. -/
abbrev Writes (write : W → M → M → Prop) (w : W) : M → M → Prop :=
  Relation.ReflTransGen (write w)

/-! ## Guarantees -/

/-- At the end of the program the result, the mark and the memory are as stated, whatever is
written in between. -/
def Meets (write : W → M → M → Prop) (post : W → M → α → Prop) : Loads M W α → W → M → Prop
  | .done a, w, m => ∀ m', Writes write w m m' → post w m' a
  | .load mark next, w, m => ∀ m', Writes write w m m' → Meets write post (next m') mark m'

namespace Meets

variable {write : W → M → M → Prop} {post post' : W → M → α → Prop} {p : Loads M W α}
  {w mark : W} {m m' : M}

/-- Writes keep the guarantee. -/
theorem writes (meets : Meets write post p w m) (later : Writes write w m m') :
    Meets write post p w m' := by
  cases p with
  | done a => exact fun m'' further => meets m'' (later.trans further)
  | load mark next => exact fun m'' further => meets m'' (later.trans further)

theorem step {c c' : Running M W α} (meets : Meets write post c.2.2 c.1 c.2.1)
    (step : Step write c c') : Meets write post c'.2.2 c'.1 c'.2.1 := by
  cases step with
  | load => exact meets _ .refl
  | write writes => exact meets.writes (.single writes)

/-- **The guarantee holds at the end of every interleaving.** -/
theorem result {w' : W} {a : α} (meets : Meets write post p w m)
    (steps : Steps write (w, m, p) (w', m', .done a)) : post w' m' a := by
  have kept : ∀ c : Running M W α, Steps write (w, m, p) c → Meets write post c.2.2 c.1 c.2.1 := by
    intro c steps
    induction steps with
    | refl => exact meets
    | tail _ last ih => exact ih.step last
  exact kept _ steps m' .refl

theorem mono (meets : Meets write post p w m) (weaker : ∀ w m a, post w m a → post' w m a) :
    Meets write post' p w m := by
  induction p generalizing w m with
  | done a => exact fun m' later => weaker _ _ _ (meets m' later)
  | load mark next ih => exact fun m' later => ih m' (meets m' later)

/-- What every write keeps holds at the end as well. -/
theorem keeps (good : M → Prop) (kept : ∀ w m m', write w m m' → good m → good m')
    (initially : good m) (meets : Meets write post p w m) :
    Meets write (fun w m a => good m ∧ post w m a) p w m := by
  have afterwards : ∀ {w m m'}, Writes write w m m' → good m → good m' := by
    intro w m m' later start
    induction later with
    | refl => exact start
    | tail _ last ih => exact kept _ _ _ last ih
  induction p generalizing w m with
  | done a => exact fun m' later => ⟨afterwards later initially, meets m' later⟩
  | load mark next ih => exact fun m' later => ih m' (afterwards later initially) (meets m' later)

theorem pure {a : α} (holds : ∀ m', Writes write w m m' → post w m' a) :
    Meets write post (pure a) w m := holds

/-- The first program guarantees what the second needs. -/
theorem bind {post : W → M → β → Prop} {f : α → Loads M W β}
    (meets : Meets write (fun w m a => Meets write post (f a) w m) p w m) :
    Meets write post (p >>= f) w m := by
  induction p generalizing w m with
  | done a => exact meets m .refl
  | load mark next ih => exact fun m' later => ih m' (meets m' later)

/-- A result is what the next program starts with. -/
theorem hand_over {post : W → M → β → Prop} {f : α → Loads M W β} {a : α}
    (meets : Meets write post (f a) w m) :
    Meets write (fun w m a => Meets write post (f a) w m) (Pure.pure a) w m :=
  fun _ later => meets.writes later

/-- A load sees the memory after the writes before it. -/
theorem read_bind {post : W → M → β → Prop} {look : M → α} {f : α → Loads M W β}
    (meets : ∀ m', Writes write w m m' → Meets write post (f (look m')) mark m') :
    Meets write post (read look mark >>= f) w m := meets

end Meets

/-! ## Parts that are not written -/

section Frame

variable {write : W → M → M → Prop} {frame : M → σ} {w mark : W} {m m' : M}

theorem Writes.frame_eq (fixed : ∀ m m', write w m m' → frame m' = frame m)
    (later : Writes write w m m') : frame m' = frame m := by
  induction later with
  | refl => rfl
  | tail _ last ih => exact (fixed _ _ last).trans ih

/-- A load of what is not written sees what was there before. -/
theorem Meets.read_same {post : W → M → α → Prop} {part : σ → β} {f : β → Loads M W α}
    (fixed : ∀ m m', write w m m' → frame m' = frame m)
    (meets : Meets write post (f (part (frame m))) w m) :
    Meets write post (read (fun m => part (frame m)) w >>= f) w m := by
  apply Meets.read_bind
  intro m' later
  rw [later.frame_eq fixed]
  exact meets.writes later

theorem Meets.readParts_same {post : W → M → α → Prop} {parts : List (σ → β)}
    {f : List β → Loads M W α} (fixed : ∀ m m', write w m m' → frame m' = frame m)
    (meets : Meets write post (f (parts.map fun part => part (frame m))) w m) :
    Meets write post (readParts frame w parts >>= f) w m := by
  apply Meets.bind
  induction parts generalizing f with
  | nil => exact meets.hand_over
  | cons part parts ih =>
      refine Meets.read_same fixed (Meets.bind ?_)
      refine (ih (f := fun bs => f (part (frame m) :: bs)) meets).mono ?_
      intro w m bs holds
      exact holds.hand_over

/-- After the first load at a mark the parts are not written any more. -/
theorem Meets.readParts_open {post : W → M → α → Prop} {part : σ → β} {parts : List (σ → β)}
    {f : List β → Loads M W α} (fixed : ∀ m m', write mark m m' → frame m' = frame m)
    (meets : ∀ m', Writes write w m m' →
      Meets write post (f ((part :: parts).map fun part => part (frame m'))) mark m') :
    Meets write post (readParts frame mark (part :: parts) >>= f) w m := by
  refine Meets.bind (Meets.read_bind fun m' later => ?_)
  apply Meets.readParts_same fixed
  exact (meets m' later).hand_over

end Frame

/-! ## Programs in sequence -/

section Sequence

variable {ι : Type}

/-- The programs one after the other. -/
def inSequence (program : ι → Loads M W α) : List ι → Loads M W (List α)
  | [] => pure []
  | i :: rounds => do
      let a ← program i
      let as ← inSequence program rounds
      return a :: as

/-- The results come from rounds that are made one after the other, and the last state is later
than all of them. -/
inductive InTurn (round : ι → M → M → α → Prop) (later : M → M → Prop) :
    M → List ι → List α → M → Prop where
  | nil {m last : M} (behind : later m last) : InTurn round later m [] [] last
  | cons {m m' last : M} {i : ι} {rounds : List ι} {a : α} {as : List α} (first : round i m m' a)
      (rest : InTurn round later m' rounds as last) :
      InTurn round later m (i :: rounds) (a :: as) last

variable {round : ι → M → M → α → Prop} {later : M → M → Prop} {m m' m'' : M} {rounds : List ι}
  {as : List α}

theorem InTurn.extend (trans : ∀ m m' m'', later m m' → later m' m'' → later m m'')
    (turns : InTurn round later m rounds as m') (further : later m' m'') :
    InTurn round later m rounds as m'' := by
  induction turns with
  | nil behind => exact .nil (trans _ _ _ behind further)
  | cons first _ ih => exact .cons first (ih further)

/-- Each result comes from its round. -/
theorem InTurn.forall₂ (turns : InTurn round later m rounds as m') :
    List.Forall₂ (fun i a => ∃ m m', round i m m' a) rounds as := by
  induction turns with
  | nil => exact .nil
  | cons first _ ih => exact .cons ⟨_, _, first⟩ ih

/-- **What every program guarantees holds of the rounds of a run.** -/
theorem Meets.inSequence (round : ι → M → M → α → Prop) (later : M → M → Prop) (rounds : List ι)
    {write : W → M → M → Prop} {good : M → Prop} {program : ι → Loads M W α} {m : M}
    (trans : ∀ m m' m'', later m m' → later m' m'' → later m m'')
    (passes : ∀ w m m', good m → Writes write w m m' → good m' ∧ later m m')
    (meets : ∀ i ∈ rounds, ∀ w m, good m →
      Meets write (fun _ m' a => good m' ∧ round i m m' a) (program i) w m)
    (w : W) (initially : good m) :
    Meets write (fun _ m' as => good m' ∧ InTurn round later m rounds as m')
      (inSequence program rounds) w m := by
  induction rounds generalizing w m with
  | nil =>
      intro m' writes
      have further := passes _ _ _ initially writes
      exact ⟨further.1, .nil further.2⟩
  | cons i rounds ih =>
      have own := meets i List.mem_cons_self w m initially
      refine Meets.bind (own.mono fun w₁ m₁ a first => Meets.bind ?_)
      have others := ih (fun j member => meets j (List.mem_cons_of_mem _ member)) w₁ first.1
      refine others.mono fun w₂ m₂ as rest m₃ writes => ?_
      have further := passes _ _ _ rest.1 writes
      exact ⟨further.1, .cons first.2 (rest.2.extend trans further.2)⟩

end Sequence

/-! ## Runs -/

/-- The result when nothing is written. -/
def eval (m : M) : Loads M W α → α
  | .done a => a
  | .load _ next => eval m (next m)

/-- The result, and the number of loads, when the load with number `k` sees `history k`. -/
def along (history : ℕ → M) : ℕ → Loads M W α → α × ℕ
  | k, .done a => (a, k)
  | k, .load _ next => along history (k + 1) (next (history k))

@[simp] theorem eval_pure (m : M) (a : α) : eval m (pure a : Loads M W α) = a := rfl

@[simp] theorem eval_read (m : M) (look : M → α) (mark : W) :
    eval m (read look mark) = look m := rfl

@[simp] theorem eval_bind (m : M) (p : Loads M W α) (f : α → Loads M W β) :
    eval m (p >>= f) = eval m (f (eval m p)) := by
  induction p with
  | done a => rfl
  | load mark next ih => exact ih m

@[simp] theorem eval_readParts (m : M) (frame : M → σ) (mark : W) (parts : List (σ → β)) :
    eval m (readParts frame mark parts) = parts.map fun part => part (frame m) := by
  induction parts with
  | nil => rfl
  | cons part parts ih => simp [readParts, ih]

section Steps

variable {write : W → M → M → Prop}

/-- When nothing is written the program comes to its result. -/
theorem Steps.eval (w : W) (m : M) (p : Loads M W α) :
    ∃ w', Steps write (w, m, p) (w', m, .done (p.eval m)) := by
  induction p generalizing w with
  | done a => exact ⟨w, .refl⟩
  | load mark next ih =>
      obtain ⟨w', rest⟩ := ih m mark
      exact ⟨w', .head .load rest⟩

/-- The first of two programs makes its steps. -/
theorem Steps.bind {w w' : W} {m m' : M} {p p' : Loads M W α} (f : α → Loads M W β)
    (steps : Steps write (w, m, p) (w', m', p')) :
    Steps write (w, m, p >>= f) (w', m', p' >>= f) := by
  have one : ∀ c c' : Running M W α, Step write c c' →
      Step write (c.1, c.2.1, c.2.2 >>= f) (c'.1, c'.2.1, c'.2.2 >>= f) := by
    intro c c' step
    cases step with
    | load => exact .load
    | write writes => exact .write writes
  have all : ∀ c : Running M W α, Steps write (w, m, p) c →
      Steps write (w, m, p >>= f) (c.1, c.2.1, c.2.2 >>= f) := by
    intro c steps
    induction steps with
    | refl => exact .refl
    | tail _ last ih => exact .tail ih (one _ _ last)
  exact all _ steps

/-- The memory changes by the writes alone. -/
theorem Steps.writes {change : M → M → Prop} {c c' : Running M W α}
    (steps : Steps (fun _ => change) c c') : Relation.ReflTransGen change c.2.1 c'.2.1 := by
  induction steps with
  | refl => exact .refl
  | tail _ last ih =>
      cases last with
      | load => exact ih
      | write writes => exact ih.tail writes

/-- **Every history of the memory is met by some interleaving.** -/
theorem Steps.along {history : ℕ → M}
    (written : ∀ w k, Writes write w (history k) (history (k + 1))) (w : W) (k : ℕ)
    (p : Loads M W α) :
    ∃ w', Steps write (w, history k, p)
      (w', history (p.along history k).2, .done (p.along history k).1) := by
  induction p generalizing w k with
  | done a => exact ⟨w, .refl⟩
  | load mark next ih =>
      obtain ⟨w', rest⟩ := ih (history k) mark (k + 1)
      have writes : Steps write (mark, history k, next (history k))
          (mark, history (k + 1), next (history k)) :=
        Relation.ReflTransGen.lift (fun m => (mark, m, next (history k)))
          (fun _ _ writes => Step.write writes) _ _ (written mark k)
      exact ⟨w', .head .load (writes.trans rest)⟩

end Steps

end Loads

end LinuxMonitor.Library
