import LinuxMonitor.Library.Interleaving

/-!
# Critical sections under one lock

Threads take a lock, go through a critical section on what it guards, one operation at a time,
and release it.  Any number of threads run in any interleaving; a thread can take the lock only
when it is free.

* `Serialized.step`: one operation keeps the order in which the sections were executed.
* `Serialized.steps`: **whatever the interleaving, the finished sections were executed one
  after the other, and the order is only ever extended at its end.**
* `Serialized.progress`: while a thread has not finished, some thread can go on.
-/

set_option autoImplicit false

namespace LinuxMonitor.Library

variable {Q S L : Type*}

/-! ## Threads -/

/-- Where a thread stands. -/
inductive Place where
  | outside
  | inside
  | left
deriving DecidableEq, Repr

/-- A thread with what it was started with and its own variables. -/
structure Locking (Q L : Type*) where
  request : Q
  place : Place
  own : L

/-- What the lock guards, and whether it is taken. -/
structure Guarded (S : Type*) where
  locked : Bool
  shared : S

variable (body : Q → S → L → Option (S × L)) (init : Q → L)

/-- A thread that has not taken the lock yet. -/
def Locking.Starts (t : Locking Q L) : Prop := t.place = .outside ∧ t.own = init t.request

/-- One operation of a thread: it takes the lock, goes on in its section, or releases the lock
at the end of it. -/
def lockedExec (g : Guarded S) (t : Locking Q L) : Option (Guarded S × Locking Q L) :=
  match t.place with
  | .outside => if g.locked then none else some (⟨true, g.shared⟩, { t with place := .inside })
  | .inside =>
      match body t.request g.shared t.own with
      | some (s, l) => some (⟨true, s⟩, { t with own := l })
      | none => some (⟨false, g.shared⟩, { t with place := .left })
  | .left => none

/-- A section in progress without interruption. -/
abbrev Runs (q : Q) : S × L → S × L → Prop :=
  Relation.ReflTransGen fun a b => body q a.1 a.2 = some b

/-- A section that is executed from its beginning to its end. -/
def Executes (q : Q) (s : S) (s' : S) (l : L) : Prop :=
  Runs body q (s, init q) (s', l) ∧ body q s' l = none

/-- Sections that are executed one after the other, each with what its thread has at the end. -/
inductive Serial (s₀ : S) : List (Q × L) → S → Prop where
  | nil : Serial s₀ [] s₀
  | snoc {log : List (Q × L)} {s s' : S} {q : Q} {l : L} (before : Serial s₀ log s)
      (last : Executes body init q s s' l) : Serial s₀ (log ++ [(q, l)]) s'

section Serial

variable {body init} {s₀ s : S}

/-- A section has one result. -/
theorem Executes.unique {q : Q} {s₁ s₂ : S} {l₁ l₂ : L} (first : Executes body init q s s₁ l₁)
    (second : Executes body init q s s₂ l₂) : s₁ = s₂ ∧ l₁ = l₂ := by
  have stays : ∀ {a b : S × L}, body q a.1 a.2 = none → Runs body q a b → b = a := by
    intro a b ended runs
    rcases Relation.ReflTransGen.cases_head runs with rfl | ⟨next, step, _⟩
    · rfl
    · rw [ended] at step
      cases step
  have unique : Relator.RightUnique fun a b : S × L => body q a.1 a.2 = some b :=
    fun a b c toB toC => Option.some.inj (toB.symm.trans toC)
  rcases Relation.ReflTransGen.total_of_right_unique unique first.1 second.1 with on | on
  · have same := stays first.2 on
    exact ⟨(congrArg Prod.fst same).symm, (congrArg Prod.snd same).symm⟩
  · have same := stays second.2 on
    exact ⟨congrArg Prod.fst same, congrArg Prod.snd same⟩

/-- A section among others begins in what those before it have left. -/
theorem Serial.split {before after : List (Q × L)} {q : Q} {l : L}
    (serial : Serial body init s₀ (before ++ (q, l) :: after) s) :
    ∃ s₁ s₂, Serial body init s₀ before s₁ ∧ Executes body init q s₁ s₂ l := by
  generalize whole : before ++ (q, l) :: after = log at serial
  induction serial generalizing after with
  | nil => simp at whole
  | @snoc log s s' q' l' earlier last ih =>
      rcases List.eq_nil_or_concat after with rfl | ⟨after, item, rfl⟩
      · obtain ⟨rfl, same⟩ := List.append_inj' whole rfl
        cases same
        exact ⟨s, s', earlier, last⟩
      · rw [List.concat_eq_append, ← List.cons_append, ← List.append_assoc] at whole
        exact ih (List.append_inj' whole rfl).1

end Serial

/-! ## The order of the sections -/

/-- The finished threads in the order of their sections, `s` being what the last one left.  The
lock is taken exactly when one thread is inside, and then by a section that began in `s`. -/
structure Serialized (s₀ : S) (c : Configuration (Guarded S) (Locking Q L))
    (log : List (ℕ × Q × L)) (s : S) : Prop where
  serial : Serial body init s₀ (log.map Prod.snd) s
  nodup : (log.map Prod.fst).Nodup
  logged : ∀ i q l, (i, q, l) ∈ log ↔ c.2[i]? = some ⟨q, .left, l⟩
  fresh : ∀ (i : ℕ) (t : Locking Q L), c.2[i]? = some t → t.place = .outside →
    t.own = init t.request
  free : c.1.locked = false → c.1.shared = s ∧
    ∀ (i : ℕ) (t : Locking Q L), c.2[i]? = some t → t.place ≠ .inside
  held : c.1.locked = true → ∃ (i : ℕ) (t : Locking Q L), c.2[i]? = some t ∧ t.place = .inside ∧
    Runs body t.request (s, init t.request) (c.1.shared, t.own) ∧
      ∀ (j : ℕ) (u : Locking Q L), c.2[j]? = some u → u.place = .inside → j = i

variable {body init} {s₀ s : S} {c c' : Configuration (Guarded S) (Locking Q L)}
  {log : List (ℕ × Q × L)}

/-- No thread has started. -/
theorem Serialized.nothing (body : Q → S → L → Option (S × L)) (init : Q → L) (s₀ : S) :
    Serialized body init s₀ (⟨false, s₀⟩, []) [] s₀ where
  serial := .nil
  nodup := List.nodup_nil
  logged i q l := by simp
  fresh i t found := by cases found
  free _ := ⟨rfl, fun i t found => by cases found⟩
  held taken := by cases taken

namespace Serialized

/-- The places of a list after one of its elements has been replaced. -/
theorem getElem?_set_cases {α : Type*} {xs : List α} {i j : ℕ} {x x' y : α}
    (here : xs[i]? = some x) (found : (xs.set i x')[j]? = some y) :
    (j = i ∧ y = x') ∨ (j ≠ i ∧ xs[j]? = some y) := by
  obtain ⟨inside, _⟩ := List.getElem?_eq_some_iff.mp here
  by_cases same : j = i
  · subst same
    rw [List.getElem?_set_self inside] at found
    exact Or.inl ⟨rfl, (Option.some.inj found).symm⟩
  · rw [List.getElem?_set_ne (Ne.symm same)] at found
    exact Or.inr ⟨same, found⟩

theorem getElem?_set_here {α : Type*} {xs : List α} {i : ℕ} {x x' : α} (here : xs[i]? = some x) :
    (xs.set i x')[i]? = some x' := by
  obtain ⟨inside, _⟩ := List.getElem?_eq_some_iff.mp here
  exact List.getElem?_set_self inside

/-- A thread is started. -/
theorem spawn (serialized : Serialized body init s₀ c log s) {t : Locking Q L}
    (starts : t.Starts init) : Serialized body init s₀ (c.1, c.2 ++ [t]) log s := by
  have found : ∀ {i : ℕ} {u : Locking Q L}, (c.2 ++ [t])[i]? = some u →
      c.2[i]? = some u ∨ u = t := by
    intro i u here
    rw [List.getElem?_append] at here
    split at here
    · exact Or.inl here
    · exact Or.inr (List.mem_singleton.mp (List.mem_of_getElem? here))
  have kept : ∀ {i : ℕ} {u : Locking Q L}, c.2[i]? = some u → (c.2 ++ [t])[i]? = some u := by
    intro i u here
    obtain ⟨inside, _⟩ := List.getElem?_eq_some_iff.mp here
    rw [List.getElem?_append_left inside]
    exact here
  have outside : t.place = .outside := starts.1
  refine ⟨serialized.serial, serialized.nodup, fun i q l => ?_, fun i u here place => ?_,
    fun free => ⟨(serialized.free free).1, fun i u here place => ?_⟩, fun taken => ?_⟩
  · rw [serialized.logged]
    refine ⟨kept, fun here => (found here).resolve_right ?_⟩
    rintro rfl
    cases outside
  · rcases found here with old | rfl
    · exact serialized.fresh i u old place
    · exact starts.2
  · rcases found here with old | rfl
    · exact (serialized.free free).2 i u old place
    · rw [outside] at place
      cases place
  · obtain ⟨i, u, here, place, runs, sole⟩ := serialized.held taken
    refine ⟨i, u, kept here, place, runs, fun j v other inside => ?_⟩
    rcases found other with old | rfl
    · exact sole j v old inside
    · rw [outside] at inside
      cases inside

/-- The lock is taken. -/
theorem take (serialized : Serialized body init s₀ c log s) {i : ℕ} {t : Locking Q L}
    (here : c.2[i]? = some t) (outside : t.place = .outside) (free : c.1.locked = false) :
    Serialized body init s₀ (⟨true, c.1.shared⟩, c.2.set i { t with place := .inside })
      log s := by
  obtain ⟨shared, none⟩ := serialized.free free
  refine ⟨serialized.serial, serialized.nodup, fun j q l => ?_, fun j u found place => ?_,
    fun released => (by cases released), fun _ => ?_⟩
  · rw [serialized.logged]
    by_cases same : j = i
    · subst same
      rw [getElem?_set_here here, here]
      refine ⟨fun left => ?_, fun left => by cases left⟩
      cases left
      cases outside
    · rw [List.getElem?_set_ne (Ne.symm same)]
  · rcases getElem?_set_cases here found with ⟨_, rfl⟩ | ⟨_, old⟩
    · cases place
    · exact serialized.fresh j u old place
  · refine ⟨i, _, getElem?_set_here here, rfl, ?_, fun j u found inside => ?_⟩
    · rw [shared, serialized.fresh i t here outside]
    · rcases getElem?_set_cases here found with ⟨rfl, _⟩ | ⟨_, old⟩
      · rfl
      · exact absurd inside (none j u old)

/-- The thread inside, of which there is one. -/
theorem of_inside (serialized : Serialized body init s₀ c log s) {i : ℕ} {t : Locking Q L}
    (here : c.2[i]? = some t) (inside : t.place = .inside) :
    Runs body t.request (s, init t.request) (c.1.shared, t.own) ∧
      ∀ (j : ℕ) (u : Locking Q L), c.2[j]? = some u → u.place = .inside → j = i := by
  cases taken : c.1.locked with
  | false => exact absurd inside ((serialized.free taken).2 i t here)
  | true =>
      obtain ⟨i', t', here', _, runs, sole⟩ := serialized.held taken
      obtain rfl := sole i t here inside
      rw [here] at here'
      cases here'
      exact ⟨runs, sole⟩

/-- The section goes on. -/
theorem advance (serialized : Serialized body init s₀ c log s) {i : ℕ} {t : Locking Q L}
    (here : c.2[i]? = some t) (inside : t.place = .inside) {s' : S} {l : L}
    (goesOn : body t.request c.1.shared t.own = some (s', l)) :
    Serialized body init s₀ (⟨true, s'⟩, c.2.set i { t with own := l }) log s := by
  obtain ⟨runs, sole⟩ := serialized.of_inside here inside
  refine ⟨serialized.serial, serialized.nodup, fun j q l' => ?_, fun j u found place => ?_,
    fun released => (by cases released), fun _ => ?_⟩
  · rw [serialized.logged]
    by_cases same : j = i
    · subst same
      rw [getElem?_set_here here, here]
      constructor
      · intro left
        cases left
        cases inside
      · intro left
        have place := congrArg Locking.place (Option.some.inj left)
        rw [inside] at place
        cases place
    · rw [List.getElem?_set_ne (Ne.symm same)]
  · rcases getElem?_set_cases here found with ⟨_, rfl⟩ | ⟨_, old⟩
    · rw [inside] at place
      cases place
    · exact serialized.fresh j u old place
  · refine ⟨i, _, getElem?_set_here here, inside, runs.tail goesOn, fun j u found place => ?_⟩
    rcases getElem?_set_cases here found with ⟨rfl, _⟩ | ⟨_, old⟩
    · rfl
    · exact sole j u old place

/-- The section ends and the lock is released. -/
theorem release (serialized : Serialized body init s₀ c log s) {i : ℕ} {t : Locking Q L}
    (here : c.2[i]? = some t) (inside : t.place = .inside)
    (ends : body t.request c.1.shared t.own = none) :
    Serialized body init s₀ (⟨false, c.1.shared⟩, c.2.set i { t with place := .left })
      (log ++ [(i, t.request, t.own)]) c.1.shared := by
  obtain ⟨runs, sole⟩ := serialized.of_inside here inside
  have unlogged : ∀ q l, (i, q, l) ∉ log := by
    intro q l member
    have left := (serialized.logged i q l).mp member
    rw [here] at left
    cases left
    cases inside
  refine ⟨?_, ?_, fun j q l => ?_, fun j u found place => ?_, fun _ => ⟨rfl, ?_⟩,
    fun taken => by cases taken⟩
  · rw [List.map_append]
    exact .snoc serialized.serial ⟨runs, ends⟩
  · rw [List.map_append, List.map_singleton, List.nodup_append]
    refine ⟨serialized.nodup, by simp, ?_⟩
    intro j member j' last same
    obtain ⟨⟨k, q, l⟩, inLog, here⟩ := List.mem_map.mp member
    rw [List.mem_singleton.mp last, ← here] at same
    cases same
    exact unlogged q l inLog
  · rw [List.mem_append, List.mem_singleton, serialized.logged]
    by_cases same : j = i
    · subst same
      rw [getElem?_set_here here, here]
      constructor
      · rintro (left | last)
        · cases left
          cases inside
        · cases last
          rfl
      · intro left
        cases left
        exact Or.inr rfl
    · rw [List.getElem?_set_ne (Ne.symm same)]
      refine or_iff_left fun last => same (congrArg Prod.fst last)
  · rcases getElem?_set_cases here found with ⟨_, rfl⟩ | ⟨_, old⟩
    · cases place
    · exact serialized.fresh j u old place
  · intro j u found place
    rcases getElem?_set_cases here found with ⟨_, rfl⟩ | ⟨differs, old⟩
    · cases place
    · exact differs (sole j u old place)

/-- **One operation keeps the order of the sections.** -/
theorem step (serialized : Serialized body init s₀ c log s)
    (step : Interleaved (Locking.Starts init) (lockedExec body) c c') :
    ∃ log' s', log <+: log' ∧ Serialized body init s₀ c' log' s' := by
  rcases step.cases_at with ⟨t, starts, rfl⟩ | ⟨i, t, g, t', here, runs, rfl⟩
  · exact ⟨log, s, List.prefix_rfl, serialized.spawn starts⟩
  · unfold lockedExec at runs
    cases place : t.place with
    | outside =>
        simp only [place] at runs
        split at runs
        · cases runs
        · next free =>
            cases runs
            exact ⟨log, s, List.prefix_rfl,
              serialized.take here place (Bool.eq_false_iff.mpr free)⟩
    | inside =>
        simp only [place] at runs
        cases goesOn : body t.request c.1.shared t.own with
        | some next =>
            simp only [goesOn] at runs
            cases runs
            exact ⟨log, s, List.prefix_rfl, place ▸ serialized.advance here place goesOn⟩
        | none =>
            simp only [goesOn] at runs
            cases runs
            exact ⟨_, _, List.prefix_append _ _, serialized.release here place goesOn⟩
    | left =>
        simp only [place] at runs
        cases runs

/-- **Whatever the interleaving, the sections are executed one after the other.**  A section that
has ended keeps its place before all that end later. -/
theorem steps (serialized : Serialized body init s₀ c log s)
    (steps : Steps (Locking.Starts init) (lockedExec body) c c') :
    ∃ log' s', log <+: log' ∧ Serialized body init s₀ c' log' s' := by
  induction steps with
  | refl => exact ⟨log, s, List.prefix_rfl, serialized⟩
  | tail _ last ih =>
      obtain ⟨log₁, s₁, first, serialized₁⟩ := ih
      obtain ⟨log₂, s₂, second, serialized₂⟩ := serialized₁.step last
      exact ⟨log₂, s₂, first.trans second, serialized₂⟩

/-- **While a thread has not finished some thread can go on.** -/
theorem progress (serialized : Serialized body init s₀ c log s) {t : Locking Q L}
    (member : t ∈ c.2) (unfinished : t.place ≠ .left) :
    ∃ u ∈ c.2, (lockedExec body c.1 u).isSome := by
  have goesOn : ∀ u : Locking Q L, u.place = .inside → (lockedExec body c.1 u).isSome := by
    intro u inside
    unfold lockedExec
    rw [inside]
    dsimp only
    cases body u.request c.1.shared u.own <;> rfl
  cases taken : c.1.locked with
  | true =>
      obtain ⟨i, u, here, inside, _⟩ := serialized.held taken
      exact ⟨u, List.mem_of_getElem? here, goesOn u inside⟩
  | false =>
      refine ⟨t, member, ?_⟩
      cases place : t.place with
      | outside => simp [lockedExec, place, taken]
      | inside => exact goesOn t place
      | left => exact absurd place unfinished

end Serialized

end LinuxMonitor.Library
