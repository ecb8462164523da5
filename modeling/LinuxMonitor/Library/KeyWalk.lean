import Mathlib.Data.List.Nodup
import Mathlib.Data.List.TakeWhile
import LinuxMonitor.Library.Loads

/-!
# Walks from key to key

A reader walks over a list of keys by asking, each time, for the key behind the one it has
seen last, while others insert keys anywhere in the list.  A key that is not in the list has
the first key behind it, which is how a walk begins.

* `precedes_iff`: in a list without repetition the keys behind a key are those of the rest.
* `Walked.next`, `Walked.all`: one step of the walk, and its end.
* `walkKeys_meets`: **a walk ends, has visited every key that was there when it began, and has
  visited no key twice, whatever is inserted in the meantime.**
-/

set_option autoImplicit false

namespace LinuxMonitor.Library

variable {κ : Type} [DecidableEq κ]

/-- The key behind a key of the list, and the first key for any other key. -/
def successor (keys : List κ) (key : κ) : Option κ :=
  match keys.dropWhile fun k => k ≠ key with
  | [] => keys.head?
  | _ :: later => later.head?

/-- The first key stands before the second. -/
def Precedes (keys : List κ) (first second : κ) : Prop := [first, second].Sublist keys

/-! ## Positions -/

section Positions

omit [DecidableEq κ] in
theorem precedes_iff {before after : List κ} {key other : κ}
    (nodup : (before ++ key :: after).Nodup) :
    Precedes (before ++ key :: after) key other ↔ other ∈ after := by
  induction before with
  | nil => rw [Precedes, List.nil_append, List.cons_sublist_cons, List.singleton_sublist]
  | cons k before ih =>
      rw [List.cons_append, List.nodup_cons] at nodup
      rw [← ih nodup.2]
      constructor
      · intro precedes
        cases precedes with
        | cons _ rest => exact rest
        | cons_cons _ _ => exact absurd (by simp) nodup.1
      · exact fun precedes => precedes.trans (List.sublist_cons_self _ _)

theorem differs_of_notMem {keys : List κ} {key : κ} (absent : key ∉ keys) :
    ∀ k ∈ keys, decide (k ≠ key) = true := by
  intro k member
  have differs : k ≠ key := by
    rintro rfl
    exact absent member
  exact decide_eq_true differs

theorem successor_of_notMem {keys : List κ} {key : κ} (absent : key ∉ keys) :
    successor keys key = keys.head? := by
  rw [successor, List.dropWhile_eq_nil_iff.mpr (differs_of_notMem absent)]

theorem successor_append {before after : List κ} {key : κ} (absent : key ∉ before) :
    successor (before ++ key :: after) key = after.head? := by
  rw [successor, List.dropWhile_append_of_pos (differs_of_notMem absent)]
  simp

/-- Where a walk stands in the list: behind the keys visited and their gaps. -/
theorem exists_position {keys visited : List κ} {start : κ} (nodup : keys.Nodup)
    (fresh : start ∉ keys) (inside : visited.Sublist keys) :
    ∃ before after, keys = before ++ after ∧ visited.Sublist before ∧
      before.getLast? = visited.getLast? ∧
      successor keys (visited.getLast?.getD start) = after.head? := by
  rcases List.eq_nil_or_concat visited with rfl | ⟨visited, key, rfl⟩
  · exact ⟨[], keys, rfl, List.nil_sublist _, rfl, successor_of_notMem fresh⟩
  · rw [List.concat_eq_append] at inside ⊢
    obtain ⟨first, rest, rfl, earlier, here⟩ := List.append_sublist_iff.mp inside
    obtain ⟨between, after, rfl⟩ := List.append_of_mem (List.singleton_sublist.mp here)
    have absent : key ∉ first ++ between := by
      rw [← List.append_assoc] at nodup
      exact fun member => (List.nodup_append.mp nodup).2.2 key member key List.mem_cons_self rfl
    refine ⟨first ++ between ++ [key], after, by simp, ?_, by simp, ?_⟩
    · exact (earlier.trans (List.sublist_append_left _ _)).append (List.Sublist.refl [key])
    · rw [List.getLast?_concat, Option.getD_some, ← List.append_assoc, successor_append absent]

end Positions

/-! ## What has been visited -/

/-- The keys visited stand in the list in their order, and the keys of the beginning that have
not been visited stand behind them. -/
structure Walked (initial keys visited : List κ) : Prop where
  inside : visited.Sublist keys
  ahead : ∀ key ∈ initial, key ∈ visited ∨ ∀ last ∈ visited.getLast?, Precedes keys last key

namespace Walked

variable {initial keys keys' visited : List κ} {start : κ}

omit [DecidableEq κ] in
theorem nothing (initial keys : List κ) : Walked initial keys [] :=
  ⟨List.nil_sublist _, fun _ _ => Or.inr fun _ last => by cases last⟩

omit [DecidableEq κ] in
/-- Keys that are inserted change nothing. -/
theorem grows (walked : Walked initial keys visited) (more : keys.Sublist keys') :
    Walked initial keys' visited :=
  ⟨walked.inside.trans more, fun key member => (walked.ahead key member).imp_right
    fun behind last seen => (behind last seen).trans more⟩

omit [DecidableEq κ] in
/-- The keys of the beginning that have not been visited are in the rest of the list. -/
theorem mem_rest (walked : Walked initial keys visited) (nodup : keys.Nodup)
    (sub : initial ⊆ keys) {before after : List κ} (split : keys = before ++ after)
    (last : before.getLast? = visited.getLast?) {key : κ} (member : key ∈ initial)
    (unvisited : key ∉ visited) : key ∈ after := by
  rcases List.eq_nil_or_concat before with rfl | ⟨before, seen, rfl⟩
  · rw [split] at sub
    exact sub member
  · rw [List.concat_eq_append, List.getLast?_concat] at last
    have behind := (walked.ahead key member).resolve_left unvisited seen last.symm
    rw [split, List.concat_eq_append, List.append_assoc, List.singleton_append] at behind nodup
    exact (precedes_iff nodup).mp behind

/-- **One step of a walk.** -/
theorem next (walked : Walked initial keys visited) (nodup : keys.Nodup) (fresh : start ∉ keys)
    (sub : initial ⊆ keys) {key : κ}
    (found : successor keys (visited.getLast?.getD start) = some key) :
    Walked initial keys (visited ++ [key]) := by
  obtain ⟨before, after, split, earlier, last, position⟩ :=
    exists_position nodup fresh walked.inside
  rw [position] at found
  obtain ⟨after, rfl⟩ := List.head?_eq_some_iff.mp found
  refine ⟨?_, fun other member => ?_⟩
  · rw [split]
    exact earlier.append (List.singleton_sublist.mpr List.mem_cons_self)
  · by_cases visitedNow : other ∈ visited ++ [key]
    · exact Or.inl visitedNow
    · right
      intro last' seen
      rw [List.getLast?_concat] at seen
      cases seen
      have rest := walked.mem_rest nodup sub split last member
        fun earlier => visitedNow (List.mem_append_left _ earlier)
      have behind : other ∈ after := by
        rcases List.mem_cons.mp rest with rfl | behind
        · exact absurd (List.mem_append_right _ (List.mem_singleton_self _)) visitedNow
        · exact behind
      rw [split] at nodup ⊢
      exact (precedes_iff nodup).mpr behind

/-- **When no key is left all keys of the beginning have been visited.** -/
theorem all (walked : Walked initial keys visited) (nodup : keys.Nodup) (fresh : start ∉ keys)
    (sub : initial ⊆ keys) (ended : successor keys (visited.getLast?.getD start) = none) :
    initial ⊆ visited := by
  obtain ⟨before, after, split, earlier, last, position⟩ :=
    exists_position nodup fresh walked.inside
  rw [position, List.head?_eq_none_iff] at ended
  subst ended
  intro key member
  by_contra unvisited
  cases walked.mem_rest nodup sub split last member unvisited

end Walked

/-! ## The program -/

section Program

variable {M W σ : Type}

/-- Ask for the next key, visit it and go on, for at most so many keys. -/
def walkKeys (keysOf : M → List κ) (mark : W) (visit : κ → σ → Loads M W σ) :
    ℕ → κ → σ → Loads M W (Option σ)
  | 0, _, _ => pure none
  | turns + 1, key, s => do
      match ← Loads.read (fun m => successor (keysOf m) key) mark with
      | none => pure (some s)
      | some next => do
          let s ← visit next s
          walkKeys keysOf mark visit turns next s

/-- In a sound memory the keys are different and few, and writes only insert further ones. -/
structure GrowingKeys (write : W → M → M → Prop) (keysOf : M → List κ) (start : κ) (bound : ℕ)
    (sound : M → Prop) : Prop where
  stays : ∀ w m m', write w m m' → sound m → sound m'
  grows : ∀ w m m', write w m m' → sound m → (keysOf m).Sublist (keysOf m')
  nodup : ∀ m, sound m → (keysOf m).Nodup
  within : ∀ m, sound m → (keysOf m).length ≤ bound
  fresh : ∀ m, sound m → start ∉ keysOf m

variable {write : W → M → M → Prop} {keysOf : M → List κ} {start : κ} {bound : ℕ}
  {sound : M → Prop} {mark : W} {visit : κ → σ → Loads M W σ} {initial : List κ}
  {holds : List κ → M → σ → Prop}

/-- What a walk relies on between its loads. -/
structure Walking (keysOf : M → List κ) (sound : M → Prop) (initial : List κ)
    (holds : List κ → M → σ → Prop) (visited : List κ) (m : M) (s : σ) : Prop where
  sound : sound m
  sub : initial ⊆ keysOf m
  walked : Walked initial (keysOf m) visited
  holds : holds visited m s

omit [DecidableEq κ] in
theorem Walking.writes (growing : GrowingKeys write keysOf start bound sound)
    (kept : ∀ w m m' visited s, write w m m' → sound m → holds visited m s → holds visited m' s)
    {w : W} {m m' : M} {visited : List κ} {s : σ}
    (walking : Walking keysOf sound initial holds visited m s)
    (later : Loads.Writes write w m m') : Walking keysOf sound initial holds visited m' s := by
  induction later with
  | refl => exact walking
  | tail _ last ih =>
      have more := growing.grows _ _ _ last ih.sound
      exact ⟨growing.stays _ _ _ last ih.sound, List.Subset.trans ih.sub more.subset,
        ih.walked.grows more, kept _ _ _ _ _ last ih.sound ih.holds⟩

/-- **A walk visits every key that was there, and none twice**, and it ends, since it cannot
visit more keys than the list takes. -/
theorem walkKeys_meets (growing : GrowingKeys write keysOf start bound sound)
    (kept : ∀ w m m' visited s, write w m m' → sound m → holds visited m s → holds visited m' s)
    (visits : ∀ visited key m s, sound m → key ∈ keysOf m → key ∉ visited → holds visited m s →
      Loads.Meets write (fun _ m s => holds (visited ++ [key]) m s) (visit key s) mark m)
    (turns : ℕ) (visited : List κ) (s : σ) (w : W) (m : M)
    (enough : bound < visited.length + turns)
    (walking : Walking keysOf sound initial holds visited m s) :
    Loads.Meets write (fun _ m result => ∃ visited s, result = some s ∧ visited.Nodup ∧
        initial ⊆ visited ∧ visited ⊆ keysOf m ∧ holds visited m s)
      (walkKeys keysOf mark visit turns (visited.getLast?.getD start) s) w m := by
  induction turns generalizing visited s w m with
  | zero =>
      have few := walking.walked.inside.length_le
      have within := growing.within m walking.sound
      omega
  | succ turns ih =>
      refine Loads.Meets.read_bind fun m later => ?_
      have now := walking.writes growing kept later
      have nodup := growing.nodup m now.sound
      have fresh := growing.fresh m now.sound
      cases found : successor (keysOf m) (visited.getLast?.getD start) with
      | none =>
          have all := now.walked.all nodup fresh now.sub found
          refine Loads.Meets.pure fun m' further => ?_
          have afterwards := now.writes growing kept further
          exact ⟨visited, s, rfl, nodup.sublist now.walked.inside, all,
            afterwards.walked.inside.subset, afterwards.holds⟩
      | some key =>
          have walked := now.walked.next nodup fresh now.sub found
          have member : key ∈ keysOf m := walked.inside.subset (by simp)
          have unvisited : key ∉ visited := fun seen =>
            (List.nodup_append.mp (nodup.sublist walked.inside)).2.2 key seen key (by simp) rfl
          have visitedKey := (visits visited key m s now.sound member unvisited now.holds).keeps
            (fun m' => sound m' ∧ initial ⊆ keysOf m' ∧
              Walked initial (keysOf m') (visited ++ [key]))
            (fun w m m' writes good => by
              have more := growing.grows w m m' writes good.1
              exact ⟨growing.stays w m m' writes good.1, List.Subset.trans good.2.1 more.subset,
                good.2.2.grows more⟩)
            ⟨now.sound, now.sub, walked⟩
          refine Loads.Meets.bind (visitedKey.mono fun w m s after => ?_)
          obtain ⟨⟨sound, sub, walked⟩, holds⟩ := after
          have rest := ih (visited ++ [key]) s w m (by rw [List.length_append]; simp; omega)
            ⟨sound, sub, walked, holds⟩
          rw [List.getLast?_concat, Option.getD_some] at rest
          exact rest

end Program

end LinuxMonitor.Library
