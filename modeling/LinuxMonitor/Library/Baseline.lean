import Mathlib.Data.List.AList
import Mathlib.Data.List.Induction
import Mathlib.Data.List.Chain

/-!
# Samples compared with the previous sample of the same key

A monitor visits keyed samples one after the other.  For each it looks up the sample
it stored under the same key, computes an output from the two, and stores the new
sample in place of the old one.

The outputs for one key depend on the samples of that key alone, whatever other keys
are visited in between (`ofKey_sweep`): they are the outputs of a monitor that sees
only those samples (`alone`).  What is stored for a key is its last sample
(`lookup_sweep`).
-/

set_option autoImplicit false

namespace LinuxMonitor.Library

variable {κ σ ω : Type*} [DecidableEq κ]

/-- Visit the samples in order.  `emit` makes the output from the stored sample of the
key, if there is one, and the new sample. -/
def sweep (emit : Option σ → σ → ω) :
    List (κ × σ) → AList (fun _ : κ => σ) → List (κ × ω) × AList (fun _ : κ => σ)
  | [], cache => ([], cache)
  | (k, x) :: samples, cache =>
      let (outputs, final) := sweep emit samples (cache.insert k x)
      ((k, emit (cache.lookup k) x) :: outputs, final)

/-- The outputs of the samples of one key, after the given one. -/
def alone (emit : Option σ → σ → ω) : Option σ → List σ → List ω
  | _, [] => []
  | previous, x :: samples => emit previous x :: alone emit (some x) samples

/-- What a list of keyed items holds for one key. -/
def ofKey {β : Type*} (k : κ) (items : List (κ × β)) : List β :=
  (items.filter fun item => item.1 = k).map Prod.snd

/-! ## One key at a time -/

section OfKey

variable {β : Type*}

theorem ofKey_cons_self (k : κ) (b : β) (items : List (κ × β)) :
    ofKey k ((k, b) :: items) = b :: ofKey k items := by
  simp [ofKey]

theorem ofKey_cons_of_ne {k k' : κ} (other : k' ≠ k) (b : β) (items : List (κ × β)) :
    ofKey k ((k', b) :: items) = ofKey k items := by
  simp [ofKey, other]

theorem ofKey_append (k : κ) (items others : List (κ × β)) :
    ofKey k (items ++ others) = ofKey k items ++ ofKey k others := by
  simp [ofKey]

theorem ofKey_flatMap {γ : Type*} (k : κ) (f : γ → List (κ × β)) (sources : List γ) :
    ofKey k (sources.flatMap f) = sources.flatMap fun source => ofKey k (f source) := by
  induction sources with
  | nil => rfl
  | cons source sources ih => rw [List.flatMap_cons, ofKey_append, ih, List.flatMap_cons]

/-- An association list holds what it looks up. -/
theorem ofKey_entries (k : κ) (f : κ → σ → β) (s : AList (fun _ : κ => σ)) :
    ofKey k (s.entries.map fun e => (e.1, f e.1 e.2)) = ((s.lookup k).map (f k)).toList := by
  obtain ⟨entries, unrepeated⟩ := s
  change _ = ((List.dlookup k entries).map (f k)).toList
  induction entries with
  | nil => rfl
  | cons e entries ih =>
      obtain ⟨k', x⟩ := e
      have rest := List.nodupKeys_cons.mp unrepeated
      have tail := ih rest.2
      by_cases same : k' = k
      · subst same
        have absent : List.dlookup k' entries = none := List.dlookup_eq_none.mpr rest.1
        rw [absent] at tail
        rw [List.map_cons, ofKey_cons_self, tail, List.dlookup_cons_eq]
        rfl
      · rw [List.map_cons, ofKey_cons_of_ne same, tail, List.dlookup_cons_ne _ _ (Ne.symm same)]

end OfKey

/-! ## The outputs of a sweep -/

theorem sweep_cons (emit : Option σ → σ → ω) (k : κ) (x : σ) (samples : List (κ × σ))
    (cache : AList (fun _ : κ => σ)) :
    sweep emit ((k, x) :: samples) cache =
      ((k, emit (cache.lookup k) x) :: (sweep emit samples (cache.insert k x)).1,
        (sweep emit samples (cache.insert k x)).2) := rfl

/-- What the outputs say of their samples alone does not depend on the cache. -/
theorem map_sweep {τ : Type*} {emit : Option σ → σ → ω} {g : ω → τ} {h : σ → τ}
    (each : ∀ previous x, g (emit previous x) = h x) (samples : List (κ × σ))
    (cache : AList (fun _ : κ => σ)) :
    (sweep emit samples cache).1.map (fun output => g output.2) =
      samples.map fun sample => h sample.2 := by
  induction samples generalizing cache with
  | nil => rfl
  | cons sample samples ih =>
      obtain ⟨k, x⟩ := sample
      rw [sweep_cons, List.map_cons, List.map_cons, each, ih]

theorem sweep_append (emit : Option σ → σ → ω) (samples others : List (κ × σ))
    (cache : AList (fun _ : κ => σ)) :
    sweep emit (samples ++ others) cache =
      ((sweep emit samples cache).1 ++ (sweep emit others (sweep emit samples cache).2).1,
        (sweep emit others (sweep emit samples cache).2).2) := by
  induction samples generalizing cache with
  | nil => rfl
  | cons sample samples ih =>
      obtain ⟨k, x⟩ := sample
      rw [List.cons_append, sweep_cons, ih, sweep_cons]
      rfl

/-- **The outputs for a key are those of its own samples alone.** -/
theorem ofKey_sweep (emit : Option σ → σ → ω) (k : κ) (samples : List (κ × σ))
    (cache : AList (fun _ : κ => σ)) :
    ofKey k (sweep emit samples cache).1 = alone emit (cache.lookup k) (ofKey k samples) := by
  induction samples generalizing cache with
  | nil => rfl
  | cons sample samples ih =>
      obtain ⟨k', x⟩ := sample
      have rest := ih (cache.insert k' x)
      rw [sweep_cons]
      by_cases same : k' = k
      · subst same
        rw [AList.lookup_insert] at rest
        rw [ofKey_cons_self, ofKey_cons_self, rest, alone]
      · rw [AList.lookup_insert_ne (Ne.symm same)] at rest
        rw [ofKey_cons_of_ne same, ofKey_cons_of_ne same, rest]

/-- **After a sweep the last sample of each key is stored.** -/
theorem lookup_sweep (emit : Option σ → σ → ω) (k : κ) (samples : List (κ × σ))
    (cache : AList (fun _ : κ => σ)) :
    (sweep emit samples cache).2.lookup k =
      ((ofKey k samples).getLast?).or (cache.lookup k) := by
  induction samples generalizing cache with
  | nil => rfl
  | cons sample samples ih =>
      obtain ⟨k', x⟩ := sample
      rw [sweep_cons, ih]
      by_cases same : k' = k
      · subst same
        rw [AList.lookup_insert, ofKey_cons_self, List.getLast?_cons]
        cases (ofKey k' samples).getLast? <;> rfl
      · rw [AList.lookup_insert_ne (Ne.symm same), ofKey_cons_of_ne same]

/-- When each key occurs once, every output refers to what was stored before. -/
theorem sweep_of_nodup (emit : Option σ → σ → ω) {samples : List (κ × σ)}
    (once : (samples.map Prod.fst).Nodup) (cache : AList (fun _ : κ => σ)) :
    (sweep emit samples cache).1 =
      samples.map fun sample => (sample.1, emit (cache.lookup sample.1) sample.2) := by
  induction samples generalizing cache with
  | nil => rfl
  | cons sample samples ih =>
      obtain ⟨k, x⟩ := sample
      rw [List.map_cons, List.nodup_cons] at once
      rw [sweep_cons, ih once.2, List.map_cons]
      refine congrArg (List.cons _) (List.map_congr_left ?_)
      intro other member
      have apart : other.1 ≠ k := by
        intro same
        exact once.1 (List.mem_map.mpr ⟨other, member, same⟩)
      rw [AList.lookup_insert_ne apart]

/-- Every output is made from a sample of its key. -/
theorem exists_of_mem_sweep {emit : Option σ → σ → ω} {samples : List (κ × σ)}
    {cache : AList (fun _ : κ => σ)} {output : κ × ω}
    (member : output ∈ (sweep emit samples cache).1) :
    ∃ sample ∈ samples, ∃ previous, output = (sample.1, emit previous sample.2) := by
  induction samples generalizing cache with
  | nil => cases member
  | cons sample samples ih =>
      obtain ⟨k, x⟩ := sample
      rw [sweep_cons] at member
      rcases List.mem_cons.mp member with rfl | later
      · exact ⟨(k, x), List.mem_cons_self, _, rfl⟩
      · obtain ⟨other, inside, previous, made⟩ := ih later
        exact ⟨other, List.mem_cons_of_mem _ inside, previous, made⟩

/-- The current sample of a key among some samples, and the last one before it, which may be
among the earlier ones. -/
def Follows (earlier samples : List (κ × σ)) (k : κ) (last : Option σ) (current : σ) : Prop :=
  ∃ before after, samples = before ++ (k, current) :: after ∧
    last = (ofKey k (earlier ++ before)).getLast?

/-- **Every output compares a sample with the one before it.** -/
theorem follows_of_mem_sweep {emit : Option σ → σ → ω} {earlier samples : List (κ × σ)}
    {output : κ × ω} (member : output ∈ (sweep emit samples (sweep emit earlier ∅).2).1) :
    ∃ k last current, Follows earlier samples k last current ∧
      output = (k, emit last current) := by
  induction samples generalizing earlier with
  | nil => cases member
  | cons sample samples ih =>
      obtain ⟨k, x⟩ := sample
      have grown : (sweep emit earlier ∅).2.insert k x =
          (sweep emit (earlier ++ [(k, x)]) ∅).2 := by
        rw [sweep_append]
        rfl
      rw [sweep_cons, grown] at member
      rcases List.mem_cons.mp member with rfl | later
      · refine ⟨k, _, x, ⟨[], samples, rfl, ?_⟩, rfl⟩
        rw [List.append_nil, lookup_sweep]
        exact Option.or_none
      · obtain ⟨k', last, current, ⟨before, after, split, own⟩, made⟩ := ih later
        refine ⟨k', last, current, ⟨(k, x) :: before, after, by rw [split]; rfl, ?_⟩, made⟩
        rw [own, List.append_assoc]
        rfl

/-- Items that carry their key are found by it. -/
theorem ofKey_eq_filter {β : Type*} {keyOf : β → κ} {items : List (κ × β)}
    (carried : ∀ item ∈ items, keyOf item.2 = item.1) (k : κ) :
    ofKey k items = (items.map Prod.snd).filter fun b => keyOf b = k := by
  induction items with
  | nil => rfl
  | cons item items ih =>
      obtain ⟨k', b⟩ := item
      have rest := ih fun other member => carried other (List.mem_cons_of_mem _ member)
      have key : keyOf b = k' := carried (k', b) List.mem_cons_self
      by_cases same : k' = k
      · subst same
        rw [ofKey_cons_self, rest, List.map_cons, List.filter_cons_of_pos (by simpa using key)]
      · have other : ¬ keyOf b = k := fun found => same (key.symm.trans found)
        rw [ofKey_cons_of_ne same, rest, List.map_cons,
          List.filter_cons_of_neg (by simpa using other)]

/-! ## Consecutive elements of one kind -/

/-- The elements of a kind are a chain when each is related to the last one before it. -/
theorem isChain_filter_iff {α : Type*} {p : α → Bool} {R : α → α → Prop} {xs : List α} :
    (xs.filter p).IsChain R ↔ ∀ before x after, xs = before ++ x :: after → p x →
      ∀ last ∈ (before.filter p).getLast?, R last x := by
  induction xs using List.reverseRecOn with
  | nil => simp
  | append_singleton xs y ih =>
      have snoc : ((xs ++ [y]).filter p).IsChain R ↔
          (xs.filter p).IsChain R ∧ (p y → ∀ last ∈ (xs.filter p).getLast?, R last y) := by
        rw [List.filter_append, List.isChain_append]
        by_cases kept : p y <;> simp [kept]
      rw [snoc, ih]
      constructor
      · rintro ⟨inside, final⟩ before x after split
        rcases List.eq_nil_or_concat after with rfl | ⟨after, z, rfl⟩
        · obtain ⟨rfl, same⟩ := List.append_inj' split rfl
          cases same
          exact final
        · apply inside before x after
          have shifted : xs ++ [y] = (before ++ x :: after) ++ [z] := by simpa using split
          exact (List.append_inj' shifted rfl).1
      · intro all
        refine ⟨fun before x after split => all before x (after ++ [y]) (by simp [split]), ?_⟩
        exact all xs y [] rfl

/-! ## The outputs for one key -/

@[simp] theorem length_alone (emit : Option σ → σ → ω) (previous : Option σ)
    (samples : List σ) : (alone emit previous samples).length = samples.length := by
  induction samples generalizing previous with
  | nil => rfl
  | cons x samples ih => rw [alone, List.length_cons, ih, List.length_cons]

/-- An output compares its sample with the one before it. -/
theorem getElem?_alone_succ {emit : Option σ → σ → ω} {previous : Option σ} {samples : List σ}
    {i : ℕ} {x y : σ} (here : samples[i]? = some x) (next : samples[i + 1]? = some y) :
    (alone emit previous samples)[i + 1]? = some (emit (some x) y) := by
  induction samples generalizing previous i with
  | nil => cases here
  | cons z samples ih =>
      rw [alone, List.getElem?_cons_succ]
      rw [List.getElem?_cons_succ] at next
      cases i with
      | zero =>
          cases here
          cases samples with
          | nil => cases next
          | cons w samples =>
              cases next
              rfl
      | succ i => exact ih here next

omit [DecidableEq κ] in
/-- What is read off the outputs depends only on what it reads off the samples. -/
theorem map_alone {τ υ : Type*} {emit : Option σ → σ → ω} {emit' : Option τ → τ → υ}
    {g : ω → υ} {h : σ → τ}
    (factors : ∀ previous x, g (emit previous x) = emit' (previous.map h) (h x))
    (previous : Option σ) (samples : List σ) :
    (alone emit previous samples).map g = alone emit' (previous.map h) (samples.map h) := by
  induction samples generalizing previous with
  | nil => rfl
  | cons x samples ih =>
      rw [alone, List.map_cons, factors, ih, List.map_cons, alone]
      rfl

end LinuxMonitor.Library
