import Mathlib.Data.List.AList
import Mathlib.Data.Finset.Card

/-!
# A store that keeps the last item under each key

The records of items are stored under a key computed from the item, and a later item
replaces an earlier one of the same key.  The store is an association list without
repeated keys (`AList`).

* `lookup_storeAll`: under each key the store holds the record of the last item of
  that key.
* `values_storeAll_perm`: the stored records are those of the last items of the keys
  that occur, each once.
* `lookup_keepKeys`: what is left when keys are removed.
* `values_storeAll_append_replaced`: what is stored and what is replaced are together the
  items.
* `values_perm_latest_iff`: **when the items come from writers that each use one
  key, the store holds exactly the last record of each writer if and only if no two
  writers use the same key.**
-/

set_option autoImplicit false

namespace LinuxMonitor.Library

variable {α ι κ ρ : Type*} [DecidableEq ι] [DecidableEq κ]

/-- The last item with the given key. -/
def latest (keyOf : α → κ) (k : κ) (items : List α) : Option α :=
  (items.filter fun item => keyOf item = k).getLast?

/-- The records of an association list. -/
def values (s : AList (fun _ : κ => ρ)) : List ρ := s.entries.map Sigma.snd

/-- Store the records of the items one after the other. -/
def storeAll (keyOf : α → κ) (record : α → ρ) (items : List α) (s : AList (fun _ : κ => ρ)) :
    AList (fun _ : κ => ρ) :=
  items.foldl (fun s item => s.insert (keyOf item) (record item)) s

/-! ## The last item -/

theorem latest_concat (keyOf : α → κ) (k : κ) (items : List α) (item : α) :
    latest keyOf k (items ++ [item]) =
      if keyOf item = k then some item else latest keyOf k items := by
  by_cases same : keyOf item = k
  · simp [latest, same]
  · simp [latest, same]

theorem latest_eq_none_iff {keyOf : α → κ} {k : κ} {items : List α} :
    latest keyOf k items = none ↔ ∀ item ∈ items, keyOf item ≠ k := by
  simp [latest]

theorem exists_latest {keyOf : α → κ} {k : κ} {items : List α} (occurs : k ∈ items.map keyOf) :
    ∃ item, latest keyOf k items = some item := by
  obtain ⟨item, inside, same⟩ := List.mem_map.mp occurs
  apply Option.ne_none_iff_exists'.mp
  intro missing
  exact latest_eq_none_iff.mp missing item inside same

/-- The last item with a key is one of the items, and it has the key. -/
theorem mem_of_latest {keyOf : α → κ} {k : κ} {items : List α} {item : α}
    (last : latest keyOf k items = some item) : item ∈ items ∧ keyOf item = k := by
  obtain ⟨member, same⟩ := List.mem_filter.mp (List.mem_of_getLast? last)
  exact ⟨member, of_decide_eq_true same⟩

/-- Two keys that select the same items select the same last item. -/
theorem latest_congr {keyOf : α → κ} {writer : α → ι} {k : κ} {i : ι} {items : List α}
    (same : ∀ item ∈ items, writer item = i ↔ keyOf item = k) :
    latest writer i items = latest keyOf k items := by
  unfold latest
  congr 1
  apply List.filter_congr
  intro item member
  simp [same item member]

/-! ## The contents of the store -/

section Contents

variable (keyOf : α → κ) (record : α → ρ) (items : List α)

theorem storeAll_concat (item : α) (s : AList (fun _ : κ => ρ)) :
    storeAll keyOf record (items ++ [item]) s =
      (storeAll keyOf record items s).insert (keyOf item) (record item) := by
  simp [storeAll]

/-- Storing what a function makes of the items. -/
theorem storeAll_map {β : Type*} (f : β → α) (sources : List β) (s : AList (fun _ : κ => ρ)) :
    storeAll keyOf record (sources.map f) s = storeAll (keyOf ∘ f) (record ∘ f) sources s := by
  rw [storeAll, List.foldl_map]
  rfl

/-- **Under each key the store holds the record of the last item of that key.** -/
theorem lookup_storeAll (k : κ) :
    (storeAll keyOf record items ∅).lookup k = (latest keyOf k items).map record := by
  induction items using List.reverseRecOn with
  | nil => rfl
  | append_singleton items item ih =>
      rw [storeAll_concat, latest_concat]
      by_cases same : keyOf item = k
      · subst same
        rw [AList.lookup_insert, if_pos rfl]
        rfl
      · rw [AList.lookup_insert_ne (Ne.symm same), if_neg same, ih]

theorem mem_keys_storeAll {k : κ} :
    k ∈ (storeAll keyOf record items ∅).keys ↔ k ∈ items.map keyOf := by
  rw [← AList.mem_keys, ← AList.lookup_isSome, lookup_storeAll, Option.isSome_map,
    Option.isSome_iff_ne_none, ne_eq, latest_eq_none_iff]
  simp

/-- Items with keys of their own are all stored. -/
theorem entries_storeAll_of_nodup {keyOf : α → κ} {items : List α}
    (nodup : (items.map keyOf).Nodup) :
    (storeAll keyOf record items ∅).entries.Perm
      (items.map fun item => ⟨keyOf item, record item⟩) := by
  induction items using List.reverseRecOn with
  | nil => exact List.Perm.refl _
  | append_singleton items item ih =>
      rw [List.map_append, List.map_singleton, List.nodup_append] at nodup
      have absent : keyOf item ∉ storeAll keyOf record items ∅ := by
        rw [AList.mem_keys, mem_keys_storeAll]
        exact fun member => nodup.2.2 _ member _ (List.mem_singleton_self _) rfl
      rw [storeAll_concat, AList.entries_insert_of_notMem absent, List.map_append,
        List.map_singleton]
      exact ((ih nodup.1).cons _).trans (List.perm_append_singleton _ _).symm

/-- The records of a store are what its keys look up. -/
theorem values_eq_filterMap (s : AList (fun _ : κ => ρ)) :
    values s = s.keys.filterMap s.lookup := by
  have found : ∀ e ∈ s.entries, s.lookup e.1 = some e.2 := by
    intro e member
    exact AList.mem_lookup_iff.mpr member
  have keys : s.keys = s.entries.map Sigma.fst := rfl
  rw [keys, List.filterMap_map, values]
  have looked : s.entries.filterMap (s.lookup ∘ Sigma.fst) =
      s.entries.filterMap (some ∘ fun e => e.2) :=
    List.filterMap_congr fun e member => found e member
  rw [looked, List.filterMap_eq_map]

theorem mem_values_of_lookup {s : AList (fun _ : κ => ρ)} {k : κ} {r : ρ}
    (found : s.lookup k = some r) : r ∈ values s := by
  rw [values_eq_filterMap]
  have member : k ∈ s.keys := AList.mem_keys.mp (AList.lookup_isSome.mp (by rw [found]; rfl))
  exact List.mem_filterMap.mpr ⟨k, member, found⟩

/-- When the key of an item can be read off its record, the stored records have the keys of
the store. -/
theorem map_values_storeAll {key : ρ → κ} (keyed : ∀ item, key (record item) = keyOf item) :
    (values (storeAll keyOf record items ∅)).map key = (storeAll keyOf record items ∅).keys := by
  rw [values_eq_filterMap, List.map_filterMap]
  have looked : ∀ k ∈ (storeAll keyOf record items ∅).keys,
      ((storeAll keyOf record items ∅).lookup k).map key = some k := by
    intro k member
    obtain ⟨item, last⟩ := exists_latest ((mem_keys_storeAll keyOf record items).mp member)
    rw [lookup_storeAll, last, Option.map_some, Option.map_some, keyed, (mem_of_latest last).2]
  rw [List.filterMap_congr looked, List.filterMap_some]

/-- A stored record is that of the last item of its key. -/
theorem latest_of_mem_values {r : ρ} (member : r ∈ values (storeAll keyOf record items ∅)) :
    ∃ item, r = record item ∧ latest keyOf (keyOf item) items = some item := by
  rw [values_eq_filterMap] at member
  obtain ⟨k, _, found⟩ := List.mem_filterMap.mp member
  rw [lookup_storeAll] at found
  obtain ⟨item, last, rfl⟩ := Option.map_eq_some_iff.mp found
  exact ⟨item, rfl, (mem_of_latest last).2.symm ▸ last⟩

/-- The keys of a store depend on the keys of the items alone. -/
theorem keys_storeAll (s : AList (fun _ : κ => ρ)) :
    (storeAll keyOf record items s).keys =
      items.foldl (fun keys item => keyOf item :: keys.erase (keyOf item)) s.keys := by
  induction items generalizing s with
  | nil => rfl
  | cons item items ih =>
      rw [List.foldl_cons, ← AList.keys_insert (b := record item)]
      exact ih _

/-- The records of a store are made of the stored items. -/
theorem values_storeAll_eq_map :
    values (storeAll keyOf record items ∅) = (values (storeAll keyOf id items ∅)).map record := by
  have keys : (storeAll keyOf record items ∅).keys = (storeAll keyOf id items ∅).keys := by
    rw [keys_storeAll, keys_storeAll]
    rfl
  rw [values_eq_filterMap, values_eq_filterMap, keys, List.map_filterMap]
  apply List.filterMap_congr
  intro k _
  rw [lookup_storeAll, lookup_storeAll, Option.map_id, id]

/-- An item is stored exactly when it is the last one of its key. -/
theorem mem_values_storeAll_iff {item : α} :
    item ∈ values (storeAll keyOf id items ∅) ↔ latest keyOf (keyOf item) items = some item := by
  constructor
  · intro member
    obtain ⟨item', rfl, last⟩ := latest_of_mem_values _ _ _ member
    exact last
  · intro last
    rw [values_eq_filterMap]
    refine List.mem_filterMap.mpr ⟨keyOf item, ?_, ?_⟩
    · exact (mem_keys_storeAll keyOf id items).mpr
        (List.mem_map_of_mem (mem_of_latest last).1)
    · rw [lookup_storeAll, last]
      rfl

/-- The keys of the store are the keys that occur, each once. -/
theorem keys_storeAll_perm :
    (storeAll keyOf record items ∅).keys.Perm (items.map keyOf).dedup := by
  rw [List.perm_ext_iff_of_nodup (AList.keys_nodup _) (List.nodup_dedup _)]
  intro k
  rw [mem_keys_storeAll, List.mem_dedup]

/-- **The store holds the records of the last items of the keys that occur.** -/
theorem values_storeAll_perm :
    (values (storeAll keyOf record items ∅)).Perm
      ((items.map keyOf).dedup.filterMap fun k => (latest keyOf k items).map record) := by
  rw [values_eq_filterMap]
  have looked : (storeAll keyOf record items ∅).lookup =
      fun k => (latest keyOf k items).map record :=
    funext (lookup_storeAll keyOf record items)
  rw [looked]
  exact (keys_storeAll_perm keyOf record items).filterMap _

/-- Each key that occurs has a last item. -/
theorem length_filterMap_latest :
    ((items.map keyOf).dedup.filterMap fun k => (latest keyOf k items).map record).length =
      (items.map keyOf).dedup.length := by
  rw [List.length_filterMap_eq_countP, List.countP_eq_length]
  intro k member
  obtain ⟨item, found⟩ := exists_latest (List.mem_dedup.mp member)
  rw [found]
  rfl

/-! ### Items that a later one replaces -/

/-- The items that a later one of the same key replaces. -/
def replaced (keyOf : α → κ) : List α → List α
  | [] => []
  | item :: items =>
      if keyOf item ∈ items.map keyOf then item :: replaced keyOf items else replaced keyOf items

/-- The items that no later one replaces. -/
def kept (keyOf : α → κ) : List α → List α
  | [] => []
  | item :: items =>
      if keyOf item ∈ items.map keyOf then kept keyOf items else item :: kept keyOf items

theorem kept_append_replaced : (kept keyOf items ++ replaced keyOf items).Perm items := by
  induction items with
  | nil => exact List.Perm.refl _
  | cons item items ih =>
      rw [kept, replaced]
      split
      · exact List.perm_middle.trans (ih.cons item)
      · exact ih.cons item

theorem mem_keys_kept {k : κ} : k ∈ (kept keyOf items).map keyOf ↔ k ∈ items.map keyOf := by
  induction items with
  | nil => rfl
  | cons item items ih =>
      rw [kept, List.map_cons, List.mem_cons]
      split
      · next later =>
          rw [ih]
          constructor
          · exact Or.inr
          · rintro (rfl | member)
            · exact later
            · exact member
      · rw [List.map_cons, List.mem_cons, ih]

theorem nodup_keys_kept : ((kept keyOf items).map keyOf).Nodup := by
  induction items with
  | nil => exact List.nodup_nil
  | cons item items ih =>
      rw [kept]
      split
      · exact ih
      · next last =>
          rw [List.map_cons, List.nodup_cons, mem_keys_kept]
          exact ⟨last, ih⟩

/-- The last item of a key is not replaced. -/
theorem latest_kept (k : κ) : latest keyOf k (kept keyOf items) = latest keyOf k items := by
  have cons : ∀ (item : α) (items : List α), latest keyOf k (item :: items) =
      (latest keyOf k items).or (if keyOf item = k then some item else none) := by
    intro item items
    by_cases same : keyOf item = k
    · rw [latest, List.filter_cons_of_pos (by simpa using same), List.getLast?_cons, if_pos same,
        latest]
      cases (items.filter fun other => keyOf other = k).getLast? <;> rfl
    · rw [latest, List.filter_cons_of_neg (by simpa using same), if_neg same, Option.or_none,
        latest]
  induction items with
  | nil => rfl
  | cons item items ih =>
      rw [kept, cons]
      split
      · next later =>
          rw [ih]
          by_cases same : keyOf item = k
          · obtain ⟨last, found⟩ := exists_latest (same ▸ later)
            rw [found]
            rfl
          · rw [if_neg same, Option.or_none]
      · rw [cons, ih]

/-- **What is stored and what is replaced are together the items.** -/
theorem values_storeAll_append_replaced :
    (values (storeAll keyOf record items ∅) ++ (replaced keyOf items).map record).Perm
      (items.map record) := by
  have same : (storeAll keyOf record items ∅).entries.Perm
      (storeAll keyOf record (kept keyOf items) ∅).entries := by
    apply List.lookup_ext (AList.nodupKeys _) (AList.nodupKeys _)
    intro k r
    have first := lookup_storeAll keyOf record items k
    have second := lookup_storeAll keyOf record (kept keyOf items) k
    rw [AList.lookup] at first second
    rw [first, second, latest_kept]
  have stored := same.trans (entries_storeAll_of_nodup record (nodup_keys_kept keyOf items))
  have held := stored.map Sigma.snd
  rw [List.map_map] at held
  have whole := (kept_append_replaced keyOf items).map record
  rw [List.map_append] at whole
  exact (held.append_right _).trans whole

end Contents

/-! ## Places -/

section Places

variable {keyOf : α → κ} {items : List α}

/-- The `j`-th item is the last one with its key. -/
def LastAt (keyOf : α → κ) (items : List α) (j : ℕ) (x : α) : Prop :=
  items[j]? = some x ∧ ∀ j' y, j < j' → items[j']? = some y → keyOf y ≠ keyOf x

theorem getElem?_concat_eq_some_iff {item x : α} {j : ℕ} :
    (items ++ [item])[j]? = some x ↔ items[j]? = some x ∨ j = items.length ∧ item = x := by
  rcases Nat.lt_trichotomy j items.length with below | rfl | above
  · rw [List.getElem?_append_left below]
    exact (or_iff_left fun final => below.ne final.1).symm
  · rw [List.getElem?_concat_length, List.getElem?_eq_none le_rfl, Option.some.injEq]
    simp
  · rw [List.getElem?_eq_none above.le, List.getElem?_eq_none]
    · simp [above.ne']
    · rw [List.length_append, List.length_singleton]
      exact above

theorem lastAt_concat_iff {item x : α} {j : ℕ} :
    LastAt keyOf (items ++ [item]) j x ↔
      if keyOf item = keyOf x then x = item ∧ j = items.length else LastAt keyOf items j x := by
  have below : ∀ {i y}, items[i]? = some y → i < items.length :=
    fun found => (List.getElem?_eq_some_iff.mp found).1
  simp only [LastAt, getElem?_concat_eq_some_iff]
  split
  · next same =>
      constructor
      · rintro ⟨inside | ⟨last, equal⟩, later⟩
        · exact absurd same (later items.length item (below inside) (Or.inr ⟨rfl, rfl⟩))
        · exact ⟨equal.symm, last⟩
      · rintro ⟨rfl, rfl⟩
        refine ⟨Or.inr ⟨rfl, rfl⟩, fun j' y after found => ?_⟩
        rcases found with inside | ⟨last, _⟩
        · exact absurd (below inside) after.le.not_gt
        · exact absurd last after.ne'
  · next other =>
      constructor
      · rintro ⟨inside | ⟨_, equal⟩, later⟩
        · exact ⟨inside, fun j' y after here => later j' y after (Or.inl here)⟩
        · exact absurd (congrArg keyOf equal) other
      · rintro ⟨inside, later⟩
        refine ⟨Or.inl inside, fun j' y after here => ?_⟩
        rcases here with here | ⟨_, rfl⟩
        · exact later j' y after here
        · exact other

/-- An item stays the last one with its key while other keys follow. -/
theorem LastAt.append {others : List α} {j : ℕ} {x : α} (last : LastAt keyOf items j x)
    (apart : ∀ y ∈ others, keyOf y ≠ keyOf x) : LastAt keyOf (items ++ others) j x := by
  induction others using List.reverseRecOn with
  | nil => rwa [List.append_nil]
  | append_singleton others item ih =>
      rw [← List.append_assoc, lastAt_concat_iff, if_neg (apart item (by simp))]
      exact ih fun y member => apart y (List.mem_append_left _ member)

/-- **The last item of a key stands at the last place of the key.** -/
theorem latest_zipIdx_iff {x : α} {j : ℕ} :
    latest (fun place : α × ℕ => keyOf place.1) (keyOf x) items.zipIdx = some (x, j) ↔
      LastAt keyOf items j x := by
  induction items using List.reverseRecOn with
  | nil => exact iff_of_false (by simp [latest]) fun last => by cases last.1
  | append_singleton items item ih =>
      rw [List.zipIdx_append, Nat.zero_add, List.zipIdx_singleton, latest_concat,
        lastAt_concat_iff]
      split
      · rw [Option.some.injEq, Prod.mk.injEq, eq_comm (a := item), eq_comm (b := j)]
      · exact ih

end Places

/-! ## Writers -/

section Writers

variable {keyOf : α → κ} {record : α → ρ} {writer : α → ι} {name : ι → κ} {items : List α}

/-- Writers with a common key leave fewer records than writers. -/
theorem injOn_of_values_perm_latest (uses : ∀ item ∈ items, keyOf item = name (writer item))
    (exact : (values (storeAll keyOf record items ∅)).Perm
      ((items.map writer).dedup.filterMap fun i => (latest writer i items).map record)) :
    Set.InjOn name {i | i ∈ items.map writer} := by
  have keyed : items.map keyOf = (items.map writer).map name := by
    rw [List.map_map]
    exact List.map_congr_left uses
  have count : (items.map keyOf).dedup.length = (items.map writer).dedup.length := by
    rw [← length_filterMap_latest keyOf record, ← length_filterMap_latest writer record]
    exact (values_storeAll_perm keyOf record items).symm.length_eq.trans exact.length_eq
  have image : ((items.map writer).map name).toFinset = (items.map writer).toFinset.image name := by
    ext k
    simp
  rw [keyed, ← List.card_toFinset, ← List.card_toFinset, image, Finset.card_image_iff] at count
  intro i inside j inside' same
  exact count (List.mem_toFinset.mpr inside) (List.mem_toFinset.mpr inside') same

/-- Writers with different keys keep the records of their last items. -/
theorem values_perm_latest (uses : ∀ item ∈ items, keyOf item = name (writer item))
    (apart : Set.InjOn name {i | i ∈ items.map writer}) :
    (values (storeAll keyOf record items ∅)).Perm
      ((items.map writer).dedup.filterMap fun i => (latest writer i items).map record) := by
  have keyed : items.map keyOf = (items.map writer).map name := by
    rw [List.map_map]
    exact List.map_congr_left uses
  have occurring : (items.map keyOf).dedup.Perm ((items.map writer).dedup.map name) := by
    have unrepeated : ((items.map writer).dedup.map name).Nodup := by
      refine List.Nodup.map_on ?_ (List.nodup_dedup _)
      intro i inside j inside' same
      exact apart (List.mem_dedup.mp inside) (List.mem_dedup.mp inside') same
    rw [List.perm_ext_iff_of_nodup (List.nodup_dedup _) unrepeated]
    intro k
    rw [List.mem_dedup, keyed]
    simp only [List.mem_map, List.mem_dedup]
  refine (values_storeAll_perm keyOf record items).trans ((occurring.filterMap _).trans ?_)
  rw [List.filterMap_map]
  apply List.Perm.of_eq
  apply List.filterMap_congr
  intro i inside
  refine congrArg (Option.map record) (latest_congr ?_).symm
  intro item member
  rw [uses item member]
  constructor
  · rintro rfl
    rfl
  · intro same
    exact apart (List.mem_map_of_mem member) (List.mem_dedup.mp inside) same

/-- **The store holds exactly the last record of each writer if and only if no two
writers use the same key.** -/
theorem values_perm_latest_iff (keyOf : α → κ) (record : α → ρ) (writer : α → ι) (name : ι → κ)
    (items : List α) (uses : ∀ item ∈ items, keyOf item = name (writer item)) :
    (values (storeAll keyOf record items ∅)).Perm
        ((items.map writer).dedup.filterMap fun i => (latest writer i items).map record) ↔
      Set.InjOn name {i | i ∈ items.map writer} :=
  ⟨injOn_of_values_perm_latest uses, values_perm_latest uses⟩

end Writers

/-! ## Removing keys -/

/-- The records whose keys satisfy a condition. -/
def keepKeys (p : κ → Bool) (s : AList (fun _ : κ => ρ)) : AList (fun _ : κ => ρ) where
  entries := s.entries.filter fun entry => p entry.1
  nodupKeys := s.nodupKeys.sublist List.filter_sublist

theorem lookup_keepKeys (p : κ → Bool) (s : AList (fun _ : κ => ρ)) (k : κ) :
    (keepKeys p s).lookup k = if p k then s.lookup k else none := by
  ext r
  have member : r ∈ (keepKeys p s).lookup k ↔ r ∈ s.lookup k ∧ p k = true :=
    AList.mem_lookup_iff.trans (List.mem_filter.trans (and_congr_left' AList.mem_lookup_iff.symm))
  by_cases kept : p k = true
  · rw [if_pos kept]
    exact member.trans (and_iff_left kept)
  · rw [if_neg kept]
    exact member.trans (iff_of_false (fun found => kept found.2) (fun none => by cases none))

end LinuxMonitor.Library
