import Mathlib.Data.Nat.Basic
import Mathlib.Data.Set.Function
import Mathlib.Logic.Nontrivial.Defs

/-!
# Memory that is reached through pages

A range of addresses is reached through pages, each of which lies in a page frame of the
physical memory or in none.  Two ranges with the same frames hold the same bytes; ranges
that hold the same bytes whatever the memory contains have the same frames
(`byteAt_eq_iff`).  `consecutive` is the range whose frames follow one another.

A buffer lies in the frames of its pages, and the rest of the memory around it.  A range
holds the same bytes for two contents of the buffer exactly when these agree on every page of
the buffer that the range reaches (`byteAt_place_eq_iff`).
-/

set_option autoImplicit false

namespace LinuxMonitor.Library

variable {Byte : Type*} {pageSize size : ℕ}

/-- The byte at an offset into a page frame. -/
abbrev Memory (Byte : Type*) := ℕ → ℕ → Byte

/-- The frame of each page of a range. -/
abbrev PageTable := ℕ → Option ℕ

/-- The byte number `k` of a range, if its page has a frame. -/
def byteAt (pageSize : ℕ) (memory : Memory Byte) (table : PageTable) (k : ℕ) : Option Byte :=
  (table (k / pageSize)).map fun frame => memory frame (k % pageSize)

/-- The pages of the first `size` bytes, in frames that follow one another. -/
def consecutive (pageSize first size : ℕ) : PageTable :=
  fun page => if page * pageSize < size then some (first + page) else none

/-- Frames that cannot be told apart by any memory are the same. -/
theorem frame_eq_of_bytes [Nontrivial Byte] {frame frame' : Option ℕ} (offset : ℕ)
    (same : ∀ memory : Memory Byte,
      frame.map (fun f => memory f offset) = frame'.map fun f => memory f offset) :
    frame = frame' := by
  obtain ⟨a, b, differ⟩ := exists_pair_ne Byte
  cases frame with
  | none =>
      have nothing := same fun _ _ => a
      rw [Option.map_none] at nothing
      exact (Option.map_eq_none_iff.mp nothing.symm).symm
  | some f =>
      have marked := same fun g _ => if g = f then a else b
      rw [Option.map_some, if_pos rfl] at marked
      obtain ⟨g, found, byte⟩ := Option.map_eq_some_iff.mp marked.symm
      by_cases equal : g = f
      · rw [found, equal]
      · rw [if_neg equal] at byte
        exact absurd byte.symm differ

/-- **Two ranges hold the same bytes in every memory exactly when their pages have the same
frames.** -/
theorem byteAt_eq_iff [Nontrivial Byte] (positive : 0 < pageSize) {table table' : PageTable} :
    (∀ memory : Memory Byte, ∀ k < size,
        byteAt pageSize memory table k = byteAt pageSize memory table' k) ↔
      ∀ page, page * pageSize < size → table page = table' page := by
  constructor
  · intro same page inside
    refine frame_eq_of_bytes 0 fun (memory : Memory Byte) => ?_
    have first := same memory _ inside
    rwa [byteAt, byteAt, Nat.mul_div_cancel _ positive, Nat.mul_mod_left] at first
  · intro frames memory k inside
    have page : k / pageSize * pageSize < size :=
      Nat.lt_of_le_of_lt (Nat.div_mul_le_self k pageSize) inside
    rw [byteAt, byteAt, frames _ page]

/-! ## A buffer in the memory -/

/-- The number of pages that `size` bytes need. -/
def pageCount (pageSize size : ℕ) : ℕ := (size + pageSize - 1) / pageSize

theorem lt_pageCount_iff (positive : 0 < pageSize) {page : ℕ} :
    page < pageCount pageSize size ↔ page * pageSize < size := by
  rw [pageCount, Nat.lt_div_iff_mul_lt positive]
  omega

/-- The memory that holds the contents of a buffer in the frames of its first `count` pages,
and something else elsewhere. -/
def place (pageSize count : ℕ) (frames : ℕ → ℕ) (contents : ℕ → Byte) (elsewhere : Memory Byte) :
    Memory Byte := fun frame offset =>
  match (List.range count).find? fun page => frames page = frame with
  | some page => contents (page * pageSize + offset)
  | none => elsewhere frame offset

section Place

variable {count : ℕ} {frames : ℕ → ℕ} {contents contents' : ℕ → Byte} {elsewhere : Memory Byte}

theorem place_frame (injective : Set.InjOn frames {page | page < count}) {page : ℕ}
    (inside : page < count) (offset : ℕ) :
    place pageSize count frames contents elsewhere (frames page) offset =
      contents (page * pageSize + offset) := by
  unfold place
  split
  · next found search =>
      have same : frames found = frames page := by simpa using List.find?_some search
      have early : found < count := List.mem_range.mp (List.mem_of_find?_eq_some search)
      rw [injective early inside same]
  · next search =>
      have missing := List.find?_eq_none.mp search page (List.mem_range.mpr inside)
      exact absurd (decide_eq_true rfl) missing

theorem place_elsewhere {frame : ℕ} (outside : ∀ page < count, frames page ≠ frame)
    (offset : ℕ) :
    place pageSize count frames contents elsewhere frame offset = elsewhere frame offset := by
  have search : (List.range count).find? (fun page => frames page = frame) = none := by
    refine List.find?_eq_none.mpr fun page member => ?_
    rw [decide_eq_true_iff]
    exact outside page (List.mem_range.mp member)
  rw [place, search]

/-- **A range shows of a buffer the pages whose frames it reaches.** -/
theorem byteAt_place_eq_iff (positive : 0 < pageSize)
    (injective : Set.InjOn frames {page | page < count}) {table : PageTable} :
    (∀ k, byteAt pageSize (place pageSize count frames contents elsewhere) table k =
        byteAt pageSize (place pageSize count frames contents' elsewhere) table k) ↔
      ∀ page q, q < count → table page = some (frames q) → ∀ offset < pageSize,
        contents (q * pageSize + offset) = contents' (q * pageSize + offset) := by
  constructor
  · intro same page q inside reached offset small
    have shown := same (page * pageSize + offset)
    have number : (page * pageSize + offset) / pageSize = page := by
      rw [Nat.add_comm, Nat.add_mul_div_right _ _ positive, Nat.div_eq_of_lt small, Nat.zero_add]
    have rest : (page * pageSize + offset) % pageSize = offset := by
      rw [Nat.add_comm, Nat.add_mul_mod_self_right, Nat.mod_eq_of_lt small]
    rw [byteAt, byteAt, number, rest, reached, Option.map_some, Option.map_some] at shown
    rw [place_frame injective inside, place_frame injective inside] at shown
    exact Option.some.inj shown
  · intro agree k
    rw [byteAt, byteAt]
    cases reached : table (k / pageSize) with
    | none => rfl
    | some frame =>
        rw [Option.map_some, Option.map_some, Option.some.injEq]
        by_cases inside : ∃ q < count, frames q = frame
        · obtain ⟨q, early, rfl⟩ := inside
          rw [place_frame injective early, place_frame injective early]
          exact agree _ q early reached _ (Nat.mod_lt k positive)
        · have outside : ∀ q < count, frames q ≠ frame :=
            fun q early same => inside ⟨q, early, same⟩
          rw [place_elsewhere outside, place_elsewhere outside]

end Place

end LinuxMonitor.Library
