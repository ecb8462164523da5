import Mathlib.Data.List.Pairwise
import LinuxMonitor.Library.CString

/-!
# Character arrays

A `char` array of C holds bytes, and the text in it ends at its first zero byte.  `snprintf`
writes a text and a zero byte and leaves the bytes behind them as they are.

Texts that are shorter than the array and have only characters between 1 and 127 are read
back as they were written (`charText_snprintf`).

Whatever is read up to its first empty element is read whole exactly when no element behind
an empty one is in use (`takeWhile_eq_filter_iff`).
-/

set_option autoImplicit false

namespace LinuxMonitor.Library

variable {n : ℕ}

/-- The text of a `char` array, up to the first zero byte. -/
def charText (buffer : Vector UInt8 n) : Text :=
  (buffer.toList.takeWhile fun b => b ≠ 0).map fun b => Char.ofNat b.toNat

/-- The bytes that `snprintf` writes into an array of `n` bytes. -/
def printed (n : ℕ) (t : Text) : List UInt8 :=
  (t.take (n - 1)).map (fun c => UInt8.ofNat c.toNat) ++ [0]

/-- `snprintf(buffer, sizeof(buffer), …)` of the given text. -/
def snprintf (t : Text) (buffer : Vector UInt8 n) : Vector UInt8 n :=
  Vector.ofFn fun i => (printed n t)[i.val]?.getD buffer[i]

/-- Characters that one byte holds, other than the one that ends a text. -/
def Ascii (t : Text) : Prop := ∀ c ∈ t, 0 < c.toNat ∧ c.toNat < 128

instance decidableAscii (t : Text) : Decidable (Ascii t) :=
  List.decidableBAll (fun c : Char => 0 < c.toNat ∧ c.toNat < 128) t

theorem Ascii.append {s t : Text} (first : Ascii s) (second : Ascii t) : Ascii (s ++ t) := by
  intro c member
  rcases List.mem_append.mp member with inside | inside
  · exact first c inside
  · exact second c inside

theorem ascii_decimal (k : ℕ) : Ascii (decimal k) := by
  intro c member
  have bounds := isDigit_bounds (isDigit_of_mem_decimal member)
  omega

/-- An array begins with what was printed into it. -/
theorem toList_snprintf {t : Text} (fits : t.length < n) (buffer : Vector UInt8 n) :
    (snprintf t buffer).toList = printed n t ++ buffer.toList.drop (printed n t).length := by
  have length : (printed n t).length ≤ n := by
    rw [printed, List.length_append, List.length_map, List.length_take, List.length_singleton]
    omega
  refine List.ext_getElem ?_ fun i inside _ => ?_
  · rw [Vector.length_toList, List.length_append, List.length_drop, Vector.length_toList]
    omega
  · simp only [snprintf, Vector.getElem_toList, Vector.getElem_ofFn]
    rw [List.getElem_append]
    split
    · next early => rw [List.getElem?_eq_getElem early, Option.getD_some]
    · next late =>
        rw [List.getElem?_eq_none (not_lt.mp late), Option.getD_none, List.getElem_drop,
          Vector.getElem_toList, Fin.getElem_fin]
        simp only [Nat.add_sub_cancel' (not_lt.mp late)]

/-- **A text is read back as it was written.** -/
theorem charText_snprintf {t : Text} (fits : t.length < n) (ascii : Ascii t)
    (buffer : Vector UInt8 n) : charText (snprintf t buffer) = t := by
  have whole : printed n t = t.map (fun c => UInt8.ofNat c.toNat) ++ [0] := by
    rw [printed, List.take_of_length_le (by omega)]
  have value : ∀ c ∈ t, (UInt8.ofNat c.toNat).toNat = c.toNat := by
    intro c member
    have small := (ascii c member).2
    rw [UInt8.toNat_ofNat']
    omega
  have nonzero : ∀ b ∈ t.map fun c => UInt8.ofNat c.toNat, decide (b ≠ 0) = true := by
    intro b member
    obtain ⟨c, inside, rfl⟩ := List.mem_map.mp member
    have positive := (ascii c inside).1
    apply decide_eq_true
    intro zero
    rw [← value c inside, zero] at positive
    cases positive
  rw [charText, toList_snprintf fits, whole, List.append_assoc,
    takeWhile_append_stop _ nonzero (by simp), List.map_map]
  refine (List.map_congr_left fun c member => ?_).trans (List.map_id t)
  rw [Function.comp_apply, value c member, Char.ofNat_toNat, id]

/-! ## Elements behind the first empty one -/

/-- Two tests that agree up to the first element that fails take the same elements. -/
theorem takeWhile_congr_of_first {α : Type*} {p q : α → Bool} {xs : List α}
    (inside : ∀ a ∈ xs.takeWhile p, q a = true)
    (stop : ∀ a, (xs.dropWhile p).head? = some a → q a = false) :
    xs.takeWhile q = xs.takeWhile p := by
  induction xs with
  | nil => rfl
  | cons x xs ih =>
      cases used : p x with
      | true =>
          rw [List.takeWhile_cons_of_pos used] at inside ⊢
          rw [List.dropWhile_cons_of_pos used] at stop
          rw [List.takeWhile_cons_of_pos (inside x List.mem_cons_self),
            ih (fun a member => inside a (List.mem_cons_of_mem _ member)) stop]
      | false =>
          have free : ¬ p x = true := by simp [used]
          rw [List.dropWhile_cons_of_neg free] at stop
          have first : ¬ q x = true := by simp [stop x rfl]
          rw [List.takeWhile_cons_of_neg first, List.takeWhile_cons_of_neg free]

/-- The elements before the first empty one are all that are in use exactly when the
elements in front of one in use are in use. -/
theorem takeWhile_eq_filter_iff {α : Type*} {p : α → Bool} {xs : List α} :
    xs.takeWhile p = xs.filter p ↔ xs.Pairwise fun a b => p b → p a := by
  induction xs with
  | nil => simp
  | cons x xs ih =>
      rw [List.pairwise_cons]
      by_cases used : p x
      · rw [List.takeWhile_cons_of_pos used, List.filter_cons_of_pos used, List.cons_inj_right, ih]
        exact ⟨fun rest => ⟨fun _ _ _ => used, rest⟩, And.right⟩
      · rw [List.takeWhile_cons_of_neg used, List.filter_cons_of_neg used, eq_comm,
          List.filter_eq_nil_iff]
        constructor
        · intro unused
          refine ⟨fun b member inUse => absurd inUse (unused b member), ?_⟩
          exact List.pairwise_of_forall_mem_list fun a _ b member inUse =>
            absurd inUse (unused b member)
        · rintro ⟨first, -⟩ b member inUse
          exact used (first b member inUse)

end LinuxMonitor.Library
