import Mathlib.Data.List.Nodup
import Mathlib.Logic.Function.Basic
import LinuxMonitor.Library.Loads

/-!
# Cells that are rewritten in passes

A writer goes through some cells of a shared memory again and again; each pass stores into a
cell at most once, and every store is atomic.  A reader loads one cell after another while
stores go on, so that what it has read may come from different passes.

The version of a cell is the number of passes that have stored into it or passed it by.

* `Kept.write`: every cell holds what the pass of its version has left there.
* `version_mono`: **the version of a cell never goes back.**
* `meets_readCells`: a load sees a version of the time of the load.
* `ticks_of_inTurn`: in reads that are made one after the other the versions of a cell come in
  their order.
-/

set_option autoImplicit false

namespace LinuxMonitor.Library.Passes

variable {Cell V : Type} [DecidableEq Cell]

/-! ## The writer -/

/-- The memory, the number of passes that have begun, and what the last of them has left to
store. -/
structure Shared (Cell V : Type) where
  cells : Cell → V
  begun : ℕ
  left : List (Cell × V)

/-- The stores one after the other. -/
def writeAll (cells : Cell → V) (stores : List (Cell × V)) : Cell → V :=
  stores.foldl (fun cells store => Function.update cells store.1 store.2) cells

/-- The writer begins a pass, or stores into a cell. -/
inductive Write (stores : ℕ → List (Cell × V)) : Shared Cell V → Shared Cell V → Prop where
  | begin {s : Shared Cell V} (ended : s.left = []) :
      Write stores s { s with begun := s.begun + 1, left := stores s.begun }
  | store {s : Shared Cell V} {c : Cell} {v : V} {rest : List (Cell × V)}
      (next : s.left = (c, v) :: rest) :
      Write stores s { s with cells := Function.update s.cells c v, left := rest }

/-- The cells after a number of passes. -/
def after (stores : ℕ → List (Cell × V)) (initial : Cell → V) : ℕ → Cell → V
  | 0 => initial
  | k + 1 => writeAll (after stores initial k) (stores k)

/-- How many passes have stored into the cell or passed it by. -/
def Shared.version (s : Shared Cell V) (c : Cell) : ℕ :=
  if c ∈ s.left.map Prod.fst then s.begun - 1 else s.begun

/-- Every cell holds what the pass of its version has left there, and so will every cell after
the stores that are left. -/
structure Kept (stores : ℕ → List (Cell × V)) (initial : Cell → V) (s : Shared Cell V) :
    Prop where
  unrepeated : (s.left.map Prod.fst).Nodup
  held : ∀ c, s.cells c = after stores initial (s.version c) c
  pending : ∀ store ∈ s.left, store.2 = after stores initial s.begun store.1

section Writer

variable {stores : ℕ → List (Cell × V)} {initial : Cell → V} {s s' : Shared Cell V}

/-- A pass leaves alone the cells that it does not store into. -/
theorem writeAll_of_notMem {cells : Cell → V} {list : List (Cell × V)} {c : Cell}
    (absent : c ∉ list.map Prod.fst) : writeAll cells list c = cells c := by
  induction list generalizing cells with
  | nil => rfl
  | cons store list ih =>
      rw [List.map_cons, List.mem_cons, not_or] at absent
      exact (ih absent.2).trans (Function.update_of_ne absent.1 _ _)

/-- A pass that stores into each cell once leaves what it stores. -/
theorem writeAll_of_mem {cells : Cell → V} {list : List (Cell × V)}
    (unrepeated : (list.map Prod.fst).Nodup) {store : Cell × V} (member : store ∈ list) :
    writeAll cells list store.1 = store.2 := by
  induction list generalizing cells with
  | nil => cases member
  | cons first list ih =>
      rw [List.map_cons, List.nodup_cons] at unrepeated
      rcases List.mem_cons.mp member with rfl | later
      · exact (writeAll_of_notMem unrepeated.1).trans (Function.update_self _ _ _)
      · exact ih unrepeated.2 later

/-- Between two passes the cells are kept. -/
theorem kept_after (k : ℕ) : Kept stores initial ⟨after stores initial k, k, []⟩ :=
  ⟨List.nodup_nil, fun _ => rfl, nofun⟩

/-- **Every write keeps the cells to their versions.** -/
theorem Kept.write (unrepeated : ∀ k, ((stores k).map Prod.fst).Nodup)
    (kept : Kept stores initial s) (write : Write stores s s') : Kept stores initial s' := by
  cases write with
  | begin ended =>
      have before : ∀ c, s.cells c = after stores initial s.begun c := by
        intro c
        rw [kept.held c, Shared.version, ended]
        rfl
      refine ⟨unrepeated _, fun c => ?_, fun store member => ?_⟩
      · rw [Shared.version]
        split
        · exact before c
        · next absent =>
            rw [before c, after]
            exact (writeAll_of_notMem absent).symm
      · exact (writeAll_of_mem (unrepeated _) member).symm
  | @store c v rest next =>
      have split : c ∉ rest.map Prod.fst ∧ (rest.map Prod.fst).Nodup := by
        have once := kept.unrepeated
        rwa [next, List.map_cons, List.nodup_cons] at once
      refine ⟨split.2, fun d => ?_, fun store member => ?_⟩
      · by_cases same : d = c
        · subst same
          rw [Shared.version, if_neg split.1]
          exact (Function.update_self _ _ _).trans (kept.pending (d, v) (by simp [next]))
        · refine (Function.update_of_ne same _ _).trans ?_
          have other : s.version d =
              Shared.version ⟨Function.update s.cells c v, s.begun, rest⟩ d := by
            simp only [Shared.version, next, List.map_cons, List.mem_cons, same, false_or]
          rw [kept.held d, other]
      · exact kept.pending store (by simp [next, member])

/-- A write takes the version of no cell back. -/
theorem version_le_of_write (write : Write stores s s') (c : Cell) :
    s.version c ≤ s'.version c := by
  cases write with
  | begin ended =>
      simp only [Shared.version, ended, List.map_nil, List.not_mem_nil, if_false]
      split <;> omega
  | @store d v rest next =>
      simp only [Shared.version, next, List.map_cons, List.mem_cons]
      by_cases later : c ∈ rest.map Prod.fst
      · simp [later]
      · simp only [later, or_false, if_false]
        split <;> omega

/-- **The version of a cell never goes back.** -/
theorem version_mono (unrepeated : ∀ k, ((stores k).map Prod.fst).Nodup)
    (kept : Kept stores initial s) (writes : Relation.ReflTransGen (Write stores) s s') :
    Kept stores initial s' ∧ ∀ c, s.version c ≤ s'.version c := by
  induction writes with
  | refl => exact ⟨kept, fun _ => Nat.le_refl _⟩
  | tail _ write ih =>
      exact ⟨ih.1.write unrepeated write,
        fun c => Nat.le_trans (ih.2 c) (version_le_of_write write c)⟩

theorem writes_writeAll (cells : Cell → V) (begun : ℕ) (list : List (Cell × V)) :
    Relation.ReflTransGen (Write stores) ⟨cells, begun, list⟩ ⟨writeAll cells list, begun, []⟩ := by
  induction list generalizing cells with
  | nil => exact .refl
  | cons store list ih => exact .head (.store rfl) (ih _)

/-- A whole pass can be made. -/
theorem writes_pass (k : ℕ) : Relation.ReflTransGen (Write stores)
    ⟨after stores initial k, k, []⟩ ⟨after stores initial (k + 1), k + 1, []⟩ :=
  .head (.begin rfl) (writes_writeAll _ _ _)

end Writer

/-! ## Readers -/

/-- One state comes after the other. -/
def Later (stores : ℕ → List (Cell × V)) (initial : Cell → V) (s s' : Shared Cell V) : Prop :=
  Kept stores initial s' ∧ ∀ c, s.version c ≤ s'.version c

/-- The value is what a pass between the two states has left in the cell. -/
def Seen (stores : ℕ → List (Cell × V)) (initial : Cell → V) (s s' : Shared Cell V) (c : Cell)
    (v : V) : Prop :=
  ∃ k, s.version c ≤ k ∧ k ≤ s'.version c ∧ v = after stores initial k c

/-- The loads of some cells in their order. -/
def readCells (cs : List Cell) : Loads (Shared Cell V) Unit (List V) :=
  .readParts Shared.cells () (cs.map fun c cells => cells c)

/-- A cell of the copy when the cells have been loaded in the given order. -/
def copied (unset : V) (order : List Cell) (words : List V) (c : Cell) : V :=
  ((order.zip words).lookup c).getD unset

section Reader

variable {stores : ℕ → List (Cell × V)} {initial : Cell → V} {s s' s'' : Shared Cell V}

theorem Later.refl (kept : Kept stores initial s) : Later stores initial s s :=
  ⟨kept, fun _ => Nat.le_refl _⟩

theorem Later.trans (first : Later stores initial s s') (second : Later stores initial s' s'') :
    Later stores initial s s'' :=
  ⟨second.1, fun c => Nat.le_trans (first.2 c) (second.2 c)⟩

theorem Seen.mono {c : Cell} {v : V} {t t' : Shared Cell V} (seen : Seen stores initial s s' c v)
    (before : t.version c ≤ s.version c) (behind : s'.version c ≤ t'.version c) :
    Seen stores initial t t' c v := by
  obtain ⟨k, low, high, value⟩ := seen
  exact ⟨k, Nat.le_trans before low, Nat.le_trans high behind, value⟩

/-- The copy holds what was loaded. -/
theorem copied_of_forall₂ {holds : Cell → V → Prop} {order : List Cell} {words : List V}
    (loaded : List.Forall₂ holds order words) (unset : V) {c : Cell} (inside : c ∈ order) :
    holds c (copied unset order words c) := by
  induction loaded with
  | nil => cases inside
  | @cons first word order words own rest ih =>
      by_cases same : c = first
      · subst same
        simpa [copied] using own
      · have later := ih ((List.mem_cons.mp inside).resolve_left same)
        have other : (c == first) = false := beq_false_of_ne same
        simpa [copied, List.lookup_cons, other] using later

variable (unrepeated : ∀ k, ((stores k).map Prod.fst).Nodup)
include unrepeated

/-- **Each load sees what a pass has left that was made by the time of the load.** -/
theorem meets_readCells (cs : List Cell) (kept : Kept stores initial s) :
    Loads.Meets (fun _ => Write stores)
      (fun _ s' vs => Later stores initial s s' ∧ List.Forall₂ (Seen stores initial s s') cs vs)
      (readCells cs) () s := by
  induction cs generalizing s with
  | nil => exact fun s' writes => ⟨version_mono unrepeated kept writes, .nil⟩
  | cons c cs ih =>
      refine Loads.Meets.read_bind fun s₁ writes => Loads.Meets.bind ?_
      have first := version_mono unrepeated kept writes
      refine (ih first.1).mono fun _ s₂ vs seen s₃ writes' => ?_
      have last := version_mono unrepeated seen.1.1 writes'
      have own : Seen stores initial s s₃ c (s₁.cells c) :=
        ⟨s₁.version c, first.2 c, Nat.le_trans (seen.1.2 c) (last.2 c), first.1.held c⟩
      refine ⟨Later.trans (Later.trans first seen.1) last, .cons own ?_⟩
      exact seen.2.imp fun _ _ other => other.mono (first.2 _) (last.2 _)

omit unrepeated in
/-- **In reads that are made one after the other the versions of a cell come in their order.**
A round that does not read the cell shows nothing of it. -/
theorem ticks_of_inTurn {ι α β : Type} {round : ι → Shared Cell V → Shared Cell V → α → Prop}
    (shown : α → Option β) (view : V → β) (c : Cell)
    (sees : ∀ i s s' a, round i s s' a → Later stores initial s s' ∧
      ∀ b, shown a = some b → ∃ v, Seen stores initial s s' c v ∧ b = view v)
    {rounds : List ι} {as : List α}
    (turns : Loads.InTurn round (Later stores initial) s rounds as s') :
    s.version c ≤ s'.version c ∧ ∃ ticks : List ℕ,
      as.filterMap shown = ticks.map (fun k => view (after stores initial k c)) ∧
        ticks.Pairwise (· ≤ ·) ∧ ∀ k ∈ ticks, s.version c ≤ k ∧ k ≤ s'.version c := by
  induction turns with
  | nil behind => exact ⟨behind.2 c, [], rfl, .nil, nofun⟩
  | @cons s s₁ s' i rounds a as first _ ih =>
      obtain ⟨later, seen⟩ := sees i s s₁ a first
      obtain ⟨behind, ticks, values, ordered, window⟩ := ih
      refine ⟨Nat.le_trans (later.2 c) behind, ?_⟩
      have weaker : ∀ k ∈ ticks, s.version c ≤ k ∧ k ≤ s'.version c := fun k member =>
        ⟨Nat.le_trans (later.2 c) (window k member).1, (window k member).2⟩
      cases found : shown a with
      | none => exact ⟨ticks, (List.filterMap_cons_none found).trans values, ordered, weaker⟩
      | some b =>
          obtain ⟨v, ⟨k, low, high, rfl⟩, rfl⟩ := seen b found
          refine ⟨k :: ticks, ?_, .cons (fun k' member => ?_) ordered, fun k' member => ?_⟩
          · rw [List.filterMap_cons_some found, values, List.map_cons]
          · exact Nat.le_trans high (window k' member).1
          · rcases List.mem_cons.mp member with rfl | rest
            · exact ⟨low, Nat.le_trans high behind⟩
            · exact weaker k' rest

end Reader

end LinuxMonitor.Library.Passes
