import Mathlib.Data.List.Find
import LinuxMonitor.PerformanceServer.Store

/-!
# Names that the collation tells apart

The collation of the schema takes some texts for the same that differ, so hosts with such names
would share a row of `host_info`.  As long as it tells the names and the identifiers of a run
apart, and the names are clean, nothing depends on it: the database answers as one that takes
names literally and compares them as they are.

* `Alike.storeHosts`: databases that answer alike for the names of the reports store alike.
* `alike_collated`: **a collation that tells the texts of a run apart answers like the exact
  comparison**.
* `alike_sql`: so does a server that gets the texts of the statements, when the names are clean.
* `apart_ignoreCase`: a collation that ignores case tells identifiers apart when it does names.
-/

set_option autoImplicit false

namespace LinuxMonitor.PerformanceServer

open Library Proto

/-! ## Databases that answer alike -/

/-- For these names the two databases answer alike on the tables in question, and leave one of
them. -/
def Alike (db db' : Database) (names : Set Text) (P : HostInfo → Prop) : Prop :=
  ∀ hostName ∈ names, ∀ (o : Outcomes) (s : HostState), P s.hostInfo →
    getOrCreateHostId db hostName o s = getOrCreateHostId db' hostName o s ∧
      P (getOrCreateHostId db' hostName o s).2.hostInfo

namespace Alike

variable {R : Type} [Field R] [LinearOrder R] {db db' : Database} {names : Set Text}
  {P : HostInfo → Prop} {data infos : List (MonitorInfo R)}

theorem findScore (alike : Alike db db' names P) (hostId : Text) (lookup : ℕ → Outcomes)
    (known : ∀ info ∈ infos, info.name ∈ names) {s : HostState} (before : P s.hostInfo) :
    findScore db hostId lookup infos s = findScore db' hostId lookup infos s ∧
      P (PerformanceServer.findScore db' hostId lookup infos s).2.hostInfo := by
  induction infos generalizing lookup s with
  | nil => exact ⟨rfl, before⟩
  | cons info infos ih =>
      obtain ⟨own, others⟩ := List.forall_mem_cons.mp known
      obtain ⟨same, after⟩ := alike info.name own (lookup 0) s before
      obtain ⟨rest, final⟩ := ih (fun i => lookup (i + 1)) others after
      simp only [PerformanceServer.findScore, same, rest, true_and]
      split
      · exact after
      · exact final

theorem storeHost (alike : Alike db db' names P) (zone : ℤ → ℤ)
    (known : ∀ info ∈ data, info.name ∈ names) {info : MonitorInfo R} (own : info.name ∈ names)
    (o : HostOutcomes) {s : HostState} (before : P s.hostInfo) :
    storeHost db zone data info o s = storeHost db' zone data info o s ∧
      P (PerformanceServer.storeHost db' zone data info o s).2.hostInfo := by
  obtain ⟨same, after⟩ := alike info.name own o.own.lookup s before
  obtain ⟨search, final⟩ := alike.findScore
    (getOrCreateHostId db' info.name o.own.lookup s).1 o.summary.lookup known after
  simp only [PerformanceServer.storeHost, updatePerformanceSummary, same, search, true_and]
  split
  · exact after
  · split
    · exact final
    · exact after

/-- **Databases that answer alike store alike.** -/
theorem storeHosts (alike : Alike db db' names P) (zone : ℤ → ℤ)
    (known : ∀ info ∈ data, info.name ∈ names) (own : ∀ info ∈ infos, info.name ∈ names)
    (outcomes : ℕ → HostOutcomes) {s : HostState} (before : P s.hostInfo) :
    storeHosts db zone data outcomes infos s = storeHosts db' zone data outcomes infos s ∧
      P (PerformanceServer.storeHosts db' zone data outcomes infos s).2.hostInfo := by
  induction infos generalizing outcomes s with
  | nil => exact ⟨rfl, before⟩
  | cons info infos ih =>
      obtain ⟨first, others⟩ := List.forall_mem_cons.mp own
      obtain ⟨same, after⟩ := alike.storeHost zone known first (outcomes 0) before
      obtain ⟨rest, final⟩ := ih others (fun i => outcomes (i + 1)) after
      simp only [PerformanceServer.storeHosts, same, rest, true_and]
      exact final

end Alike

/-! ## Collations that tell texts apart -/

section Apart

variable {κ : Type} (weight : Text → κ)

/-- The collation tells the names apart, each other and those of the table, and so the identifiers
that the table has or that are generated for the names. -/
structure Apart (names : Set Text) (t : HostInfo) : Prop where
  hostNames : Set.InjOn weight (names ∪ {hostName | hostName ∈ t.hostNames})
  hostIds : Set.InjOn weight
    ({hostId | ∃ hostName ∈ names, ∃ time, hostId = newHostId hostName time} ∪
      {hostId | hostId ∈ t.hostIds})

variable {weight} {names : Set Text} {t : HostInfo}

/-- A row for one of the names changes nothing. -/
theorem Apart.insert (apart : Apart weight names t) {t' : HostInfo} {hostName : Text} {time : ℤ}
    (own : hostName ∈ names)
    (rows : t'.rows = t.rows ++ [⟨newHostId hostName time, hostName⟩]) :
    Apart weight names t' := by
  constructor
  · refine apart.hostNames.mono (Set.union_subset Set.subset_union_left fun name member => ?_)
    rw [Set.mem_ofPred_eq, HostInfo.hostNames, rows, List.map_append, List.mem_append] at member
    rcases member with old | new
    · exact Or.inr old
    · rw [List.mem_singleton.mp new]
      exact Or.inl own
  · refine apart.hostIds.mono (Set.union_subset Set.subset_union_left fun hostId member => ?_)
    rw [Set.mem_ofPred_eq, HostInfo.hostIds, rows, List.map_append, List.mem_append] at member
    rcases member with old | new
    · exact Or.inr old
    · rw [List.mem_singleton.mp new]
      exact Or.inl ⟨hostName, own, time, rfl⟩

/-- The same generated identifiers are taken. -/
theorem Apart.taken_iff (apart : Apart weight names t) {hostName : Text} (own : hostName ∈ names)
    (time : ℤ) : t.Taken weight (newHostId hostName time) ↔
      t.Taken id (newHostId hostName time) := by
  refine exists_congr fun row => and_congr_right fun inside => ?_
  exact apart.hostIds.eq_iff (Or.inr (List.mem_map_of_mem (f := HostRow.hostId) inside))
    (Or.inl ⟨hostName, own, time, rfl⟩)

/-- A row is found by the weight of its identifier. -/
theorem Apart.eq_of_weight (apart : Apart weight names t) {row row' : HostRow}
    (inside : row ∈ t.rows) (inside' : row' ∈ t.rows)
    (same : weight row.hostId = weight row'.hostId) : row = row' :=
  HostInfo.eq_of_hostId inside inside' (apart.hostIds
    (.inr (List.mem_map_of_mem (f := HostRow.hostId) inside))
    (.inr (List.mem_map_of_mem (f := HostRow.hostId) inside')) same)

/-- The collation tells the identifiers of the table apart. -/
theorem Apart.nodup (apart : Apart weight names t) :
    (t.rows.map fun row => weight row.hostId).Nodup :=
  (List.Nodup.of_map HostRow.hostId t.primaryKey).map_on
    fun _ inside _ inside' same => apart.eq_of_weight inside inside' same

variable [DecidableEq κ]

/-- The SELECT finds the same row. -/
theorem Apart.selectHostId_eq (apart : Apart weight names t) {hostName : Text}
    (own : hostName ∈ names) : t.selectHostId weight hostName = t.selectHostId id hostName := by
  refine congrArg (Option.map HostRow.hostId) (List.find?_congr fun row inside => ?_)
  exact decide_eq_decide.mpr (apart.hostNames.eq_iff
    (Or.inr (List.mem_map_of_mem (f := HostRow.hostName) inside)) (Or.inl own))

/-- **A collation that tells the texts of a run apart** answers like the exact comparison. -/
theorem alike_collated :
    Alike (.collated weight) .literal names (Apart weight names) := by
  intro hostName own o s apart
  have found : foundId weight hostName o s.hostInfo = foundId id hostName o s.hostInfo := by
    rw [foundId, foundId, apart.selectHostId_eq own]
  have inserted : s.hostInfo.insert weight (newHostId hostName o.time) hostName =
      s.hostInfo.insert id (newHostId hostName o.time) hostName := by
    simp only [HostInfo.insert, apart.taken_iff own]
  constructor
  · have answer : (Database.collated weight).insert (newHostId hostName o.time) hostName
        s.hostInfo = Database.literal.insert (newHostId hostName o.time) hostName s.hostInfo := by
      simp only [Database.collated, inserted]
    simp only [getOrCreateHostId, queryHostId_collated, found]
    cases foundId id hostName o s.hostInfo with
    | some hostId => rfl
    | none => simp only [answer]
  · rcases getOrCreateHostId_cases id hostName o s with
      ⟨_, _, result⟩ | ⟨_, _, _, result⟩ | ⟨t, _, _, _, inserted, result⟩ | ⟨_, _, _, result⟩ <;>
      rw [result]
    · exact apart
    · exact apart
    · exact apart.insert own (HostInfo.rows_insert inserted).2
    · exact apart

/-- With clean names the texts of the statements make no difference, either. -/
theorem alike_sql (other : Other) (clean : ∀ hostName ∈ names, Clean hostName) :
    Alike (.sql weight other) .literal names (Apart weight names) := by
  intro hostName own o s apart
  rw [getOrCreateHostId_sql weight (clean hostName own)]
  exact alike_collated hostName own o s apart

end Apart

/-! ## Upper and lower case -/

theorem toLower_of_isDigit {c : Char} (digit : c.isDigit = true) : c.toLower = c := by
  have digits := of_decide_eq_true (Bool.and_eq_true_iff.mp digit).2
  refine dif_neg ?_
  rintro ⟨upper, -⟩
  exact absurd (UInt32.le_trans upper digits) (by decide)

theorem ignoreCase_signedDecimal (time : ℤ) :
    ignoreCase (signedDecimal time) = signedDecimal time := by
  have still : ∀ c ∈ signedDecimal time, c.toLower = id c := by
    intro c member
    rcases mem_signedDecimal member with rfl | digit
    · decide
    · exact toLower_of_isDigit digit
  rw [ignoreCase, List.map_congr_left still, List.map_id]

theorem ignoreCase_newHostId (hostName : Text) (time : ℤ) :
    ignoreCase (newHostId hostName time) = newHostId (ignoreCase hostName) time := by
  have digits := ignoreCase_signedDecimal time
  rw [ignoreCase] at digits
  have host : "host_".toList.map Char.toLower = "host_".toList := by decide
  have underscore : '_'.toLower = '_' := by decide
  rw [newHostId, ignoreCase, List.map_append, List.map_append, List.map_cons, digits, host,
    underscore]
  rfl

/-- **When case tells the names apart** it tells their identifiers apart. -/
theorem apart_ignoreCase {names : Set Text} (told : Set.InjOn ignoreCase names) :
    Apart ignoreCase names .empty := by
  constructor
  · refine told.mono (Set.union_subset subset_rfl fun name member => ?_)
    cases member
  · rintro _ (⟨hostName, own, time, rfl⟩ | member) _ (⟨hostName', own', time', rfl⟩ | member') same
    · rw [ignoreCase_newHostId, ignoreCase_newHostId] at same
      have names := told own own' (newHostId_name same)
      have times : newHostId (ignoreCase hostName') time =
          newHostId (ignoreCase hostName') time' := by
        rw [← names] at same ⊢
        exact same
      have tails := List.append_cancel_left (List.append_cancel_left times)
      rw [names, newHostId, newHostId, tails]
    · cases member'
    · cases member
    · cases member

end LinuxMonitor.PerformanceServer
