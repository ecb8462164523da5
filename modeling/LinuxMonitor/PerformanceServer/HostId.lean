import Mathlib.Data.List.AList
import LinuxMonitor.PerformanceServer.Quoting

/-!
# Host identifiers

`getOrCreateHostId` answers from the client's cache, else from the table `host_info`,
and else inserts a row with a new identifier.  The queries and the fetch of the result
may fail, and the client may restart with an empty cache.

The table has `host_id` as its primary key and no key on `host_name`.  The database compares
texts by their weights, which the collation of the table gives; the client's cache compares them
as they are.  A statement that is not faithful reaches the server as some other text, and what
the server does then is left open (`Other`).

* `getOrCreateHostId_cases`: the four ways a call can go.
* `Agreed.of_run`: as long as no call recreates a host, every cached or returned
  identifier is the one in the host's row.
* `identities_kept`: **over runs whose names are clean, each name keeps one row and one
  identifier exactly as long as no call inserts a row for a host that has one.**
* `identities_restart`: a restart and one failing query give a host a second row.
-/

set_option autoImplicit false

namespace LinuxMonitor.PerformanceServer

open Library

/-! ## The table -/

/-- The columns of `host_info` that the client reads and writes. -/
structure HostRow where
  hostId : Text
  hostName : Text
deriving DecidableEq, Repr

/-- The table `host_info`. -/
structure HostInfo where
  rows : List HostRow
  primaryKey : (rows.map HostRow.hostId).Nodup

namespace HostInfo

def empty : HostInfo := ⟨[], List.nodup_nil⟩

/-- The identifiers that are taken. -/
def hostIds (t : HostInfo) : List Text := t.rows.map HostRow.hostId

def hostNames (t : HostInfo) : List Text := t.rows.map HostRow.hostName

section Collation

variable {κ : Type} (weight : Text → κ) (t : HostInfo)

/-- A row has the name. -/
def Named (hostName : Text) : Prop := ∃ row ∈ t.rows, weight row.hostName = weight hostName

/-- A row has the identifier. -/
def Taken (hostId : Text) : Prop := ∃ row ∈ t.rows, weight row.hostId = weight hostId

/-- The name has a row with the identifier. -/
def HasRow (hostName hostId : Text) : Prop :=
  ∃ row ∈ t.rows, row.hostId = hostId ∧ weight row.hostName = weight hostName

/-- At most one row for each name. -/
def UniqueNames : Prop := (t.rows.map fun row => weight row.hostName).Nodup

variable [DecidableEq κ]

instance : DecidablePred (t.Taken weight) := fun hostId =>
  inferInstanceAs (Decidable (∃ row ∈ t.rows, weight row.hostId = weight hostId))

/-- The first row of `SELECT host_id FROM host_info WHERE host_name = …`. -/
def selectHostId (hostName : Text) : Option Text :=
  (t.rows.find? fun row => weight row.hostName = weight hostName).map HostRow.hostId

/-- `INSERT INTO host_info`, an error when the identifier is taken. -/
def insert (hostId hostName : Text) : Option HostInfo :=
  if taken : t.Taken weight hostId then none
  else some
    { rows := t.rows ++ [⟨hostId, hostName⟩]
      primaryKey := by
        rw [List.map_append, List.map_singleton]
        refine t.primaryKey.append (List.nodup_singleton _) (List.disjoint_singleton.mpr ?_)
        intro member
        obtain ⟨row, inside, same⟩ := List.mem_map.mp member
        exact taken ⟨row, inside, congrArg weight same⟩ }

end Collation

/-- Without a collation an identifier is taken when it is one of the table. -/
theorem taken_id {t : HostInfo} {hostId : Text} : t.Taken id hostId ↔ hostId ∈ t.hostIds :=
  List.mem_map.symm

theorem hasRow_id {t : HostInfo} {hostName hostId : Text} :
    t.HasRow id hostName hostId ↔ ⟨hostId, hostName⟩ ∈ t.rows := by
  constructor
  · rintro ⟨row, inside, rfl, rfl⟩
    exact inside
  · exact fun inside => ⟨_, inside, rfl, rfl⟩

theorem hasRow_of_mem {κ : Type} (weight : Text → κ) {t : HostInfo} {hostName hostId : Text}
    (inside : ⟨hostId, hostName⟩ ∈ t.rows) : t.HasRow weight hostName hostId :=
  ⟨_, inside, rfl, rfl⟩

end HostInfo

/-! ## The database -/

/-- What the server answers to the two statements: the first row of the SELECT, and
whether the INSERT succeeded. -/
structure Database where
  select : Text → HostInfo → Option Text × HostInfo
  insert : Text → Text → HostInfo → Bool × HostInfo

/-- A server that gets the values as they are, and compares texts by their weights. -/
def Database.collated {κ : Type} [DecidableEq κ] (weight : Text → κ) : Database where
  select hostName t := (t.selectHostId weight hostName, t)
  insert hostId hostName t :=
    match t.insert weight hostId hostName with
    | some t => (true, t)
    | none => (false, t)

/-- A server that takes names literally, and compares them as they are. -/
abbrev Database.literal : Database := .collated id

/-- What the server does with texts that are not the statements they were meant to be. -/
structure Other where
  select : Text → HostInfo → Option Text × HostInfo
  insert : Text → HostInfo → Bool × HostInfo

instance {R : Type} [Div R] [NatCast R] [StdToString R] (s : Statement R) :
    Decidable s.Faithful :=
  inferInstanceAs (Decidable (lex (cString s.text) = some (pieces s.parts)))

/-- A server that gets the texts of the statements. -/
def Database.sql {κ : Type} [DecidableEq κ] (weight : Text → κ) (other : Other) : Database where
  select hostName t :=
    let s : Statement ℚ := .selectHost hostName
    if s.Faithful then (collated weight).select hostName t else other.select s.text t
  insert hostId hostName t :=
    let s : Statement ℚ := .insertHost hostId hostName
    if s.Faithful then (collated weight).insert hostId hostName t else other.insert s.text t

/-! ## `getOrCreateHostId` -/

/-- What the queries of one call meet: the success of the SELECT, of
`mysql_store_result` and of the INSERT, and the clock. -/
structure Outcomes where
  selectOk : Bool
  storeOk : Bool
  insertOk : Bool
  time : ℤ

/-- The member `host_id_cache_` and the table. -/
structure HostState where
  hostIdCache : AList (fun _ : Text => Text)
  hostInfo : HostInfo

/-- The query of the database: the identifier in the first row, if all went well. -/
def queryHostId (db : Database) (hostName : Text) (o : Outcomes) (t : HostInfo) :
    Option Text × HostInfo :=
  if o.selectOk then
    let (row, t) := db.select hostName t
    (if o.storeOk then row else none, t)
  else (none, t)

/-- `PerformanceMonitorClient::getOrCreateHostId`; the empty text stands for failure. -/
def getOrCreateHostId (db : Database) (hostName : Text) (o : Outcomes) (s : HostState) :
    Text × HostState :=
  match s.hostIdCache.lookup hostName with
  | some hostId => (hostId, s)
  | none =>
      match queryHostId db hostName o s.hostInfo with
      | (some hostId, t) => (hostId, ⟨s.hostIdCache.insert hostName hostId, t⟩)
      | (none, t) =>
          let hostId := newHostId hostName o.time
          if o.insertOk then
            match db.insert hostId hostName t with
            | (true, t) => (hostId, ⟨s.hostIdCache.insert hostName hostId, t⟩)
            | (false, t) => ([], ⟨s.hostIdCache, t⟩)
          else ([], ⟨s.hostIdCache, t⟩)

/-! ## Runs -/

/-- What happens to the client. -/
inductive HostEvent where
  | call (hostName : Text) (o : Outcomes)
  | restart

/-- The state after a run, and the identifiers returned for each name. -/
def runHosts (db : Database) : List HostEvent → HostState → List (Text × Text) × HostState
  | [], s => ([], s)
  | .call hostName o :: events, s =>
      let (hostId, s) := getOrCreateHostId db hostName o s
      let (returned, final) := runHosts db events s
      ((hostName, hostId) :: returned, final)
  | .restart :: events, s => runHosts db events { s with hostIdCache := ∅ }

section Collation

variable {κ : Type} [DecidableEq κ] (weight : Text → κ)

/-- The call inserts a row although the host has one: the name is not cached, the lookup
failed, and the INSERT succeeds. -/
def Recreates (hostName : Text) (o : Outcomes) (s : HostState) : Prop :=
  s.hostIdCache.lookup hostName = none ∧ (o.selectOk && o.storeOk) = false ∧
    s.hostInfo.Named weight hostName ∧ o.insertOk = true ∧
      ¬ s.hostInfo.Taken weight (newHostId hostName o.time)

/-- The step is harmless: its name is clean, and it recreates no host. -/
def Harmless : HostEvent → HostState → Prop
  | .call hostName o, s => Clean hostName ∧ ¬ Recreates weight hostName o s
  | .restart, _ => True

/-- Over the whole run `host_info` has at most one row for each name, and all identifiers
returned for a name are one.  Names of one weight are the same name for the table. -/
def IdentitiesKept (db : Database) (events : List HostEvent) (s : HostState) : Prop :=
  (∀ before after, events = before ++ after →
    (runHosts db before s).2.hostInfo.UniqueNames weight) ∧
    ∀ x ∈ (runHosts db events s).1, ∀ y ∈ (runHosts db events s).1,
      weight x.1 = weight y.1 → x.2 ≠ [] → y.2 ≠ [] → x.2 = y.2

/-! ## Clean names -/

theorem faithful_select {hostName : Text} (clean : Clean hostName) :
    (Statement.selectHost hostName : Statement ℚ).Faithful :=
  (faithful_select_iff hostName).mpr clean

theorem faithful_insert {hostName : Text} (clean : Clean hostName) (time : ℤ) :
    (Statement.insertHost (newHostId hostName time) hostName : Statement ℚ).Faithful :=
  (faithful_host_iff _ _).mpr ⟨clean_newHostId clean time, clean⟩

/-- A clean name reaches the server as it is. -/
theorem getOrCreateHostId_sql {other : Other} {hostName : Text} (clean : Clean hostName)
    (o : Outcomes) (s : HostState) :
    getOrCreateHostId (.sql weight other) hostName o s =
      getOrCreateHostId (.collated weight) hostName o s := by
  have select : ∀ t, (Database.sql weight other).select hostName t =
      (Database.collated weight).select hostName t := fun t => if_pos (faithful_select clean)
  have insert : ∀ t, (Database.sql weight other).insert (newHostId hostName o.time) hostName t =
      (Database.collated weight).insert (newHostId hostName o.time) hostName t :=
    fun t => if_pos (faithful_insert clean o.time)
  unfold getOrCreateHostId queryHostId
  simp only [select, insert]

/-- What the query of a clean name finds. -/
def foundId (hostName : Text) (o : Outcomes) (t : HostInfo) : Option Text :=
  if o.selectOk && o.storeOk then t.selectHostId weight hostName else none

theorem queryHostId_collated (hostName : Text) (o : Outcomes) (t : HostInfo) :
    queryHostId (.collated weight) hostName o t = (foundId weight hostName o t, t) := by
  cases selectOk : o.selectOk <;> cases storeOk : o.storeOk <;>
    simp [queryHostId, foundId, Database.collated, selectOk, storeOk]

/-- **The ways a call can go**, with a name that reaches the server as it is. -/
theorem getOrCreateHostId_cases (hostName : Text) (o : Outcomes) (s : HostState) :
    (∃ hostId, s.hostIdCache.lookup hostName = some hostId ∧
      getOrCreateHostId (.collated weight) hostName o s = (hostId, s)) ∨
    (∃ hostId, s.hostIdCache.lookup hostName = none ∧
      foundId weight hostName o s.hostInfo = some hostId ∧
      getOrCreateHostId (.collated weight) hostName o s =
        (hostId, ⟨s.hostIdCache.insert hostName hostId, s.hostInfo⟩)) ∨
    (∃ t, s.hostIdCache.lookup hostName = none ∧ foundId weight hostName o s.hostInfo = none ∧
      o.insertOk = true ∧
      s.hostInfo.insert weight (newHostId hostName o.time) hostName = some t ∧
      getOrCreateHostId (.collated weight) hostName o s =
        (newHostId hostName o.time,
          ⟨s.hostIdCache.insert hostName (newHostId hostName o.time), t⟩)) ∨
    (s.hostIdCache.lookup hostName = none ∧ foundId weight hostName o s.hostInfo = none ∧
      (o.insertOk = true →
        s.hostInfo.insert weight (newHostId hostName o.time) hostName = none) ∧
      getOrCreateHostId (.collated weight) hostName o s = ([], s)) := by
  have query := queryHostId_collated weight hostName o s.hostInfo
  cases cached : s.hostIdCache.lookup hostName with
  | some hostId => exact Or.inl ⟨hostId, rfl, by simp [getOrCreateHostId, cached]⟩
  | none =>
      right
      cases found : foundId weight hostName o s.hostInfo with
      | some hostId =>
          exact Or.inl ⟨hostId, rfl, rfl, by simp [getOrCreateHostId, cached, query, found]⟩
      | none =>
          right
          cases insertOk : o.insertOk with
          | false =>
              refine Or.inr ⟨rfl, rfl, by simp, ?_⟩
              simp [getOrCreateHostId, cached, query, found, insertOk]
          | true =>
              cases inserted :
                s.hostInfo.insert weight (newHostId hostName o.time) hostName with
              | some t =>
                  refine Or.inl ⟨t, rfl, rfl, rfl, rfl, ?_⟩
                  simp only [getOrCreateHostId, cached, query, found, insertOk, if_true]
                  simp only [Database.collated, inserted]
              | none =>
                  refine Or.inr ⟨rfl, rfl, fun _ => rfl, ?_⟩
                  simp only [getOrCreateHostId, cached, query, found, insertOk, if_true]
                  simp only [Database.collated, inserted]

/-! ## Rows of the table -/

variable {weight}

theorem HostInfo.hasRow_of_selectHostId {t : HostInfo} {hostName hostId : Text}
    (found : t.selectHostId weight hostName = some hostId) : t.HasRow weight hostName hostId := by
  obtain ⟨row, first, rfl⟩ := Option.map_eq_some_iff.mp found
  exact ⟨row, List.mem_of_find?_eq_some first, rfl, by simpa using List.find?_some first⟩

theorem HostInfo.not_named_of_selectHostId {t : HostInfo} {hostName : Text}
    (missed : t.selectHostId weight hostName = none) : ¬ t.Named weight hostName := by
  rintro ⟨row, inside, named⟩
  have absent := List.find?_eq_none.mp (Option.map_eq_none_iff.mp missed) row inside
  exact absent (by simpa using named)

theorem HostInfo.rows_insert {t t' : HostInfo} {hostId hostName : Text}
    (inserted : t.insert weight hostId hostName = some t') :
    ¬ t.Taken weight hostId ∧ t'.rows = t.rows ++ [⟨hostId, hostName⟩] := by
  unfold HostInfo.insert at inserted
  split at inserted
  · cases inserted
  · next fresh =>
      cases inserted
      exact ⟨fresh, rfl⟩

/-- An INSERT with a new identifier succeeds. -/
theorem HostInfo.taken_of_insert {t : HostInfo} {hostId hostName : Text}
    (refused : t.insert weight hostId hostName = none) : t.Taken weight hostId := by
  by_contra fresh
  rw [HostInfo.insert, dif_neg fresh] at refused
  cases refused

/-- The row of an identifier is unique. -/
theorem HostInfo.eq_of_hostId {t : HostInfo} {row row' : HostRow} (first : row ∈ t.rows)
    (second : row' ∈ t.rows) (same : row.hostId = row'.hostId) : row = row' :=
  List.inj_on_of_nodup_map t.primaryKey first second same

omit [DecidableEq κ] in
/-- A name has one identifier as long as names are unique. -/
theorem HostInfo.UniqueNames.eq {t : HostInfo} (unique : t.UniqueNames weight)
    {hostName hostName' hostId hostId' : Text} (first : t.HasRow weight hostName hostId)
    (second : t.HasRow weight hostName' hostId') (same : weight hostName = weight hostName') :
    hostId = hostId' := by
  obtain ⟨row, inside, rfl, named⟩ := first
  obtain ⟨row', inside', rfl, named'⟩ := second
  have rows := List.inj_on_of_nodup_map unique inside inside' (named.trans (same.trans named'.symm))
  rw [rows]

omit [DecidableEq κ] in
theorem HostInfo.HasRow.mono {t t' : HostInfo} {hostName hostId : Text}
    (row : t.HasRow weight hostName hostId) (grows : ∀ row ∈ t.rows, row ∈ t'.rows) :
    t'.HasRow weight hostName hostId := by
  obtain ⟨row, inside, same⟩ := row
  exact ⟨row, grows row inside, same⟩

/-! ## The cache and the table -/

variable (weight) in
/-- What is cached for a name is the identifier of a row of the name. -/
def CacheKeeps (s : HostState) : Prop :=
  ∀ hostName hostId, s.hostIdCache.lookup hostName = some hostId →
    s.hostInfo.HasRow weight hostName hostId

omit [DecidableEq κ] in
theorem CacheKeeps.insert_cache {s : HostState} {t : HostInfo} {hostName hostId : Text}
    (keeps : CacheKeeps weight s) (grows : ∀ row ∈ s.hostInfo.rows, row ∈ t.rows)
    (row : t.HasRow weight hostName hostId) :
    CacheKeeps weight ⟨s.hostIdCache.insert hostName hostId, t⟩ := by
  intro name id found
  by_cases same : name = hostName
  · subst same
    rw [AList.lookup_insert, Option.some.injEq] at found
    rw [← found]
    exact row
  · rw [AList.lookup_insert_ne same] at found
    exact (keeps name id found).mono grows

theorem hasRow_of_foundId {hostName hostId : Text} {o : Outcomes} {t : HostInfo}
    (found : foundId weight hostName o t = some hostId) : t.HasRow weight hostName hostId := by
  unfold foundId at found
  split at found
  · exact HostInfo.hasRow_of_selectHostId found
  · cases found

/-- **One call**: the cache keeps to the table, no row is lost, and an identifier that is
returned is in a row of its name. -/
theorem CacheKeeps.of_call {s : HostState} (keeps : CacheKeeps weight s) (hostName : Text)
    (o : Outcomes) :
    CacheKeeps weight (getOrCreateHostId (.collated weight) hostName o s).2 ∧
      (∀ row ∈ s.hostInfo.rows,
        row ∈ (getOrCreateHostId (.collated weight) hostName o s).2.hostInfo.rows) ∧
      ((getOrCreateHostId (.collated weight) hostName o s).1 ≠ [] →
        (getOrCreateHostId (.collated weight) hostName o s).2.hostInfo.HasRow weight hostName
          (getOrCreateHostId (.collated weight) hostName o s).1) := by
  rcases getOrCreateHostId_cases weight hostName o s with
    ⟨hostId, cached, result⟩ | ⟨hostId, _, found, result⟩ |
    ⟨t, _, _, _, inserted, result⟩ | ⟨_, _, _, result⟩ <;> rw [result]
  · exact ⟨keeps, fun _ => id, fun _ => keeps hostName hostId cached⟩
  · have row := hasRow_of_foundId found
    exact ⟨keeps.insert_cache (fun _ => id) row, fun _ => id, fun _ => row⟩
  · have rows := (HostInfo.rows_insert inserted).2
    have grows : ∀ row ∈ s.hostInfo.rows, row ∈ t.rows := by
      intro row member
      rw [rows]
      exact List.mem_append_left _ member
    have inside : t.HasRow weight hostName (newHostId hostName o.time) := by
      apply HostInfo.hasRow_of_mem
      rw [rows]
      exact List.mem_append_right _ (List.mem_singleton.mpr rfl)
    exact ⟨keeps.insert_cache grows inside, grows, fun _ => inside⟩
  · exact ⟨keeps, fun _ => id, fun nonempty => absurd rfl nonempty⟩

/-! ## Runs without a recreated host -/

variable (weight) in
/-- The names are unique, and the cache agrees with the table. -/
structure Agreed (s : HostState) : Prop where
  unique : s.hostInfo.UniqueNames weight
  cached : CacheKeeps weight s

/-- **One call** that recreates no host keeps the names unique. -/
theorem Agreed.of_call {hostName : Text} {o : Outcomes} {s : HostState} (agreed : Agreed weight s)
    (harmless : ¬ Recreates weight hostName o s) :
    Agreed weight (getOrCreateHostId (.collated weight) hostName o s).2 := by
  refine ⟨?_, (agreed.cached.of_call hostName o).1⟩
  rcases getOrCreateHostId_cases weight hostName o s with
    ⟨_, _, result⟩ | ⟨_, _, _, result⟩ | ⟨t, missed, found, insertOk, inserted, result⟩ |
    ⟨_, _, _, result⟩ <;> rw [result]
  · exact agreed.unique
  · exact agreed.unique
  · obtain ⟨fresh, rows⟩ := HostInfo.rows_insert inserted
    have new : ¬ s.hostInfo.Named weight hostName := by
      intro named
      unfold foundId at found
      split at found
      · exact HostInfo.not_named_of_selectHostId found named
      · next failed =>
          exact harmless ⟨missed, by simpa using failed, named, insertOk, fresh⟩
    rw [HostInfo.UniqueNames, rows, List.map_append, List.map_singleton]
    exact agreed.unique.append (List.nodup_singleton _)
      (List.disjoint_singleton.mpr fun member => new (List.mem_map.mp member))
  · exact agreed.unique

variable (weight) in
/-- Every step of the run is harmless. -/
def AllHarmless (db : Database) (events : List HostEvent) (s : HostState) : Prop :=
  ∀ before event after, events = before ++ event :: after →
    Harmless weight event (runHosts db before s).2

section AllHarmless

omit [DecidableEq κ]

variable {db : Database} {events : List HostEvent} {s : HostState}

theorem AllHarmless.head {event : HostEvent}
    (harmless : AllHarmless weight db (event :: events) s) : Harmless weight event s :=
  harmless [] event events rfl

theorem AllHarmless.tail_call {hostName : Text} {o : Outcomes}
    (harmless : AllHarmless weight db (.call hostName o :: events) s) :
    AllHarmless weight db events (getOrCreateHostId db hostName o s).2 :=
  fun before event after split =>
    harmless (.call hostName o :: before) event after (congrArg (List.cons _) split)

theorem AllHarmless.tail_restart (harmless : AllHarmless weight db (.restart :: events) s) :
    AllHarmless weight db events { s with hostIdCache := ∅ } :=
  fun before event after split =>
    harmless (.restart :: before) event after (congrArg (List.cons _) split)

theorem allHarmless_nil (db : Database) (s : HostState) : AllHarmless weight db [] s := by
  intro before event after split
  cases before <;> cases split

theorem allHarmless_cons {event : HostEvent} (first : Harmless weight event s)
    (rest : AllHarmless weight db events (runHosts db [event] s).2) :
    AllHarmless weight db (event :: events) s := by
  intro before next after split
  cases before with
  | nil =>
      cases split
      exact first
  | cons other before =>
      obtain ⟨same, tail⟩ := List.cons.inj split
      subst same
      have there := rest before next after tail
      cases event with
      | restart => exact there
      | call hostName o => exact there

end AllHarmless

omit [DecidableEq κ] in
theorem Agreed.restart {s : HostState} (agreed : Agreed weight s) :
    Agreed weight { s with hostIdCache := ∅ } :=
  ⟨agreed.unique, fun _ _ found => by cases found⟩

/-- **A run** without a recreated host. -/
theorem Agreed.of_run {other : Other} {events : List HostEvent} {s : HostState}
    (agreed : Agreed weight s) (harmless : AllHarmless weight (.sql weight other) events s) :
    Agreed weight (runHosts (.sql weight other) events s).2 ∧
      (∀ row ∈ s.hostInfo.rows,
        row ∈ (runHosts (.sql weight other) events s).2.hostInfo.rows) ∧
      ∀ x ∈ (runHosts (.sql weight other) events s).1, x.2 ≠ [] →
        (runHosts (.sql weight other) events s).2.hostInfo.HasRow weight x.1 x.2 := by
  induction events generalizing s with
  | nil => exact ⟨agreed, fun _ => id, fun _ member => by cases member⟩
  | cons event events ih =>
      cases event with
      | restart => exact ih agreed.restart harmless.tail_restart
      | call hostName o =>
          have tail := harmless.tail_call
          rw [getOrCreateHostId_sql weight harmless.head.1] at tail
          obtain ⟨_, grows, returned⟩ := agreed.cached.of_call hostName o
          obtain ⟨final, later, others⟩ := ih (agreed.of_call harmless.head.2) tail
          simp only [runHosts, getOrCreateHostId_sql weight harmless.head.1]
          refine ⟨final, fun row member => later row (grows row member), ?_⟩
          intro x member nonempty
          rcases List.mem_cons.mp member with rfl | member
          · exact (returned nonempty).mono later
          · exact others x member nonempty

/-- A recreated host has two rows. -/
theorem not_unique_of_recreates {other : Other} {hostName : Text} {o : Outcomes} {s : HostState}
    (clean : Clean hostName) (recreates : Recreates weight hostName o s) :
    ¬ (getOrCreateHostId (.sql weight other) hostName o s).2.hostInfo.UniqueNames weight := by
  obtain ⟨missed, failed, named, insertOk, fresh⟩ := recreates
  have nothing : foundId weight hostName o s.hostInfo = none := by
    rw [foundId, failed]
    rfl
  rw [getOrCreateHostId_sql weight clean]
  rcases getOrCreateHostId_cases weight hostName o s with
    ⟨_, cached, _⟩ | ⟨_, _, found, _⟩ | ⟨t, _, _, _, inserted, result⟩ | ⟨_, _, refused, _⟩
  · rw [missed] at cached
    cases cached
  · rw [nothing] at found
    cases found
  · rw [result]
    intro unique
    rw [HostInfo.UniqueNames, (HostInfo.rows_insert inserted).2, List.map_append,
      List.map_singleton] at unique
    exact (List.disjoint_of_nodup_append unique) (List.mem_map.mpr named)
      (List.mem_singleton.mpr rfl)
  · exact absurd (HostInfo.taken_of_insert (refused insertOk)) fresh

theorem runHosts_append (db : Database) (before after : List HostEvent) (s : HostState) :
    (runHosts db (before ++ after) s).2 = (runHosts db after (runHosts db before s).2).2 := by
  induction before generalizing s with
  | nil => rfl
  | cons event before ih =>
      cases event with
      | restart => exact ih _
      | call hostName o => exact ih _

/-- **Identities are kept exactly as long as no host is recreated.**  Take any collation, and any
run of calls and restarts, from an empty cache and a table with at most one row for each name, on
a server that may do anything with a text that is not a faithful statement.  When every call
has a clean name and recreates no host, the table keeps at most one row for each name and
all identifiers returned for a name are the same.  When every call has a clean name, this
is also necessary. -/
theorem identities_kept (weight : Text → κ) (other : Other) {t : HostInfo}
    (unique : t.UniqueNames weight) (events : List HostEvent) :
    (AllHarmless weight (.sql weight other) events ⟨∅, t⟩ →
        IdentitiesKept weight (.sql weight other) events ⟨∅, t⟩) ∧
      ((∀ hostName o, HostEvent.call hostName o ∈ events → Clean hostName) →
        IdentitiesKept weight (.sql weight other) events ⟨∅, t⟩ →
          AllHarmless weight (.sql weight other) events ⟨∅, t⟩) := by
  have start : Agreed weight ⟨∅, t⟩ := ⟨unique, fun _ _ found => by cases found⟩
  constructor
  · intro harmless
    constructor
    · rintro before after rfl
      refine (start.of_run fun before' event after' split => ?_).1.unique
      exact harmless before' event (after' ++ after) (by rw [split]; simp)
    · obtain ⟨final, _, returned⟩ := start.of_run harmless
      intro x first y second same nonempty nonempty'
      exact final.unique.eq (returned x first nonempty) (returned y second nonempty') same
  · intro clean kept before event after split
    cases event with
    | restart => exact trivial
    | call hostName o =>
        have named : Clean hostName := clean hostName o (by rw [split]; simp)
        refine ⟨named, fun recreates => ?_⟩
        have after' := kept.1 (before ++ [.call hostName o]) after (by rw [split]; simp)
        rw [runHosts_append] at after'
        exact not_unique_of_recreates named recreates after'

end Collation

/-! ## Names that are compared as they are -/

/-- What is cached for a name is in the name's row. -/
def CacheAgrees (s : HostState) : Prop :=
  ∀ hostName hostId, s.hostIdCache.lookup hostName = some hostId →
    ⟨hostId, hostName⟩ ∈ s.hostInfo.rows

theorem cacheAgrees_iff {s : HostState} : CacheAgrees s ↔ CacheKeeps id s :=
  forall₃_congr fun _ _ _ => HostInfo.hasRow_id.symm

theorem mem_of_foundId {hostName hostId : Text} {o : Outcomes} {t : HostInfo}
    (found : foundId id hostName o t = some hostId) : ⟨hostId, hostName⟩ ∈ t.rows :=
  HostInfo.hasRow_id.mp (hasRow_of_foundId found)

/-- **One call**: the cache keeps to the table, no row is lost, and an identifier that is
returned is in the row of its name. -/
theorem CacheAgrees.of_call {s : HostState} (agrees : CacheAgrees s) (hostName : Text)
    (o : Outcomes) :
    CacheAgrees (getOrCreateHostId .literal hostName o s).2 ∧
      (∀ row ∈ s.hostInfo.rows,
        row ∈ (getOrCreateHostId .literal hostName o s).2.hostInfo.rows) ∧
      ((getOrCreateHostId .literal hostName o s).1 ≠ [] →
        ⟨(getOrCreateHostId .literal hostName o s).1, hostName⟩ ∈
          (getOrCreateHostId .literal hostName o s).2.hostInfo.rows) := by
  obtain ⟨keeps, grows, returned⟩ := (cacheAgrees_iff.mp agrees).of_call hostName o
  exact ⟨cacheAgrees_iff.mpr keeps, grows, fun nonempty =>
    HostInfo.hasRow_id.mp (returned nonempty)⟩

/-! ## A restart and a failing query -/

/-- A server that answers nothing to other texts. -/
def silent : Other := ⟨fun _ t => (none, t), fun _ t => (false, t)⟩

/-- A collation that takes upper and lower case letters for the same. -/
def ignoreCase (text : Text) : Text := text.map Char.toLower

/-- The host `web` is created; the client restarts, and its row is found for `Web`. -/
def steadyEvents : List HostEvent :=
  [.call "web".toList ⟨true, true, true, 100⟩, .restart,
    .call "Web".toList ⟨true, true, true, 200⟩]

theorem identities_steady :
    IdentitiesKept ignoreCase (.sql ignoreCase silent) steadyEvents ⟨∅, .empty⟩ := by
  have clean : Clean "web".toList := by decide
  have clean' : Clean "Web".toList := by decide
  apply (identities_kept ignoreCase silent (t := .empty) List.nodup_nil steadyEvents).1
  refine allHarmless_cons ⟨clean, fun recreates => absurd recreates.2.1 (by decide)⟩ ?_
  refine allHarmless_cons trivial ?_
  exact allHarmless_cons ⟨clean', fun recreates => absurd recreates.2.1 (by decide)⟩
    (allHarmless_nil _ _)

/-- The host `web` is created; the client restarts, and its next SELECT fails. -/
def restartEvents : List HostEvent :=
  [.call "web".toList ⟨true, true, true, 100⟩, .restart,
    .call "web".toList ⟨false, true, true, 200⟩]

/-- The table has two rows of `web` then. -/
theorem identities_restart :
    HostInfo.empty.UniqueNames ignoreCase ∧
      ¬ IdentitiesKept ignoreCase (.sql ignoreCase silent) restartEvents ⟨∅, .empty⟩ := by
  have clean : Clean "web".toList := by decide
  refine ⟨List.nodup_nil, fun kept => ?_⟩
  have unique := kept.1 restartEvents [] (List.append_nil _).symm
  simp only [restartEvents, runHosts, getOrCreateHostId_sql ignoreCase clean] at unique
  exact absurd (show List.Nodup _ from unique) (by decide)

end LinuxMonitor.PerformanceServer
