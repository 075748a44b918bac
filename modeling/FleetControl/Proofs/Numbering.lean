import FleetControl.Proofs.Histories
import FleetControl.Proofs.NodeActions
import FleetControl.Proofs.Sifting
import Mathlib.Data.List.Flatten
import Mathlib.Data.List.Perm.Basic

/-!
# The numbers of rows

All rows get their numbers from one counter. A call inserts rows, each with the next number (`Store.Grows`), or it removes some and
gives no number (`Store.Shrinks`), and never both. So the rows of a table stand in the order of their numbers, no number is given
twice, and the number given last is that of all rows ever inserted (`Store.lastId_replay`). With what identifies rows and where nodes
may be, that is the form which every store has that operations lead to (`Store.wellFormed_of_reachable`).
-/

namespace FleetControl

/-- The tables whose rows have numbers. The history of each attribute is one of them. -/
inductive Table where
  | nodes
  | archive
  | queries
  | executions
  | users
  | history (kind : HistoryKind)
  deriving DecidableEq

/-- Every table whose rows have numbers. -/
def Table.all : List Table := [.nodes, .archive, .queries, .executions, .users] ++ HistoryKind.all.map .history

namespace Store

/-- The numbers of the rows of a table, in the order of the rows. -/
def idsOf (s : Store) : Table → List Nat
  | .nodes => s.nodes.map (·.id)
  | .archive => s.archive.map (·.id)
  | .queries => s.queries.map (·.id)
  | .executions => s.executions.map (·.id)
  | .users => s.users.map (·.id)
  | .history kind => (s.history.filter (·.kind == kind)).map (·.id)

/-- The numbers of all rows. -/
def ids (s : Store) : List Nat := Table.all.flatMap s.idsOf

/-- How many rows with numbers there are. -/
def rows (s : Store) : Nat :=
  s.nodes.length + s.archive.length + s.queries.length + s.executions.length + s.users.length + s.history.length

/-- How many rows the calls of a log inserted: by how many there are more after a call than before. -/
def inserted : Store → List (Time × Call) → Nat
  | _, [] => 0
  | s, (time, c) :: log => ((c.after time s).rows - s.rows) + inserted (c.after time s) log

/-- The rows of every table stand in the order of their numbers, no two rows have the same number, and none has a later number than
the one given last. -/
structure Numbered (s : Store) : Prop where
  ordered : ∀ table, (s.idsOf table).Pairwise (· < ·)
  distinct : s.ids.Nodup
  last : ∀ id ∈ s.ids, id ≤ s.lastId

/-- Rows were inserted one after another, as many as said, and each got the next number. -/
inductive Grows (s : Store) : Nat → Store → Prop where
  | still {s' : Store} (hlast : s'.lastId = s.lastId) (hids : s'.idsOf = s.idsOf) : Grows s 0 s'
  | insert {count : Nat} {s' s'' : Store} (h : Grows s count s') (table : Table) (hlast : s''.lastId = s'.nextId)
      (hids : ∀ other, s''.idsOf other = s'.idsOf other ++ if other = table then [s'.nextId] else []) :
      Grows s (count + 1) s''

/-- Rows were removed, or none, and no number was given. -/
structure Shrinks (s s' : Store) : Prop where
  lastId : s'.lastId = s.lastId
  ids : ∀ table, (s'.idsOf table).Sublist (s.idsOf table)

end Store

theorem Table.mem_all (table : Table) : table ∈ Table.all := by
  cases table with
  | history kind => cases kind <;> decide
  | _ => decide

namespace Store

variable {s s' : Store}

theorem idsOf_subset_ids (table : Table) : s.idsOf table ⊆ s.ids := by
  intro id hid
  exact List.mem_flatMap.mpr ⟨table, table.mem_all, hid⟩

/-- Every row with a number is in one of the tables. -/
theorem length_ids (s : Store) : s.ids.length = s.rows := by
  have hhistory : ∀ entries : List HistoryEntry,
      (HistoryKind.all.map fun kind => (entries.filter (·.kind == kind)).length).sum = entries.length := by
    intro entries
    induction entries with
    | nil => rfl
    | cons e entries ih =>
      simp only [HistoryKind.all, List.map_cons, List.map_nil, List.sum_cons, List.sum_nil] at ih ⊢
      cases hkind : e.kind <;> simp [hkind] <;> omega
  have hall := hhistory s.history
  simp only [HistoryKind.all, List.map_cons, List.map_nil, List.sum_cons, List.sum_nil] at hall
  simp only [ids, rows, Table.all, HistoryKind.all, idsOf, List.flatMap_cons, List.flatMap_nil, List.map_cons, List.map_nil,
    List.length_append, List.length_map, List.cons_append, List.nil_append, List.length_nil]
  omega

/-- A row that is inserted into a table is one more in all. -/
theorem perm_ids_of_insert {table : Table} {id : Nat}
    (hids : ∀ other, s'.idsOf other = s.idsOf other ++ if other = table then [id] else []) : s'.ids.Perm (id :: s.ids) := by
  have hnew : Table.all.flatMap (fun other => if other = table then [id] else []) = [id] := by
    cases table with
    | history kind => cases kind <;> rfl
    | _ => rfl
  have hsplit : s'.ids = Table.all.flatMap fun other => s.idsOf other ++ if other = table then [id] else [] :=
    List.flatMap_congr fun other _ => hids other
  have hperm := List.flatMap_append_perm Table.all s.idsOf fun other => if other = table then [id] else []
  rw [hnew, ← hsplit] at hperm
  exact hperm.symm.trans (List.perm_append_singleton id s.ids)

namespace Grows

variable {count : Nat}

theorem congr (h : s.Grows count s') {s'' : Store} (hlast : s''.lastId = s'.lastId) (hids : s''.idsOf = s'.idsOf) :
    s.Grows count s'' := by
  cases h with
  | still hlast' hids' => exact .still (hlast.trans hlast') (hids.trans hids')
  | insert h table hlast' hids' => exact .insert h table (hlast.trans hlast') fun other => (congrFun hids other).trans (hids' other)

/-- The number given last is later by the number of the rows inserted. -/
theorem lastId_eq (h : s.Grows count s') : s'.lastId = s.lastId + count := by
  induction h with
  | still hlast => exact hlast
  | insert _ _ hlast _ ih => rw [hlast, nextId, ih, Nat.add_assoc]

/-- There are as many rows more as were inserted. -/
theorem rows_eq (h : s.Grows count s') : s'.rows = s.rows + count := by
  induction h with
  | still _ hids => rw [← length_ids, ← length_ids, ids, ids, hids, Nat.add_zero]
  | insert _ table _ hids ih =>
    rw [← length_ids, (perm_ids_of_insert hids).length_eq, List.length_cons, length_ids, ih, Nat.add_assoc]

/-- No row goes, and rows are inserted at the end of their tables. -/
theorem prefix_idsOf (h : s.Grows count s') (table : Table) : s.idsOf table <+: s'.idsOf table := by
  induction h with
  | still _ hids => exact hids ▸ List.prefix_refl _
  | insert _ _ _ hids ih =>
    rw [hids]
    exact ih.trans (List.prefix_append _ _)

theorem numbered (h : s.Grows count s') (hs : s.Numbered) : s'.Numbered := by
  induction h with
  | still hlast hids =>
    obtain ⟨hordered, hdistinct, hbelow⟩ := hs
    refine ⟨?_, ?_, ?_⟩
    · rwa [hids]
    · rwa [ids, hids]
    · rwa [ids, hids, hlast]
  | @insert count s' s'' _ table hlast hids ih =>
    obtain ⟨hordered, hdistinct, hbelow⟩ := ih
    have hnew : ∀ id ∈ s'.ids, id < s'.nextId := by
      intro id hid
      exact Nat.lt_succ_of_le (hbelow id hid)
    have hperm : s''.ids.Perm (s'.nextId :: s'.ids) := perm_ids_of_insert hids
    refine ⟨?_, ?_, ?_⟩
    · intro other
      rw [hids]
      split
      · rw [List.pairwise_append]
        refine ⟨hordered other, List.pairwise_singleton _ _, ?_⟩
        intro id hid id' hid'
        rw [List.mem_singleton.mp hid']
        exact hnew id (idsOf_subset_ids other hid)
      · rw [List.append_nil]
        exact hordered other
    · rw [hperm.nodup_iff, List.nodup_cons]
      refine ⟨?_, hdistinct⟩
      intro hmem
      exact Nat.lt_irrefl _ (hnew _ hmem)
    · intro id hid
      rw [hlast]
      rcases List.mem_cons.mp (hperm.mem_iff.mp hid) with rfl | hid
      · exact Nat.le_refl _
      · exact Nat.le_of_lt (hnew id hid)

end Grows

namespace Shrinks

theorem sublist_ids (h : s.Shrinks s') : s'.ids.Sublist s.ids := List.Sublist.flatMap_right _ fun table _ => h.ids table

theorem rows_le (h : s.Shrinks s') : s'.rows ≤ s.rows := by
  rw [← length_ids, ← length_ids]
  exact h.sublist_ids.length_le

theorem numbered (h : s.Shrinks s') (hs : s.Numbered) : s'.Numbered := by
  refine ⟨fun table => (hs.ordered table).sublist (h.ids table), hs.distinct.sublist h.sublist_ids, ?_⟩
  intro id hid
  rw [h.lastId]
  exact hs.last id (h.sublist_ids.subset hid)

end Shrinks

/-! ## What is written without a number -/

section Changes

variable (s)

/-- A change to rows that leaves their numbers leaves the numbers of the table. -/
theorem map_id_of_change {α : Type} {rows : List α} {id : α → Nat} {p : α → Prop} [DecidablePred p] {change : α → α}
    (h : ∀ row, id (change row) = id row) : (rows.map fun row => if p row then change row else row).map id = rows.map id := by
  rw [List.map_map]
  refine List.map_congr_left ?_
  intro row _
  simp only [Function.comp_apply]
  split
  · exact h row
  · rfl

theorem idsOf_changeNode (uuid : String) {change : Node → Node} (h : ∀ n, (change n).id = n.id) :
    (s.changeNode uuid change).idsOf = s.idsOf := by
  funext table
  cases table with
  | nodes => exact map_id_of_change h
  | _ => rfl

theorem idsOf_changeQuery (name : String) {change : Query → Query} (h : ∀ q, (change q).id = q.id) :
    (s.changeQuery name change).idsOf = s.idsOf := by
  funext table
  cases table with
  | queries => exact map_id_of_change h
  | _ => rfl

theorem idsOf_changeUser (username : String) {change : Access.User → Access.User} (h : ∀ u, (change u).id = u.id) :
    (s.changeUser username change).idsOf = s.idsOf := by
  funext table
  cases table with
  | users => exact map_id_of_change h
  | _ => rfl

end Changes

/-! ## Writes to the history -/

/-- A new entry of the history is a row that gets the next number. -/
theorem Grows.appendHistory {count : Nat} (h : s.Grows count s') (now : Time) (uuid : String) (kind : HistoryKind) (value : String)
    (sightings : Int) : s.Grows (count + 1) (s'.appendHistory now uuid kind value sightings) := by
  refine .insert h (.history kind) rfl ?_
  intro other
  cases other with
  | history k =>
    by_cases hk : k = kind
    · simp [idsOf, Store.appendHistory, hk]
    · simp [idsOf, Store.appendHistory, hk, Ne.symm hk]
  | _ => exact (List.append_nil _).symm

/-- A sighting that is counted on an entry leaves the numbers. -/
theorem idsOf_of_changeLast {holds : HistoryEntry → Bool} {change : HistoryEntry → HistoryEntry} {history : List HistoryEntry}
    (h : changeLast holds change s.history = some history) (hid : ∀ e, (change e).id = e.id)
    (hkind : ∀ e, (change e).kind = e.kind) : { s with history := history }.idsOf = s.idsOf := by
  rcases changeLast_cases holds change s.history with ⟨hnone, -⟩ | ⟨before, e, after, heq, -, -, hchanged⟩
  · rw [hnone] at h
    cases h
  · rw [hchanged] at h
    cases h
    funext table
    cases table with
    | history kind => by_cases hk : e.kind = kind <;> simp [idsOf, heq, hid, hkind, hk]
    | _ => rfl

/-- Writes to the history insert the entries that are new. -/
theorem Grows.foldl_applyChange {count : Nat} (h : s.Grows count s') (now : Time) (uuid : String) (changes : List HistoryChange) :
    ∃ count', s.Grows count' (changes.foldl (applyChange now uuid) s') := by
  induction changes generalizing count s' with
  | nil => exact ⟨count, h⟩
  | cons change changes ih =>
    cases change with
    | append kind value sightings => exact ih (h.appendHistory now uuid kind value sightings)
    | increment kind value =>
      rw [List.foldl_cons, applyChange, bumpHistory]
      split
      · rename_i history hchanged
        exact ih (h.congr rfl (idsOf_of_changeLast hchanged (fun _ => rfl) fun _ => rfl))
      · exact ih (h.appendHistory now uuid kind value 1)

/-! ## What a call does to the numbers -/

/-- A row at the end of a table, with the next number, is a row inserted. -/
theorem grows_of_row (table : Table) (hlast : s'.lastId = s.nextId)
    (hids : ∀ other, s'.idsOf other = s.idsOf other ++ if other = table then [s.nextId] else []) :
    s.Grows 1 s' :=
  .insert (.still rfl rfl) table hlast hids

end Store

/-- A call inserts rows, each with the next number, or it gives no number and at most removes rows. -/
theorem Call.grows_or_shrinks (c : Call) (now : Time) (s : Store) :
    (∃ count, s.Grows count (c.after now s)) ∨ s.Shrinks (c.after now s) := by
  have hsame : ∀ s' : Store, s'.lastId = s.lastId → s'.idsOf = s.idsOf → (∃ count, s.Grows count s') ∨ s.Shrinks s' :=
    fun s' hlast hids => .inl ⟨0, .still hlast hids⟩
  cases c with
  | insertNode e seeds =>
    rcases after_insertNode s now e seeds with ⟨heq, -⟩ | ⟨hfree, -⟩
    · rw [heq]
      exact hsame s rfl rfl
    · have hnode : s.Grows 1 { s with lastId := s.nextId, nodes := s.nodes ++ [s.newNode now e] } := by
        refine Store.grows_of_row .nodes rfl ?_
        intro other
        cases other <;> simp [Store.idsOf, Store.newNode]
      rw [after_insertNode_of_free now hfree]
      exact .inl (hnode.foldl_applyChange now e.uuid _)
  | applyObservation uuid observed =>
    cases hfind : s.nodes.find? (·.uuid == uuid) with
    | none =>
      rw [after_applyObservation_of_none now hfind]
      exact hsame s rfl rfl
    | some n =>
      rw [after_applyObservation_of_find now hfind]
      have hnode : s.Grows 0 (s.changeNode uuid fun m => m.revised now (Revision.plan n.attributes.readings observed)) :=
        .still rfl (s.idsOf_changeNode uuid fun _ => rfl)
      exact .inl (hnode.foldl_applyChange now uuid _)
  | touchEvent uuid event time =>
    rw [after_touchEvent]
    exact hsame _ rfl (s.idsOf_changeNode uuid fun _ => rfl)
  | insertArchive snapshot =>
    refine .inl ⟨1, Store.grows_of_row .archive rfl ?_⟩
    intro other
    cases other <;> simp [Store.idsOf, after, exec, Store.insertArchive]
  | deleteNode uuid =>
    rw [after_deleteNode]
    refine .inr ⟨rfl, ?_⟩
    intro table
    cases table with
    | nodes => exact List.filter_sublist.map _
    | _ => exact List.Sublist.refl _
  | insertQuery draft =>
    rw [after_insertQuery]
    split
    · exact hsame s rfl rfl
    · refine .inl ⟨1, Store.grows_of_row .queries rfl ?_⟩
      intro other
      cases other <;> simp [Store.idsOf, Store.newQuery]
  | insertQueryWithTargets draft targets =>
    rw [after_insertQueryWithTargets]
    split
    · exact hsame s rfl rfl
    · refine .inl ⟨1, Store.grows_of_row .queries rfl ?_⟩
      intro other
      cases other <;> simp [Store.idsOf, Store.newQuery]
  | insertTargets name added =>
    rw [after_insertTargets]
    split <;> exact hsame _ rfl rfl
  | setExpected name expected =>
    rw [after_setExpected]
    exact hsame _ rfl (s.idsOf_changeQuery name fun _ => rfl)
  | setFlags name flags =>
    rw [after_setFlags]
    exact hsame _ rfl (s.idsOf_changeQuery name fun _ => rfl)
  | incrementCounter name counter =>
    rw [after_incrementCounter]
    exact hsame _ rfl (s.idsOf_changeQuery name fun q => (q.same_counted counter).id)
  | recordExecution e =>
    rw [after_recordExecution]
    split
    · exact hsame s rfl rfl
    · have hids : (s.changeQuery e.name (·.tallied e)).idsOf = s.idsOf :=
        s.idsOf_changeQuery e.name fun q => (q.same_tallied e).id
      refine .inl ⟨1, Store.grows_of_row .executions rfl ?_⟩
      intro other
      rw [← hids]
      cases other <;> simp [Store.idsOf, Store.changeQuery]
  | insertUser account =>
    rw [after_insertUser]
    split
    · exact hsame s rfl rfl
    · refine .inl ⟨1, Store.grows_of_row .users rfl ?_⟩
      intro other
      cases other <;> simp [Store.idsOf, Store.newUser]
  | setAdmin username admin permissions =>
    rw [after_setAdmin]
    exact hsame _ rfl (s.idsOf_changeUser username fun _ => rfl)
  | setPermissions username permissions =>
    rw [after_setPermissions]
    exact hsame _ rfl (s.idsOf_changeUser username fun _ => rfl)
  | deleteUser username =>
    rw [after_deleteUser]
    refine .inr ⟨rfl, ?_⟩
    intro table
    cases table with
    | users => exact List.filter_sublist.map _
    | _ => exact List.Sublist.refl _
  | _ => exact hsame s rfl rfl

/-! ## The number given last -/

namespace Store

variable {s : Store}

theorem numbered_empty : Numbered .empty := by
  have hids : ∀ table, Store.empty.idsOf table = [] := by
    intro table
    cases table <;> rfl
  refine ⟨?_, List.nodup_nil, fun id hid => absurd hid List.not_mem_nil⟩
  intro table
  rw [hids]
  exact .nil

/-- Every call keeps the rows in the order of their numbers. -/
theorem Numbered.after (h : s.Numbered) (c : Call) (now : Time) : (c.after now s).Numbered := by
  rcases c.grows_or_shrinks now s with ⟨count, hgrows⟩ | hshrinks
  · exact hgrows.numbered h
  · exact hshrinks.numbered h

theorem Numbered.of_reachable {settings : Settings} (hs : Reachable settings s) : s.Numbered :=
  hs.preserves numbered_empty fun c _ now _ h => h.after c now

/-- The number given last is later by the number of the rows that the calls of a log inserted. -/
theorem lastId_replay (s : Store) (log : List (Time × Call)) : (s.replay log).lastId = s.lastId + s.inserted log := by
  induction log generalizing s with
  | nil => rfl
  | cons entry log ih =>
    obtain ⟨time, c⟩ := entry
    change ((c.after time s).replay log).lastId = s.lastId + (((c.after time s).rows - s.rows) + (c.after time s).inserted log)
    rw [ih]
    rcases c.grows_or_shrinks time s with ⟨count, hgrows⟩ | hshrinks
    · have hlast := hgrows.lastId_eq
      have hrows := hgrows.rows_eq
      omega
    · have hlast := hshrinks.lastId
      have hrows := hshrinks.rows_le
      omega

end Store

/-! ## The form of a store -/

/-- Live nodes have different keys and different UUIDs, which are not empty and in canonical form, and are in environments of the
fleet. Queries have different names, and targets are of stored queries. Users have different usernames, which are not blank and not
padded. And all rows are numbered. -/
structure Store.WellFormed (settings : Settings) (s : Store) : Prop where
  keys : (s.nodes.map (·.key)).Nodup
  uuids : (s.nodes.map (·.uuid)).Nodup
  identities : ∀ n ∈ s.nodes, (n.key ≠ "" ∧ canonicalKey n.key = n.key) ∧ n.uuid ≠ "" ∧ canonicalUuid n.uuid = n.uuid
  environments : ∀ n ∈ s.nodes, n.attributes.environment ∈ settings.environments
  names : (s.queries.map (·.name)).Nodup
  targets : ∀ entry ∈ s.targets, ∃ q ∈ s.queries, q.name = entry.query
  usernames : (s.users.map (·.username)).Nodup
  named : ∀ u ∈ s.users, u.username ≠ "" ∧ Text.trim u.username = u.username
  numbered : s.Numbered

namespace Store

variable {settings : Settings} {s : Store}

/-- A node is enrolled with a key and a UUID that are not empty. -/
theorem identified_of_reachable (hs : Reachable settings s) : ∀ n ∈ s.nodes, n.key ≠ "" ∧ n.uuid ≠ "" := by
  refine Sound.forall_nodes_of_reachable (fun n n' hsame h => ?_) (fun s now e seeds hproper => ?_) hs
  · rwa [hsame.key, hsame.uuid]
  · cases hproper with
    | reads hreads => cases hreads
    | insertNode _ _ hkeyed _ huuided => exact ⟨hkeyed, huuided⟩

/-- Changes that keep the usernames leave the list of them. -/
theorem map_username_of_same {change : Access.User → Access.User} (hsame : ∀ u, (change u).username = u.username)
    (users : List Access.User) : (users.map change).map (·.username) = users.map (·.username) := by
  rw [List.map_map]
  exact List.map_congr_left fun u _ => hsame u

/-- Users are told from one another by their usernames, which are as accounts are made with. -/
theorem usernames_of_reachable (hs : Reachable settings s) :
    (s.users.map (·.username)).Nodup ∧ ∀ u ∈ s.users, u.username ≠ "" ∧ Text.trim u.username = u.username := by
  refine hs.preserves (P := fun s : Store => (s.users.map (·.username)).Nodup ∧
    ∀ u ∈ s.users, u.username ≠ "" ∧ Text.trim u.username = u.username) ?_ ?_
  · exact ⟨List.nodup_nil, fun _ hu => absurd hu List.not_mem_nil⟩
  · rintro c hc now s ⟨hdistinct, hnamed⟩
    rcases Call.users_cases s now c with ⟨change, hsame, husers⟩ | ⟨account, rfl, hfree, husers⟩ | ⟨username, -, husers⟩
    · rw [husers]
      refine ⟨map_username_of_same hsame s.users ▸ hdistinct, ?_⟩
      rw [List.forall_mem_map]
      intro u hu
      rw [hsame u]
      exact hnamed u hu
    · rw [husers, List.map_append, List.forall_mem_append, List.forall_mem_singleton]
      refine ⟨hdistinct.append (List.nodup_singleton _) (List.disjoint_singleton.mpr hfree), hnamed, ?_⟩
      cases hc with
      | reads hreads => cases hreads
      | insertUser _ htrimmed hblank _ => exact ⟨hblank, htrimmed⟩
    · rw [husers]
      exact ⟨hdistinct.sublist (List.filter_sublist.map _), fun u hu => hnamed u (List.mem_filter.mp hu).1⟩

theorem WellFormed.of_reachable (hs : Reachable settings s) : s.WellFormed settings := by
  have hsound := Sound.of_reachable hs
  obtain ⟨husernames, hnamed⟩ := usernames_of_reachable hs
  refine ⟨hsound.keys, hsound.uuids, ?_, ?_, hsound.names, ?_, husernames, hnamed, .of_reachable hs⟩
  · intro n hn
    obtain ⟨hkey, huuid⟩ := identified_of_reachable hs n hn
    exact ⟨⟨hkey, canonicalKey_of_reachable hs n hn⟩, huuid, hsound.canonical n hn⟩
  · intro n hn
    exact List.contains_iff_mem.mp (Placed.of_reachable hs n hn)
  · intro entry hentry
    exact s.mem_queryNames.mp (TargetsStored.of_reachable hs entry hentry)

end Store

namespace Operation

variable {settings : Settings} {s : Store} {op : Operation} {time : Time}

/-- An operation without a result gives a number in just one case: it removes a node twice. -/
theorem lastId_of_error_iff (hs : Reachable settings s) {why : Stop} (herror : (op.run settings time s).1 = .error why) :
    (op.run settings time s).2.lastId ≠ s.lastId ↔
      ∃ actor action uuids, op = .nodeAction actor action uuids ∧ action.RemovesTwice s actor uuids := by
  constructor
  · intro hgiven
    by_contra hnot
    refine hgiven (congrArg Store.lastId ?_)
    cases op with
    | nodeAction actor action uuids =>
      have honce : ¬action.RemovesTwice s actor uuids := fun htwice => hnot ⟨actor, action, uuids, rfl, htwice⟩
      exact ((Fleet.allOrNothing_nodeAction honce).map Answer.archived) why _ (Prod.ext herror rfl)
    | _ => exact allOrNothing (Store.Sound.of_reachable hs) rfl time why _ (Prod.ext herror rfl)
  · rintro ⟨actor, action, uuids, rfl, rfl, hpermits, hall, htwice⟩
    rcases uuids with _ | ⟨uuid, rest⟩
    · exact absurd List.nodup_nil htwice
    · -- the first node is removed, and the row of its snapshot gets a number
      obtain ⟨row, s₁, hretire, hlast, -⟩ := Roster.run_retire_of_hasNode (hall uuid List.mem_cons_self)
      have hrun : ((nodeAction actor .delete (uuid :: rest)).run settings time s).2 =
          ((rest.mapM (Fleet.actOn .delete) >>= fun rows => pure (row :: rows)).run time s₁).2 := by
        rw [run, program, Program.run_map, Fleet.run_nodeAction_of_hasNode hpermits hall, List.mapM_cons]
        exact congrArg Prod.snd (Program.run_bind_of_ok hretire _)
      have hrest : s₁.lastId ≤ ((rest.mapM (Fleet.actOn .delete) >>= fun rows => pure (row :: rows)).run time s₁).2.lastId :=
        Program.run_preserves_of_all (P := fun t => s₁.lastId ≤ t.lastId) (fun c t h => h.trans (Call.lastId_le t time c)) _
          (Nat.le_refl _)
      rw [hrun]
      rw [hlast] at hrest
      exact Nat.ne_of_gt hrest

end Operation

/-- Stores that operations lead to are well-formed. The numbers of all rows are distinct and ascend in every table, and count the
rows that were inserted. Only an action that removes a node twice ends without a result after it gave numbers. -/
theorem Store.wellFormed_of_reachable (settings : Settings) :
    (∀ s, Reachable settings s → s.WellFormed settings ∧
      ∃ v : Session, v.Reached settings ∧ v.store = s ∧ ∀ entry ∈ v.journal, ∃ op, entry.command = .fleet op) ∧
    (∀ v : Session, v.Reached settings → v.store.Numbered ∧
      v.store.lastId = Store.empty.inserted (v.journal.map fun entry => (entry.time, entry.call))) ∧
    (∀ (c : Call) (time : Time) (s : Store),
      (∀ table, s.idsOf table <+: (c.after time s).idsOf table) ∨ s.Shrinks (c.after time s)) ∧
    (∀ (c : Call) (time : Time) (s : Store) (why : Refusal), c.exec time s = .error why → c.after time s = s) ∧
    ∀ s, Reachable settings s → ∀ (op : Operation) (time : Time) (why : Stop), (op.run settings time s).1 = .error why →
      ((op.run settings time s).2.lastId ≠ s.lastId ↔
        ∃ actor action uuids, op = .nodeAction actor action uuids ∧ action.RemovesTwice s actor uuids) := by
  refine ⟨?_, ?_, ?_, ?_, fun s hs op time why herror => Operation.lastId_of_error_iff hs herror⟩
  · intro s hs
    refine ⟨WellFormed.of_reachable hs, ?_⟩
    obtain ⟨begun, steps⟩ := hs
    obtain ⟨v, hv, hstore, -, -, hjournal⟩ := Session.exists_of_leadsTo steps
    exact ⟨v, hv, hstore, hjournal⟩
  · intro v hv
    rw [hv.kept.store]
    refine ⟨follow_preserves (fun c now s h => h.after c now) numbered_empty v.journal, ?_⟩
    rw [follow, lastId_replay]
    exact Nat.zero_add _
  · intro c time s
    rcases c.grows_or_shrinks time s with ⟨count, hgrows⟩ | hshrinks
    · exact .inl hgrows.prefix_idsOf
    · exact .inr hshrinks
  · intro c time s why hrefused
    exact Call.after_of_not_ok time (by rw [hrefused]; rfl)

/-- A node is enrolled, refused under another key, and removed, and a user is refused without a name. Seven rows were inserted, of
which six are left. -/
theorem Store.wellFormed_of_refused_and_removed :
    let settings : Settings := .embedded ["prod"]
    let attributes := { Attributes.blank with environment := "prod" }
    let operations : List (Time × Operation) := [(0, .ensureAdmin "root"), (1, .enroll "a-1" "key" attributes),
      (2, .enroll "A-1 " "lock" attributes), (3, .addUser "root" Access.Account.blank), (4, .nodeAction "root" .delete ["a-1"])]
    let s := Operation.replay settings .empty operations
    let v := Session.start.performAll settings (operations.map fun entry => (entry.1, .fleet entry.2))
    s.WellFormed settings ∧ s.rows = 6 ∧ v.store.lastId = 7 ∧
      Store.empty.inserted (v.journal.map fun entry => (entry.time, entry.call)) = 7 := by
  intro settings attributes operations s v
  obtain ⟨hform, hcount, -, -, -⟩ := wellFormed_of_reachable settings
  have hs : Reachable settings s := reachable_empty.replay operations
  have hv : v.Reached settings := .performAll .refl _
  have hlast : v.store.lastId = 7 := by decide +kernel
  refine ⟨(hform s hs).1, by decide +kernel, hlast, ?_⟩
  rw [← (hcount v hv).2, hlast]

/-- A node is to be removed under two spellings of its UUID. That is refused, and yet a number is given, to the row that was
archived. -/
theorem Operation.number_given_though_refused :
    let settings : Settings := .embedded ["prod"]
    let s := replay settings .empty [(0, .ensureAdmin "root"),
      (1, .enroll "n1" "k1" { Attributes.blank with environment := "prod" })]
    let outcome := (Operation.nodeAction "root" .delete ["n1", " N1 "]).run settings 2 s
    Reachable settings s ∧ outcome.1 = .error (.refused (.noNode "N1")) ∧ s.lastId = 6 ∧ outcome.2.lastId = 7 ∧
      outcome.2.archive.map (·.id) = [7] := by
  intro settings s outcome
  exact ⟨reachable_empty.replay _, by decide +kernel, by decide +kernel, by decide +kernel, by decide +kernel⟩

end FleetControl
