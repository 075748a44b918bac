import FleetControl.Store.Call
import Mathlib.Data.List.Nodup

/-!
# What each call does to the tables

For each call that writes to a table, one equation says what the whole store is after it, refused or not; for each table, one
equation says what every call does to it, so that an invariant of a table is a matter of the few calls that write there.
Changing the row of a name or a UUID that no row has changes nothing, which is why a refused change needs no case of its own.
-/

namespace FleetControl

open Access (Account Permissions)

/-- A row of the nodes later on: the identity, the number, the time of the enrolment and every attribute that is not read again
are the same. -/
structure Node.Same (n n' : Node) : Prop where
  id : n'.id = n.id
  key : n'.key = n.key
  uuid : n'.uuid = n.uuid
  attributes : n'.attributes = { n.attributes with readings := n'.attributes.readings }
  createdAt : n'.createdAt = n.createdAt

theorem Node.Same.refl (n : Node) : n.Same n := ⟨rfl, rfl, rfl, rfl, rfl⟩

theorem Node.Same.trans {n m k : Node} (h : n.Same m) (h' : m.Same k) : n.Same k where
  id := h'.id.trans h.id
  key := h'.key.trans h.key
  uuid := h'.uuid.trans h.uuid
  attributes := h'.attributes.trans (by rw [h.attributes])
  createdAt := h'.createdAt.trans h.createdAt

/-- A row of the queries later on: only the flags, the counts and the time of the last change may be others. -/
structure Query.Same (q q' : Query) : Prop where
  id : q'.id = q.id
  name : q'.name = q.name
  creator : q'.creator = q.creator
  text : q'.text = q.text
  repeatInterval : q'.repeatInterval = q.repeatInterval
  kind : q'.kind = q.kind
  path : q'.path = q.path
  createdAt : q'.createdAt = q.createdAt

theorem Query.Same.refl (q : Query) : q.Same q := ⟨rfl, rfl, rfl, rfl, rfl, rfl, rfl, rfl⟩

/-- The query after an execution of it is counted. -/
def Query.tallied (q : Query) (e : Execution.Draft) : Query :=
  if e.isError then (q.counted .executions).counted .errors else q.counted .executions

theorem Query.same_counted (q : Query) (counter : Counter) : q.Same (q.counted counter) := by
  cases counter <;> exact ⟨rfl, rfl, rfl, rfl, rfl, rfl, rfl, rfl⟩

theorem Query.same_tallied (q : Query) (e : Execution.Draft) : q.Same (q.tallied e) := by
  unfold Query.tallied
  split <;> exact ⟨rfl, rfl, rfl, rfl, rfl, rfl, rfl, rfl⟩

namespace Store

variable (s : Store) (now : Time)

/-! ## Rows that are there and rows that are not -/

/-- A row found by its key is there and has that key. -/
theorem of_find?_eq_some {α : Type} {rows : List α} {key : α → String} {k : String} {row : α}
    (h : rows.find? (fun row => key row == k) = some row) : row ∈ rows ∧ key row = k :=
  ⟨List.mem_of_find?_eq_some h, by simpa using List.find?_some h⟩

/-- Where no row is found by a key, no row has it. -/
theorem ne_of_find?_eq_none {α : Type} {rows : List α} {key : α → String} {k : String}
    (h : rows.find? (fun row => key row == k) = none) : ∀ row ∈ rows, key row ≠ k := by
  intro row hrow
  simpa using List.find?_eq_none.mp h row hrow

/-- A row is found by its key where no other row has that key. -/
theorem find?_eq_some_of_nodup {α : Type} {rows : List α} {key : α → String} (hnodup : (rows.map key).Nodup) {row : α}
    (hrow : row ∈ rows) : rows.find? (fun other => key other == key row) = some row := by
  cases h : rows.find? (fun other => key other == key row) with
  | none => exact absurd rfl (ne_of_find?_eq_none h row hrow)
  | some other =>
    obtain ⟨hother, hkey⟩ := of_find?_eq_some h
    rw [List.inj_on_of_nodup_map hnodup hother hrow hkey]

/-- Changing the rows of a key changes nothing where no row has it. -/
theorem map_change_of_find?_eq_none {α : Type} {rows : List α} {key : α → String} {k : String}
    (h : rows.find? (fun row => key row == k) = none) (change : α → α) :
    (rows.map fun row => if key row = k then change row else row) = rows := by
  have hsame : ∀ row ∈ rows, (if key row = k then change row else row) = row := by
    intro row hrow
    rw [if_neg (ne_of_find?_eq_none h row hrow)]
  rw [List.map_congr_left hsame, List.map_id']

/-- Removing the rows of a key removes nothing where no row has it. -/
theorem filter_ne_of_find?_eq_none {α : Type} {rows : List α} {key : α → String} {k : String}
    (h : rows.find? (fun row => key row == k) = none) : rows.filter (fun row => key row != k) = rows := by
  rw [List.filter_eq_self]
  intro row hrow
  simpa using ne_of_find?_eq_none h row hrow

/-- Where a row is found, some row meets the condition. -/
theorem any_of_find?_eq_some {α : Type} {rows : List α} {p : α → Bool} {row : α} (h : rows.find? p = some row) :
    rows.any p = true :=
  List.any_eq_true.mpr ⟨row, List.mem_of_find?_eq_some h, List.find?_some h⟩

/-- Where no row is found, no row meets the condition. -/
theorem any_of_find?_eq_none {α : Type} {rows : List α} {p : α → Bool} (h : rows.find? p = none) :
    rows.any p = false := by
  rw [List.any_eq_false]
  exact List.find?_eq_none.mp h

/-- A change to the node of a UUID leaves a store without such a node. -/
theorem changeNode_of_none {uuid : String} (h : s.nodes.find? (·.uuid == uuid) = none) (change : Node → Node) :
    s.changeNode uuid change = s := by
  rw [changeNode, map_change_of_find?_eq_none h]

/-- What an observation changes of the node of a UUID. -/
def revision (s : Store) (uuid : String) (observed : Observation) : Revision :=
  Revision.plan (((s.nodes.find? (·.uuid == uuid)).map (·.attributes.readings)).getD Observation.none) observed

/-- A change to the query of a name leaves a store without such a query. -/
theorem changeQuery_of_none {name : String} (h : s.getQuery name = none) (change : Query → Query) :
    s.changeQuery name change = s := by
  rw [changeQuery, map_change_of_find?_eq_none h]

/-- A change to the user of a username leaves a store without such a user. -/
theorem changeUser_of_none {username : String} (h : s.getUser username = none) (change : Access.User → Access.User) :
    s.changeUser username change = s := by
  rw [changeUser, map_change_of_find?_eq_none h]

/-- The query found by a name is stored and has that name. -/
theorem of_getQuery_eq_some {name : String} {q : Query} (h : s.getQuery name = some q) : q ∈ s.queries ∧ q.name = name :=
  of_find?_eq_some h

/-- The names of the stored queries. -/
def queryNames (s : Store) : List String := s.queries.map (·.name)

theorem mem_queryNames {name : String} : name ∈ s.queryNames ↔ ∃ q ∈ s.queries, q.name = name := List.mem_map

/-- Where a query is found by a name, the name is stored. -/
theorem mem_queryNames_of_getQuery {name : String} {q : Query} (h : s.getQuery name = some q) : name ∈ s.queryNames :=
  s.mem_queryNames.mpr ⟨q, s.of_getQuery_eq_some h⟩

theorem getQuery_eq_none_iff {name : String} : s.getQuery name = none ↔ name ∉ s.queryNames := by
  simp only [getQuery, queryNames, List.find?_eq_none, beq_iff_eq, List.mem_map, not_exists, not_and]

/-- Where a name is stored, a query is found by it. -/
theorem exists_getQuery {name : String} (h : name ∈ s.queryNames) : ∃ q, s.getQuery name = some q := by
  refine Option.ne_none_iff_exists'.mp ?_
  intro hnone
  exact s.getQuery_eq_none_iff.mp hnone h

/-- A change to a query that leaves its name leaves all names. -/
theorem queryNames_changeQuery (name : String) {change : Query → Query} (h : ∀ q : Query, (change q).name = q.name) :
    (s.changeQuery name change).queryNames = s.queryNames := by
  simp only [queryNames, changeQuery, List.map_map]
  refine List.map_congr_left ?_
  intro q _
  simp only [Function.comp_apply]
  split
  · exact h q
  · rfl

/-- The queries and nodes of the stored executions. -/
def executed (s : Store) : List (String × String) := s.executions.map fun e => (e.name, e.uuid)

theorem hasExecution_iff {name uuid : String} : s.hasExecution name uuid = true ↔ (name, uuid) ∈ s.executed := by
  simp only [hasExecution, executed, List.any_eq_true, Bool.and_eq_true, beq_iff_eq, List.mem_map, Prod.mk.injEq]

theorem hasExecution_eq_false {name uuid : String} (h : (name, uuid) ∉ s.executed) : s.hasExecution name uuid = false :=
  Bool.eq_false_iff.mpr (mt s.hasExecution_iff.mp h)

/-! ## Writes to the history leave everything else -/

/-- Appending entries to the history changes the history and the number given last. -/
theorem foldl_appendHistory (uuid : String) (seeds : List HistorySeed) :
    ∃ lastId history, seeds.foldl (fun s seed => s.appendHistory now uuid seed.kind seed.value seed.count) s =
      { s with lastId := lastId, history := history } := by
  induction seeds generalizing s with
  | nil => exact ⟨s.lastId, s.history, rfl⟩
  | cons seed seeds ih =>
    obtain ⟨lastId, history, h⟩ := ih (s.appendHistory now uuid seed.kind seed.value seed.count)
    exact ⟨lastId, history, h⟩

/-- A write to the history changes the history and the number given last. -/
theorem applyChange_eq (uuid : String) (change : HistoryChange) :
    ∃ lastId history, applyChange now uuid s change = { s with lastId := lastId, history := history } := by
  cases change with
  | append kind value count => exact ⟨_, _, rfl⟩
  | increment kind value =>
    simp only [applyChange, bumpHistory]
    split
    · exact ⟨s.lastId, _, rfl⟩
    · exact ⟨_, _, rfl⟩

/-- Writes to the history change the history and the number given last. -/
theorem foldl_applyChange (uuid : String) (changes : List HistoryChange) :
    ∃ lastId history, changes.foldl (applyChange now uuid) s = { s with lastId := lastId, history := history } := by
  induction changes generalizing s with
  | nil => exact ⟨s.lastId, s.history, rfl⟩
  | cons change changes ih =>
    obtain ⟨lastId, history, h⟩ := ih (applyChange now uuid s change)
    obtain ⟨_, _, hone⟩ := applyChange_eq s now uuid change
    refine ⟨lastId, history, ?_⟩
    rw [List.foldl_cons, h, hone]

/-- A write to the history does not take back the number given last. -/
theorem lastId_le_applyChange (uuid : String) (change : HistoryChange) : s.lastId ≤ (applyChange now uuid s change).lastId := by
  cases change with
  | append kind value count => exact Nat.le_succ _
  | increment kind value =>
    simp only [applyChange, bumpHistory]
    split
    · exact Nat.le_refl _
    · exact Nat.le_succ _

/-- Writes of which none takes back the number given last do not together. -/
theorem lastId_le_foldl {α : Type} {write : Store → α → Store} (h : ∀ (s : Store) (a : α), s.lastId ≤ (write s a).lastId)
    (as : List α) : s.lastId ≤ (as.foldl write s).lastId := by
  induction as generalizing s with
  | nil => exact Nat.le_refl _
  | cons a as ih => exact Nat.le_trans (h s a) (ih (write s a))

end Store

namespace Call

variable (s : Store) (now : Time)

-- the equations of these are derived here once, before the lemmas that compute with them
attribute [local simp] exec after

/-! ## Calls on the nodes -/

theorem after_insertNode (e : Enrollment) (seeds : List HistorySeed) :
    (insertNode e seeds).after now s = s ∧ s.isTaken e = true ∨
      s.isTaken e = false ∧ ∃ lastId history, (insertNode e seeds).after now s =
        { s with lastId := lastId, nodes := s.nodes ++ [s.newNode now e], history := history } := by
  simp only [after, exec, Store.insertNode]
  cases s.isTaken e with
  | true => exact Or.inl ⟨rfl, rfl⟩
  | false =>
    obtain ⟨lastId, history, h⟩ :=
      Store.foldl_appendHistory { s with lastId := s.nextId, nodes := s.nodes ++ [s.newNode now e] } now e.uuid seeds
    exact Or.inr ⟨rfl, lastId, history, h⟩

theorem after_applyObservation (uuid : String) (observed : Observation) :
    ∃ lastId history, (applyObservation uuid observed).after now s =
      { s.changeNode uuid fun n => n.revised now (s.revision uuid observed) with lastId := lastId, history := history } := by
  simp only [after, exec, Store.applyObservation, Store.nodeWith, Store.revision]
  cases h : s.nodes.find? (·.uuid == uuid) with
  | none => exact ⟨s.lastId, s.history, by rw [s.changeNode_of_none h]; rfl⟩
  | some node => exact Store.foldl_applyChange _ now uuid _

theorem after_touchEvent (uuid : String) (event : NodeEvent) (time : Time) :
    (touchEvent uuid event time).after now s = s.changeNode uuid fun n => n.touched event time := by
  simp only [after, exec, done, Store.touchEvent, Store.nodeWith]
  cases h : s.nodes.find? (·.uuid == uuid) with
  | none => rw [s.changeNode_of_none h]; rfl
  | some node => rfl

theorem after_deleteNode (uuid : String) :
    (deleteNode uuid).after now s = { s with nodes := s.nodes.filter (·.uuid != uuid) } := by
  simp only [after, exec, done, Store.deleteNode, Store.nodeWith]
  cases h : s.nodes.find? (·.uuid == uuid) with
  | none => rw [Store.filter_ne_of_find?_eq_none h]; rfl
  | some node => rfl

/-! ## Calls on the queries -/

theorem after_insertQueryWithTargets (draft : Query.Draft) (targets : List Target) :
    (insertQueryWithTargets draft targets).after now s =
      if s.queries.any (·.name == draft.name) then s
      else { s with
        lastId := s.nextId
        queries := s.queries ++ [s.newQuery now draft]
        targets := s.targets ++ targets.map fun t => ⟨draft.name, t⟩ } := by
  simp only [after, exec, Store.insertQuery]
  cases s.queries.any (·.name == draft.name) <;> rfl

/-- A query of a name that no query has is inserted with its targets. -/
theorem after_insertQueryWithTargets_of_fresh {draft : Query.Draft} (hfree : draft.name ∉ s.queryNames) (targets : List Target) :
    (insertQueryWithTargets draft targets).after now s =
      { s with
        lastId := s.nextId
        queries := s.queries ++ [s.newQuery now draft]
        targets := s.targets ++ targets.map fun t => ⟨draft.name, t⟩ } := by
  have hnone : s.queries.any (·.name == draft.name) = false := by simpa [Store.queryNames] using hfree
  rw [after_insertQueryWithTargets, if_neg (by rw [hnone]; exact Bool.false_ne_true)]

theorem after_insertQuery (draft : Query.Draft) :
    (insertQuery draft).after now s =
      if s.queries.any (·.name == draft.name) then s
      else { s with lastId := s.nextId, queries := s.queries ++ [s.newQuery now draft] } := by
  simp only [after, exec, Store.insertQuery, List.map_nil, List.append_nil]
  cases s.queries.any (·.name == draft.name) <;> rfl

theorem after_insertTargets (name : String) (added : List Target) :
    (insertTargets name added).after now s =
      if s.queries.any (·.name == name) then { s with targets := s.targets ++ added.map fun t => ⟨name, t⟩ } else s := by
  simp only [after, exec, done, Store.insertTargets, Store.queryNamed]
  cases h : s.queries.find? (·.name == name) with
  | none => rw [Store.any_of_find?_eq_none h]; rfl
  | some query => rw [Store.any_of_find?_eq_some h]; rfl

theorem after_setExpected (name : String) (expected : Int) :
    (setExpected name expected).after now s =
      s.changeQuery name fun q => { q with expected := expected, updatedAt := now } := by
  simp only [after, exec, done, Store.setExpected, Store.queryNamed]
  cases h : s.queries.find? (·.name == name) with
  | none => rw [s.changeQuery_of_none h]; rfl
  | some query => rfl

theorem after_setFlags (name : String) (flags : FlagUpdate) :
    (setFlags name flags).after now s = s.changeQuery name fun q => { q.withFlags flags with updatedAt := now } := by
  simp only [after, exec, done, Store.setFlags, Store.queryNamed]
  cases h : s.queries.find? (·.name == name) with
  | none => rw [s.changeQuery_of_none h]; rfl
  | some query => rfl

theorem after_incrementCounter (name : String) (counter : Counter) :
    (incrementCounter name counter).after now s = s.changeQuery name (·.counted counter) := by
  simp only [after, exec, done, Store.incrementCounter, Store.queryNamed]
  cases h : s.queries.find? (·.name == name) with
  | none => rw [s.changeQuery_of_none h]; rfl
  | some query => rfl

theorem after_recordExecution (e : Execution.Draft) :
    (recordExecution e).after now s =
      if s.hasExecution e.name e.uuid ∨ s.queries.any (·.name == e.name) = false then s
      else { s.changeQuery e.name (·.tallied e) with
        lastId := s.nextId
        executions := s.executions ++ [{ toDraft := e, id := s.nextId, createdAt := now }] } := by
  simp only [after, exec, Store.recordExecution, Store.queryNamed]
  cases hdone : s.hasExecution e.name e.uuid with
  | true => rfl
  | false =>
    cases h : s.queries.find? (·.name == e.name) with
    | none => rw [Store.any_of_find?_eq_none h]; rfl
    | some query => rw [Store.any_of_find?_eq_some h]; rfl

/-! ## Calls on the users -/

theorem after_insertUser (account : Account) :
    (insertUser account).after now s =
      if s.users.any (·.username == account.username) then s
      else { s with lastId := s.nextId, users := s.users ++ [s.newUser now account] } := by
  simp only [after, exec, Store.insertUser]
  cases s.users.any (·.username == account.username) <;> rfl

theorem after_setAdmin (username : String) (admin : Bool) (permissions : Permissions) :
    (setAdmin username admin permissions).after now s =
      s.changeUser username fun u => { u with admin := admin, permissions := permissions, updatedAt := now } := by
  simp only [after, exec, done, Store.setAdmin, Store.userNamed]
  cases h : s.users.find? (·.username == username) with
  | none => rw [s.changeUser_of_none h]; rfl
  | some user => rfl

theorem after_setPermissions (username : String) (permissions : Permissions) :
    (setPermissions username permissions).after now s =
      s.changeUser username fun u => { u with permissions := permissions, updatedAt := now } := by
  simp only [after, exec, done, Store.setPermissions, Store.userNamed]
  cases h : s.users.find? (·.username == username) with
  | none => rw [s.changeUser_of_none h]; rfl
  | some user => rfl

theorem after_deleteUser (username : String) :
    (deleteUser username).after now s = { s with users := s.users.filter (·.username != username) } := by
  simp only [after, exec, done, Store.deleteUser, Store.userNamed]
  cases h : s.users.find? (·.username == username) with
  | none => rw [Store.filter_ne_of_find?_eq_none h]; rfl
  | some user => rfl

/-! ## Where a call writes -/

/-- The parts of the store. A call writes to one of them, and to the number given last. -/
inductive Part where
  | nodes
  | archive
  | queries
  | users
  deriving DecidableEq

/-- The part that a call writes to, unless it only reads. -/
def part : Call → Option Part
  | .insertNode _ _ | .applyObservation _ _ | .touchEvent _ _ _ | .deleteNode _ => some .nodes
  | .insertArchive _ => some .archive
  | .insertQuery _ | .insertQueryWithTargets _ _ | .insertTargets _ _ | .setExpected _ _ | .setFlags _ _
  | .incrementCounter _ _ | .recordExecution _ => some .queries
  | .insertUser _ | .setAdmin _ _ _ | .setPermissions _ _ | .deleteUser _ => some .users
  | _ => none

variable {c : Call}

/-- A call that only reads leaves the store. -/
theorem after_of_reads (h : c.part = none) : c.after now s = s := by
  cases c <;> first | rfl | cases h

/-- A call on the nodes writes to the nodes, their history and the number given last. -/
theorem after_of_nodes (h : c.part = some .nodes) :
    ∃ lastId nodes history, c.after now s = { s with lastId := lastId, nodes := nodes, history := history } := by
  cases c with
  | insertNode e seeds =>
    rcases after_insertNode s now e seeds with ⟨heq, -⟩ | ⟨-, lastId, history, heq⟩
    · exact ⟨s.lastId, s.nodes, s.history, heq⟩
    · exact ⟨lastId, _, history, heq⟩
  | applyObservation uuid observed =>
    obtain ⟨lastId, history, heq⟩ := after_applyObservation s now uuid observed
    exact ⟨lastId, _, history, heq⟩
  | touchEvent uuid event time => exact ⟨s.lastId, _, s.history, after_touchEvent s now uuid event time⟩
  | deleteNode uuid => exact ⟨s.lastId, _, s.history, after_deleteNode s now uuid⟩
  | _ => cases h

/-- A call on the archive writes to the archive and the number given last. -/
theorem after_of_archive (h : c.part = some .archive) :
    ∃ lastId archive, c.after now s = { s with lastId := lastId, archive := archive } := by
  cases c with
  | insertArchive snapshot => exact ⟨_, _, rfl⟩
  | _ => cases h

/-- A call on the queries writes to the queries, their targets and executions, and the number given last. -/
theorem after_of_queries (h : c.part = some .queries) :
    ∃ lastId queries targets executions, c.after now s =
      { s with lastId := lastId, queries := queries, targets := targets, executions := executions } := by
  cases c with
  | insertQuery draft =>
    rw [after_insertQuery]
    split
    · exact ⟨s.lastId, s.queries, s.targets, s.executions, rfl⟩
    · exact ⟨_, _, s.targets, s.executions, rfl⟩
  | insertQueryWithTargets draft targets =>
    rw [after_insertQueryWithTargets]
    split
    · exact ⟨s.lastId, s.queries, s.targets, s.executions, rfl⟩
    · exact ⟨_, _, _, s.executions, rfl⟩
  | insertTargets name added =>
    rw [after_insertTargets]
    split
    · exact ⟨s.lastId, s.queries, _, s.executions, rfl⟩
    · exact ⟨s.lastId, s.queries, s.targets, s.executions, rfl⟩
  | setExpected name expected =>
    exact ⟨s.lastId, _, s.targets, s.executions, after_setExpected s now name expected⟩
  | setFlags name flags => exact ⟨s.lastId, _, s.targets, s.executions, after_setFlags s now name flags⟩
  | incrementCounter name counter =>
    exact ⟨s.lastId, _, s.targets, s.executions, after_incrementCounter s now name counter⟩
  | recordExecution e =>
    rw [after_recordExecution]
    split
    · exact ⟨s.lastId, s.queries, s.targets, s.executions, rfl⟩
    · exact ⟨_, _, s.targets, _, rfl⟩
  | _ => cases h

/-- A call on the users writes to the users and the number given last. -/
theorem after_of_users (h : c.part = some .users) :
    ∃ lastId users, c.after now s = { s with lastId := lastId, users := users } := by
  cases c with
  | insertUser account =>
    rw [after_insertUser]
    split
    · exact ⟨s.lastId, s.users, rfl⟩
    · exact ⟨_, _, rfl⟩
  | setAdmin username admin permissions => exact ⟨s.lastId, _, after_setAdmin s now username admin permissions⟩
  | setPermissions username permissions => exact ⟨s.lastId, _, after_setPermissions s now username permissions⟩
  | deleteUser username => exact ⟨s.lastId, _, after_deleteUser s now username⟩
  | _ => cases h

/-- A call that does not write to the nodes leaves them and their history. -/
theorem nodes_of_part_ne (h : c.part ≠ some .nodes) :
    (c.after now s).nodes = s.nodes ∧ (c.after now s).history = s.history := by
  cases hp : c.part with
  | none => rw [after_of_reads s now hp]; exact ⟨rfl, rfl⟩
  | some part =>
    cases part with
    | nodes => exact absurd hp h
    | archive => obtain ⟨_, _, heq⟩ := after_of_archive s now hp; rw [heq]; exact ⟨rfl, rfl⟩
    | queries => obtain ⟨_, _, _, _, heq⟩ := after_of_queries s now hp; rw [heq]; exact ⟨rfl, rfl⟩
    | users => obtain ⟨_, _, heq⟩ := after_of_users s now hp; rw [heq]; exact ⟨rfl, rfl⟩

/-- A call that does not write to the queries leaves them, their targets and their executions. -/
theorem queries_of_part_ne (h : c.part ≠ some .queries) :
    (c.after now s).queries = s.queries ∧ (c.after now s).targets = s.targets ∧
      (c.after now s).executions = s.executions := by
  cases hp : c.part with
  | none => rw [after_of_reads s now hp]; exact ⟨rfl, rfl, rfl⟩
  | some part =>
    cases part with
    | nodes => obtain ⟨_, _, _, heq⟩ := after_of_nodes s now hp; rw [heq]; exact ⟨rfl, rfl, rfl⟩
    | archive => obtain ⟨_, _, heq⟩ := after_of_archive s now hp; rw [heq]; exact ⟨rfl, rfl, rfl⟩
    | queries => exact absurd hp h
    | users => obtain ⟨_, _, heq⟩ := after_of_users s now hp; rw [heq]; exact ⟨rfl, rfl, rfl⟩

/-- No call takes back the number given last. -/
theorem lastId_le (c : Call) : s.lastId ≤ (c.after now s).lastId := by
  have hnext : s.lastId ≤ s.nextId := Nat.le_succ _
  cases c with
  | insertNode e seeds =>
    simp only [after, exec, Store.insertNode]
    split
    · rename_i heq
      split at heq
      · cases heq
      · cases heq
        let started : Store := { s with lastId := s.nextId, nodes := s.nodes ++ [s.newNode now e] }
        have hstarted : s.lastId ≤ started.lastId := hnext
        exact Nat.le_trans hstarted (started.lastId_le_foldl (fun s _ => Nat.le_succ s.lastId) seeds)
    · exact Nat.le_refl _
  | applyObservation uuid observed =>
    simp only [after, exec, Store.applyObservation, Store.nodeWith]
    cases s.nodes.find? (·.uuid == uuid) with
    | none => exact Nat.le_refl _
    | some node => exact Store.lastId_le_foldl (s.changeNode uuid _) (fun s change => s.lastId_le_applyChange now uuid change) _
  | touchEvent uuid event time => exact (after_touchEvent s now uuid event time).symm ▸ Nat.le_refl _
  | deleteNode uuid => exact (after_deleteNode s now uuid).symm ▸ Nat.le_refl _
  | insertArchive snapshot => exact hnext
  | insertQuery draft =>
    rw [after_insertQuery]
    split
    · exact Nat.le_refl _
    · exact hnext
  | insertQueryWithTargets draft targets =>
    rw [after_insertQueryWithTargets]
    split
    · exact Nat.le_refl _
    · exact hnext
  | insertTargets name added =>
    rw [after_insertTargets]
    split <;> exact Nat.le_refl _
  | setExpected name expected => exact (after_setExpected s now name expected).symm ▸ Nat.le_refl _
  | setFlags name flags => exact (after_setFlags s now name flags).symm ▸ Nat.le_refl _
  | incrementCounter name counter => exact (after_incrementCounter s now name counter).symm ▸ Nat.le_refl _
  | recordExecution e =>
    rw [after_recordExecution]
    split
    · exact Nat.le_refl _
    · exact hnext
  | insertUser account =>
    rw [after_insertUser]
    split
    · exact Nat.le_refl _
    · exact hnext
  | setAdmin username admin permissions => exact (after_setAdmin s now username admin permissions).symm ▸ Nat.le_refl _
  | setPermissions username permissions => exact (after_setPermissions s now username permissions).symm ▸ Nat.le_refl _
  | deleteUser username => exact (after_deleteUser s now username).symm ▸ Nat.le_refl _
  | _ => exact Nat.le_refl _

/-- A call that does not write to the archive leaves it. -/
theorem archive_of_part_ne (h : c.part ≠ some .archive) : (c.after now s).archive = s.archive := by
  cases hp : c.part with
  | none => rw [after_of_reads s now hp]
  | some part =>
    cases part with
    | nodes => obtain ⟨_, _, _, heq⟩ := after_of_nodes s now hp; rw [heq]
    | archive => exact absurd hp h
    | queries => obtain ⟨_, _, _, _, heq⟩ := after_of_queries s now hp; rw [heq]
    | users => obtain ⟨_, _, heq⟩ := after_of_users s now hp; rw [heq]

/-- A call that does not write to the users leaves them. -/
theorem users_of_part_ne (h : c.part ≠ some .users) : (c.after now s).users = s.users := by
  cases hp : c.part with
  | none => rw [after_of_reads s now hp]
  | some part =>
    cases part with
    | nodes => obtain ⟨_, _, _, heq⟩ := after_of_nodes s now hp; rw [heq]
    | archive => obtain ⟨_, _, heq⟩ := after_of_archive s now hp; rw [heq]
    | queries => obtain ⟨_, _, _, _, heq⟩ := after_of_queries s now hp; rw [heq]
    | users => exact absurd hp h

/-! ## What becomes of the rows of a table -/

/-- The query that a call inserts, if it inserts one. -/
def draft? : Call → Option Query.Draft
  | .insertQuery draft => some draft
  | .insertQueryWithTargets draft _ => some draft
  | _ => none

/-- What the call makes of a row of the queries: it leaves it, or is one of the calls that change queries. -/
inductive Remakes (now : Time) : Call → Query → Query → Prop where
  | leaves (c : Call) (q : Query) : Remakes now c q q
  | expects (q : Query) (expected : Int) :
      Remakes now (.setExpected q.name expected) q { q with expected := expected, updatedAt := now }
  | flags (q : Query) (flags : FlagUpdate) :
      Remakes now (.setFlags q.name flags) q { q.withFlags flags with updatedAt := now }
  | counts (q : Query) (counter : Counter) : Remakes now (.incrementCounter q.name counter) q (q.counted counter)
  | tallies (q : Query) (e : Execution.Draft) : Remakes now (.recordExecution e) q (q.tallied e)

/-- Rows of the nodes later on: the same nodes in the same order. -/
def SameNodes (nodes nodes' : List Node) : Prop :=
  ∃ change : Node → Node, (∀ n : Node, n.Same (change n)) ∧ nodes' = nodes.map change

theorem SameNodes.refl (nodes : List Node) : SameNodes nodes nodes :=
  ⟨id, Node.Same.refl, (List.map_id nodes).symm⟩

/-- The same nodes have the same keys and UUIDs. -/
theorem SameNodes.identities {nodes nodes' : List Node} (h : SameNodes nodes nodes') :
    nodes'.map (·.key) = nodes.map (·.key) ∧ nodes'.map (·.uuid) = nodes.map (·.uuid) := by
  obtain ⟨change, hsame, rfl⟩ := h
  simp only [List.map_map]
  constructor
  · apply List.map_congr_left
    intro n _
    exact (hsame n).key
  · apply List.map_congr_left
    intro n _
    exact (hsame n).uuid

/-- A call makes of a row of the queries the same query. -/
theorem Remakes.same {c : Call} {now : Time} {q q' : Query} (h : c.Remakes now q q') : q.Same q' := by
  cases h with
  | leaves => exact Query.Same.refl q
  | expects => exact ⟨rfl, rfl, rfl, rfl, rfl, rfl, rfl, rfl⟩
  | flags => exact ⟨rfl, rfl, rfl, rfl, rfl, rfl, rfl, rfl⟩
  | counts _ counter => exact q.same_counted counter
  | tallies _ e => exact q.same_tallied e

/-- A call that remakes the queries of a name leaves the others. -/
theorem Remakes.ite {c : Call} {now : Time} {q : Query} {name : String} {changed : Query}
    (h : q.name = name → c.Remakes now q changed) : c.Remakes now q (if q.name = name then changed else q) := by
  split
  · rename_i heq
    exact h heq
  · exact .leaves c q

theorem sameNodes_changeNode (uuid : String) {change : Node → Node} (h : ∀ n : Node, n.Same (change n)) :
    SameNodes s.nodes (s.changeNode uuid change).nodes := by
  refine ⟨fun n => if n.uuid = uuid then change n else n, ?_, rfl⟩
  intro n
  dsimp only
  split
  · exact h n
  · exact Node.Same.refl n

/-- After a call the queries are those before as the call remakes them, or those before and a new one, with a new number and a name
that no other has. -/
theorem queries_cases (c : Call) :
    (∃ remake : Query → Query, (∀ q, c.Remakes now q (remake q)) ∧ (c.after now s).queries = s.queries.map remake) ∨
      ∃ draft, c.draft? = some draft ∧ (∀ q ∈ s.queries, q.name ≠ draft.name) ∧
        (c.after now s).queries = s.queries ++ [s.newQuery now draft] ∧ (c.after now s).lastId = s.nextId := by
  cases c with
  | insertQuery draft =>
    rw [after_insertQuery]
    split
    · exact Or.inl ⟨id, fun q => .leaves _ q, (List.map_id _).symm⟩
    · rename_i hfree
      exact Or.inr ⟨draft, rfl, by simpa using hfree, rfl, rfl⟩
  | insertQueryWithTargets draft targets =>
    rw [after_insertQueryWithTargets]
    split
    · exact Or.inl ⟨id, fun q => .leaves _ q, (List.map_id _).symm⟩
    · rename_i hfree
      exact Or.inr ⟨draft, rfl, by simpa using hfree, rfl, rfl⟩
  | insertTargets name added =>
    rw [after_insertTargets]
    split <;> exact Or.inl ⟨id, fun q => .leaves _ q, (List.map_id _).symm⟩
  | setExpected name expected =>
    rw [after_setExpected]
    exact Or.inl ⟨_, fun q => .ite fun heq => heq ▸ .expects q expected, rfl⟩
  | setFlags name flags =>
    rw [after_setFlags]
    exact Or.inl ⟨_, fun q => .ite fun heq => heq ▸ .flags q flags, rfl⟩
  | incrementCounter name counter =>
    rw [after_incrementCounter]
    exact Or.inl ⟨_, fun q => .ite fun heq => heq ▸ .counts q counter, rfl⟩
  | recordExecution e =>
    rw [after_recordExecution]
    split
    · exact Or.inl ⟨id, fun q => .leaves _ q, (List.map_id _).symm⟩
    · exact Or.inl ⟨_, fun q => .ite fun _ => .tallies q e, rfl⟩
  | _ =>
    rw [(queries_of_part_ne s now (by simp [part])).1]
    exact Or.inl ⟨id, fun q => .leaves _ q, (List.map_id _).symm⟩

/-- After a call the names of the queries are those before, with perhaps the new one of the query that the call inserts. -/
theorem queryNames_cases (c : Call) :
    (c.after now s).queryNames = s.queryNames ∨
      ∃ draft, c.draft? = some draft ∧ draft.name ∉ s.queryNames ∧
        (c.after now s).queryNames = s.queryNames ++ [draft.name] := by
  unfold Store.queryNames
  rcases queries_cases s now c with ⟨remake, hremake, hqueries⟩ | ⟨draft, hdraft, hfree, hqueries, -⟩
  · rw [hqueries, List.map_map]
    left
    apply List.map_congr_left
    intro q _
    exact (hremake q).same.name
  · rw [hqueries, List.map_append]
    refine Or.inr ⟨draft, hdraft, ?_, rfl⟩
    intro hmem
    obtain ⟨q, hq, hname⟩ := List.mem_map.mp hmem
    exact hfree q hq hname

/-- Whatever the call leaves of a query stays, row by row, and a new query comes after the others. -/
theorem prefix_map_queries {β : Type} {f : Query → β} {c : Call} (h : ∀ q q', c.Remakes now q q' → f q' = f q) :
    s.queries.map f <+: (c.after now s).queries.map f := by
  rcases queries_cases s now c with ⟨remake, hremake, hqueries⟩ | ⟨draft, -, -, hqueries, -⟩
  · have hsame : (s.queries.map remake).map f = s.queries.map f := by
      rw [List.map_map]
      exact List.map_congr_left fun q _ => h q (remake q) (hremake q)
    exact ⟨[], by rw [List.append_nil, hqueries, hsame]⟩
  · rw [hqueries, List.map_append]
    exact List.prefix_append _ _

/-- After a call the nodes are those before, or those and a new one whose key and UUID no other has, or those without the one
that the call removes. -/
theorem nodes_cases (c : Call) :
    SameNodes s.nodes (c.after now s).nodes ∨
      (∃ e seeds, c = .insertNode e seeds ∧ s.isTaken e = false ∧ (c.after now s).nodes = s.nodes ++ [s.newNode now e]) ∨
      ∃ uuid, c = .deleteNode uuid ∧ (c.after now s).nodes = s.nodes.filter (·.uuid != uuid) := by
  cases c with
  | insertNode e seeds =>
    rcases after_insertNode s now e seeds with ⟨heq, -⟩ | ⟨hfree, lastId, history, heq⟩
    · rw [heq]
      exact Or.inl (SameNodes.refl _)
    · exact Or.inr (Or.inl ⟨e, seeds, rfl, hfree, by rw [heq]⟩)
  | applyObservation uuid observed =>
    obtain ⟨lastId, history, heq⟩ := after_applyObservation s now uuid observed
    rw [heq]
    exact Or.inl (sameNodes_changeNode s uuid fun n => ⟨rfl, rfl, rfl, rfl, rfl⟩)
  | touchEvent uuid event time =>
    rw [after_touchEvent]
    exact Or.inl (sameNodes_changeNode s uuid fun n => ⟨rfl, rfl, rfl, rfl, rfl⟩)
  | deleteNode uuid => exact Or.inr (Or.inr ⟨uuid, rfl, by rw [after_deleteNode]⟩)
  | _ =>
    rw [(nodes_of_part_ne s now (by simp [part])).1]
    exact Or.inl (SameNodes.refl _)

/-- After a call the users are those before, perhaps with other grants, or those and a new one whose username no other has, or those
without the one that the call removes. -/
theorem users_cases (c : Call) :
    (∃ change : Access.User → Access.User, (∀ u, (change u).username = u.username) ∧
        (c.after now s).users = s.users.map change) ∨
      (∃ account, c = .insertUser account ∧ account.username ∉ s.users.map (·.username) ∧
        (c.after now s).users = s.users ++ [s.newUser now account]) ∨
      ∃ username, c = .deleteUser username ∧ (c.after now s).users = s.users.filter (·.username != username) := by
  have hchange : ∀ (username : String) (change : Access.User → Access.User), (∀ u, (change u).username = u.username) →
      ∃ change' : Access.User → Access.User, (∀ u, (change' u).username = u.username) ∧
        (s.changeUser username change).users = s.users.map change' := by
    intro username change hsame
    refine ⟨fun u => if u.username = username then change u else u, ?_, rfl⟩
    intro u
    dsimp only
    split
    · exact hsame u
    · rfl
  cases c with
  | insertUser account =>
    rw [after_insertUser]
    split
    · exact Or.inl ⟨id, fun _ => rfl, (List.map_id _).symm⟩
    · rename_i hfree
      exact Or.inr (Or.inl ⟨account, rfl, by simpa using hfree, rfl⟩)
  | setAdmin username admin permissions =>
    rw [after_setAdmin]
    exact Or.inl (hchange username _ fun _ => rfl)
  | setPermissions username permissions =>
    rw [after_setPermissions]
    exact Or.inl (hchange username _ fun _ => rfl)
  | deleteUser username => exact Or.inr (Or.inr ⟨username, rfl, by rw [after_deleteUser]⟩)
  | _ =>
    rw [users_of_part_ne s now (by simp [part])]
    exact Or.inl ⟨id, fun _ => rfl, (List.map_id _).symm⟩

/-- After a call the executions are those before, with perhaps the one that the call records: of a stored query, by a node that
has none of it. -/
theorem executions_cases (c : Call) :
    (c.after now s).executions = s.executions ∨
      ∃ e, c = .recordExecution e ∧ s.hasExecution e.name e.uuid = false ∧ (∃ q ∈ s.queries, q.name = e.name) ∧
        (c.after now s).executions = s.executions ++ [{ toDraft := e, id := s.nextId, createdAt := now }] := by
  cases c with
  | recordExecution e =>
    rw [after_recordExecution]
    split
    · exact Or.inl rfl
    · rename_i h
      simp only [not_or, Bool.not_eq_true, Bool.not_eq_false] at h
      exact Or.inr ⟨e, rfl, h.1, by simpa using h.2, rfl⟩
  | insertQuery draft => rw [after_insertQuery]; split <;> exact Or.inl rfl
  | insertQueryWithTargets draft targets => rw [after_insertQueryWithTargets]; split <;> exact Or.inl rfl
  | insertTargets name added => rw [after_insertTargets]; split <;> exact Or.inl rfl
  | setExpected name expected => rw [after_setExpected]; exact Or.inl rfl
  | setFlags name flags => rw [after_setFlags]; exact Or.inl rfl
  | incrementCounter name counter => rw [after_incrementCounter]; exact Or.inl rfl
  | _ => exact Or.inl (queries_of_part_ne s now (by simp [part])).2.2

/-- A name that is stored stays stored. -/
theorem stored_after {s : Store} {now : Time} (c : Call) {name : String} (h : name ∈ s.queryNames) :
    name ∈ (c.after now s).queryNames :=
  (prefix_map_queries s now fun _ _ hremakes => hremakes.same.name).subset h

/-- What is recorded stays recorded, and a new record comes after the others. -/
theorem prefix_executions (c : Call) : s.executions <+: (c.after now s).executions := by
  rcases executions_cases s now c with heq | ⟨e, -, -, -, heq⟩
  · exact ⟨[], by rw [List.append_nil, heq]⟩
  · rw [heq]
    exact List.prefix_append _ _

/-- What is executed stays executed. -/
theorem executed_after {s : Store} {now : Time} (c : Call) {pair : String × String} (h : pair ∈ s.executed) :
    pair ∈ (c.after now s).executed :=
  ((prefix_executions s now c).map _).subset h

end Call

end FleetControl
