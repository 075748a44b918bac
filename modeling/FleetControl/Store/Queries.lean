import FleetControl.Store.Basic

/-!
# Queries, targets and executions in the store

Each write is one step: it is done as a whole or refused, and then nothing is written. A query is inserted together with its
targets, and an execution is recorded together with the counts of its query.
-/

namespace FleetControl.Store

/-- The row of a query that is stored now. -/
def newQuery (s : Store) (now : Time) (draft : Query.Draft) : Query where
  toDraft := draft
  id := s.nextId
  executions := 0
  errors := 0
  createdAt := now
  updatedAt := now

/-- Inserts a query and its targets. -/
def insertQuery (s : Store) (now : Time) (draft : Query.Draft) (targets : List Target) : Except Refusal (Query × Store) :=
  if s.queries.any (·.name == draft.name) then .error (.queryExists draft.name)
  else
    let row := s.newQuery now draft
    .ok (row,
      { s with
        lastId := s.nextId
        queries := s.queries ++ [row]
        targets := s.targets ++ targets.map fun t => ⟨draft.name, t⟩ })

/-- The query with a name, if there is one. -/
def getQuery (s : Store) (name : String) : Option Query := s.queries.find? (·.name == name)

/-- The queries of a listing. -/
def listQueries (s : Store) (listing : Listing) : List Query := s.queries.filter fun q => listing.admits q.toDraft

/-- Adds targets to a query. -/
def insertTargets (s : Store) (name : String) (targets : List Target) : Except Refusal Store := do
  let _ ← s.queryNamed name
  return { s with targets := s.targets ++ targets.map fun t => ⟨name, t⟩ }

/-- The targets of a query. -/
def targetsOf (s : Store) (name : String) : List Target := (s.targets.filter (·.query == name)).map (·.target)

/-- Sets the count of nodes a query is expected to reach. -/
def setExpected (s : Store) (now : Time) (name : String) (expected : Int) : Except Refusal Store := do
  let _ ← s.queryNamed name
  return s.changeQuery name fun q => { q with expected := expected, updatedAt := now }

/-- Updates the flags of a query. -/
def setFlags (s : Store) (now : Time) (name : String) (flags : FlagUpdate) : Except Refusal Store := do
  let _ ← s.queryNamed name
  return s.changeQuery name fun q => { q.withFlags flags with updatedAt := now }

/-- Adds one to a counter of a query. -/
def incrementCounter (s : Store) (name : String) (counter : Counter) : Except Refusal Store := do
  let _ ← s.queryNamed name
  return s.changeQuery name (·.counted counter)

/-- An execution of a query by a node is stored. -/
def hasExecution (s : Store) (name uuid : String) : Bool := s.executions.any fun e => e.name == name && e.uuid == uuid

/-- Records an execution and counts it, unless the node has one of this query already. Answers whether it was recorded. -/
def recordExecution (s : Store) (now : Time) (e : Execution.Draft) : Except Refusal (Bool × Store) :=
  if s.hasExecution e.name e.uuid then .ok (false, s)
  else do
    let _ ← s.queryNamed e.name
    let counted := s.changeQuery e.name fun q =>
      if e.isError then (q.counted .executions).counted .errors else q.counted .executions
    return (true,
      { counted with
        lastId := s.nextId
        executions := s.executions ++ [{ toDraft := e, id := s.nextId, createdAt := now }] })

/-- The executions of a query. -/
def executionsOf (s : Store) (name : String) : List Execution := s.executions.filter (·.name == name)

end FleetControl.Store
