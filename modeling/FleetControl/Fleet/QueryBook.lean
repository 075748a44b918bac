import FleetControl.Program

/-!
# The book of queries

Queries are written down with their targets, looked up, listed and moved through their lifecycle.
-/

namespace FleetControl.QueryBook

/-- Writes down a query together with its targets. -/
def create (draft : Query.Draft) (targets : List Target) : Program Query := do
  if draft.active && draft.completed then .refuse (.activeAndCompleted draft.name)
  else if Text.isBlankText draft.name || Text.isBlankText draft.text then .refuse .blankQuery
  else .ask (.insertQueryWithTargets draft targets)

/-- Adds targets to a query. -/
def addTargets (name : String) (targets : List Target) : Program Unit := .ask (.insertTargets name targets)

/-- The count as it is stored, if it fits 32 bits. -/
def storedCount (count : Nat) : Except Refusal Int :=
  if count ≤ Width.greatest32 then .ok count else .error (.expectedOutOfRange count)

/-- Sets the count of nodes a query is expected to reach. -/
def setExpected (name : String) (count : Nat) : Program Unit := do
  .ask (.setExpected name (← .ofExcept (storedCount count)))

/-- Does to a query what an administrator asked for. -/
def apply (name : String) (action : QueryAction) : Program Unit := .ask (.setFlags name action.flags)

/-- Adds one to a counter of a query. -/
def count (name : String) (counter : Counter) : Program Unit := .ask (.incrementCounter name counter)

/-- The query with a name. -/
def get (name : String) : Program Query := do
  match ← .ask (.getQuery name) with
  | some query => return query
  | none => .refuse (.noQuery name)

/-- Whether there is a query with a name. -/
def has (name : String) : Program Bool := do return (← .ask (.getQuery name)).isSome

/-- The queries of a listing. -/
def list (listing : Listing) : Program (List Query) := .ask (.listQueries listing)

/-- The targets of a query. -/
def targets (name : String) : Program (List Target) := .ask (.targets name)

/-- The executions of a query. -/
def executions (name : String) : Program (List Execution) := .ask (.executions name)

end FleetControl.QueryBook
