import FleetControl.Clock
import FleetControl.Refusal
import FleetControl.Width

/-!
# Queries

A query is text that nodes are asked to run. It is stored with three flags, active, completed and deleted, from which its
state and the listings it appears in follow, with the count of nodes it is expected to reach, and with the counts of its
executions and of those that failed. Counts are kept in 32 bits and wrap around.
-/

namespace FleetControl

/-- What a query is for: to be answered, to fetch a file, or to learn about the fleet. -/
inductive QueryKind where
  | standard
  | carve
  | metadata
  deriving DecidableEq, Repr

namespace QueryKind

/-- Every kind of query. -/
def all : List QueryKind := [.standard, .carve, .metadata]

/-- The name of a kind. -/
def name : QueryKind → String
  | .standard => "query"
  | .carve => "carve"
  | .metadata => "metadata"

/-- The kind with a name. -/
def ofName? (s : String) : Option QueryKind := all.find? (·.name == s)

/-- The kind a request asks for by name; an ordinary query has a second name. -/
def parse (word : String) : Except Refusal QueryKind :=
  match if word = "standard" then some .standard else ofName? word with
  | some kind => .ok kind
  | none => .error (.unknownQueryKind word)

end QueryKind

/-- A query before it is stored. -/
structure Query.Draft where
  name : String
  creator : String
  text : String
  expected : Int
  active : Bool
  completed : Bool
  deleted : Bool
  repeatInterval : Int
  kind : QueryKind
  path : Option String
  deriving DecidableEq, Repr

/-- A query that is ready to be served: active, and with no count expected yet. -/
def Query.Draft.ready (name creator text : String) (kind : QueryKind) : Query.Draft where
  name := name
  creator := creator
  text := text
  expected := 0
  active := true
  completed := false
  deleted := false
  repeatInterval := 0
  kind := kind
  path := none

/-- A stored query. -/
structure Query extends Query.Draft where
  id : Nat
  executions : Int
  errors : Int
  createdAt : Time
  updatedAt : Time
  deriving DecidableEq, Repr

/-- Where a query stands. -/
inductive QueryState where
  | active
  | completed
  | inactive
  | deleted
  deriving DecidableEq, Repr

/-- The name of a state. -/
def QueryState.name : QueryState → String
  | .active => "active"
  | .completed => "completed"
  | .inactive => "inactive"
  | .deleted => "deleted"

/-- The state that the three flags of a query amount to. -/
def Query.Draft.state (q : Query.Draft) : QueryState :=
  match q.deleted, q.active, q.completed with
  | true, _, _ => .deleted
  | false, true, false => .active
  | false, false, true => .completed
  | false, _, _ => .inactive

/-- Which queries a listing shows. -/
inductive Listing where
  | active
  | completed
  | all
  | deleted
  deriving DecidableEq, Repr

namespace Listing

/-- The name of a listing. -/
def name : Listing → String
  | .active => "active"
  | .completed => "completed"
  | .all => "all"
  | .deleted => "deleted"

/-- The listing with a name. -/
def ofName? (s : String) : Option Listing := [Listing.active, .completed, .all, .deleted].find? (·.name == s)

/-- The listing a request asks for. -/
def parse (word : String) : Except Refusal Listing :=
  match ofName? word with
  | some listing => .ok listing
  | none => .error (.unknownListing word)

/-- The listing shows this query. -/
def admits (listing : Listing) (q : Query.Draft) : Bool :=
  match listing with
  | .active => q.active && !q.completed && !q.deleted
  | .completed => !q.active && q.completed && !q.deleted
  | .all => !q.deleted
  | .deleted => q.deleted

end Listing

/-- New values for the flags of a query; a flag without one is left alone. -/
structure FlagUpdate where
  active : Option Bool
  completed : Option Bool
  deleted : Option Bool
  deriving DecidableEq, Repr

/-- The query after its flags are updated. -/
def Query.withFlags (q : Query) (flags : FlagUpdate) : Query :=
  { q with
    active := flags.active.getD q.active
    completed := flags.completed.getD q.completed
    deleted := flags.deleted.getD q.deleted }

/-- What an administrator can do to a query. -/
inductive QueryAction where
  | activate
  | complete
  | delete
  deriving DecidableEq, Repr

namespace QueryAction

/-- The name of an action. -/
def name : QueryAction → String
  | .activate => "activate"
  | .complete => "complete"
  | .delete => "delete"

/-- The action a request asks for. -/
def parse (word : String) : Except Refusal QueryAction :=
  match [QueryAction.activate, .complete, .delete].find? (·.name == word) with
  | some action => .ok action
  | none => .error (.unknownQueryAction word)

/-- What an action does to the flags. A deletion is never taken back. -/
def flags : QueryAction → FlagUpdate
  | .activate => ⟨some true, some false, none⟩
  | .complete => ⟨some false, some true, none⟩
  | .delete => ⟨some false, none, some true⟩

end QueryAction

/-- The counters of a query. -/
inductive Counter where
  | executions
  | errors
  deriving DecidableEq, Repr

/-- The query with one more on a counter. -/
def Query.counted (q : Query) : Counter → Query
  | .executions => { q with executions := Width.successor32 q.executions }
  | .errors => { q with errors := Width.successor32 q.errors }

/-- The result of one execution of a query by one node. -/
structure Execution.Draft where
  name : String
  uuid : String
  result : Int
  deriving DecidableEq, Repr

/-- The execution failed: its result is not zero. -/
def Execution.Draft.isError (e : Execution.Draft) : Bool := e.result != 0

/-- A stored execution. -/
structure Execution extends Execution.Draft where
  id : Nat
  createdAt : Time
  deriving DecidableEq, Repr

end FleetControl
