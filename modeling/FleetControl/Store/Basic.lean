import FleetControl.Access.Permissions
import FleetControl.Node.Listing
import FleetControl.Node.Observation
import FleetControl.Query.Basic
import FleetControl.Query.Target

/-!
# The store

The store is a record of tables. Every table is a list of rows in the order in which they were inserted, and every row but
those of the targets has a number; all numbers come from one counter, `Store.lastId`. A row that must exist is found by its
UUID, its name or its username, which no two rows of a table share.
-/

namespace FleetControl

/-- A target of a stored query. -/
structure TargetEntry where
  query : String
  target : Target
  deriving DecidableEq, Repr

/-- The tables, and the number given last. -/
structure Store where
  lastId : Nat
  nodes : List Node
  archive : List ArchivedNode
  history : List HistoryEntry
  queries : List Query
  targets : List TargetEntry
  executions : List Execution
  users : List Access.User
  deriving DecidableEq, Repr

namespace Store

/-- The store before anything is written. -/
def empty : Store := ⟨0, [], [], [], [], [], [], []⟩

instance : Inhabited Store := ⟨empty⟩

/-- The number that the next row gets. -/
def nextId (s : Store) : Nat := s.lastId + 1

/-- The node with a UUID, or the refusal of one who needs it. -/
def nodeWith (s : Store) (uuid : String) : Except Refusal Node :=
  match s.nodes.find? (·.uuid == uuid) with
  | some node => .ok node
  | none => .error (.noNode uuid)

/-- The query with a name, or the refusal of one who needs it. -/
def queryNamed (s : Store) (name : String) : Except Refusal Query :=
  match s.queries.find? (·.name == name) with
  | some query => .ok query
  | none => .error (.noQuery name)

/-- The user with a username, or the refusal of one who needs it. -/
def userNamed (s : Store) (username : String) : Except Refusal Access.User :=
  match s.users.find? (·.username == username) with
  | some user => .ok user
  | none => .error (.noUser username)

/-- The store with the node of a UUID changed. -/
def changeNode (s : Store) (uuid : String) (change : Node → Node) : Store :=
  { s with nodes := s.nodes.map fun node => if node.uuid = uuid then change node else node }

/-- The store with the query of a name changed. -/
def changeQuery (s : Store) (name : String) (change : Query → Query) : Store :=
  { s with queries := s.queries.map fun query => if query.name = name then change query else query }

/-- The store with the user of a username changed. -/
def changeUser (s : Store) (username : String) (change : Access.User → Access.User) : Store :=
  { s with users := s.users.map fun user => if user.username = username then change user else user }

end Store

end FleetControl
