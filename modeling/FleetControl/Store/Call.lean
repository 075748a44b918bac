import FleetControl.Store.Nodes
import FleetControl.Store.Queries
import FleetControl.Store.Users

/-!
# Calls on the store

Everything an operation does to the store it does by calls. A call is one step that nothing else comes between; it is
answered or refused, and a refused call writes nothing. Calls are data (`Call`), so that what an operation asks of the store
can be looked at without a store, and `Call.exec` says what each does to one.
-/

namespace FleetControl

/-- A call on the store. -/
inductive Call where
  | insertNode (e : Enrollment) (seeds : List HistorySeed)
  | findNode (lookup : Store.Lookup)
  | findNodesByHost (host : String)
  | listNodes (selector : Selector) (activity : Activity) (cutoff : Time)
  | countNodes (selector : Selector) (activity : Activity) (cutoff : Time)
  | platforms
  | applyObservation (uuid : String) (observed : Observation)
  | touchEvent (uuid : String) (event : NodeEvent) (time : Time)
  | insertArchive (snapshot : Snapshot)
  | archived (uuid : String)
  | deleteNode (uuid : String)
  | history (uuid : String) (kind : HistoryKind)
  | insertQuery (draft : Query.Draft)
  | insertQueryWithTargets (draft : Query.Draft) (targets : List Target)
  | getQuery (name : String)
  | listQueries (listing : Listing)
  | insertTargets (name : String) (targets : List Target)
  | targets (name : String)
  | setExpected (name : String) (expected : Int)
  | setFlags (name : String) (flags : FlagUpdate)
  | incrementCounter (name : String) (counter : Counter)
  | recordExecution (e : Execution.Draft)
  | hasExecution (name uuid : String)
  | executions (name : String)
  | insertUser (account : Access.Account)
  | getUser (username : String)
  | listUsers
  | setAdmin (username : String) (admin : Bool) (permissions : Access.Permissions)
  | setPermissions (username : String) (permissions : Access.Permissions)
  | deleteUser (username : String)
  deriving DecidableEq, Repr

namespace Call

/-- What a call is answered with. -/
abbrev Reply : Call → Type
  | .insertNode _ _ => Node
  | .findNode _ => Option Node
  | .findNodesByHost _ => List Node
  | .listNodes _ _ _ => List Node
  | .countNodes _ _ _ => Int
  | .platforms => List String
  | .applyObservation _ _ => Node
  | .touchEvent _ _ _ => Unit
  | .insertArchive _ => ArchivedNode
  | .archived _ => List ArchivedNode
  | .deleteNode _ => Unit
  | .history _ _ => List HistoryEntry
  | .insertQuery _ => Query
  | .insertQueryWithTargets _ _ => Query
  | .getQuery _ => Option Query
  | .listQueries _ => List Query
  | .insertTargets _ _ => Unit
  | .targets _ => List Target
  | .setExpected _ _ => Unit
  | .setFlags _ _ => Unit
  | .incrementCounter _ _ => Unit
  | .recordExecution _ => Bool
  | .hasExecution _ _ => Bool
  | .executions _ => List Execution
  | .insertUser _ => Access.User
  | .getUser _ => Option Access.User
  | .listUsers => List Access.User
  | .setAdmin _ _ _ => Unit
  | .setPermissions _ _ => Unit
  | .deleteUser _ => Unit

/-- The name by which a storage backend knows a call. -/
def name : Call → String
  | .insertNode _ _ => "insert_node"
  | .findNode _ => "find_node"
  | .findNodesByHost _ => "find_nodes_by_host"
  | .listNodes _ _ _ => "list_nodes"
  | .countNodes _ _ _ => "count_nodes"
  | .platforms => "platforms"
  | .applyObservation _ _ => "apply_observation"
  | .touchEvent _ _ _ => "touch_event"
  | .insertArchive _ => "insert_archive"
  | .archived _ => "archived"
  | .deleteNode _ => "delete_node"
  | .history _ _ => "history"
  | .insertQuery _ => "insert_query"
  | .insertQueryWithTargets _ _ => "insert_query_with_targets"
  | .getQuery _ => "get_query"
  | .listQueries _ => "list_queries"
  | .insertTargets _ _ => "insert_targets"
  | .targets _ => "targets"
  | .setExpected _ _ => "set_expected"
  | .setFlags _ _ => "set_flags"
  | .incrementCounter _ _ => "increment_counter"
  | .recordExecution _ => "record_execution"
  | .hasExecution _ _ => "has_execution"
  | .executions _ => "executions"
  | .insertUser _ => "insert_user"
  | .getUser _ => "get_user"
  | .listUsers => "list_users"
  | .setAdmin _ _ _ => "set_admin"
  | .setPermissions _ _ => "set_permissions"
  | .deleteUser _ => "delete_user"

/-- The answer of a call that writes and has nothing to tell. -/
def done (result : Except Refusal Store) : Except Refusal (Unit × Store) := result.map fun s => ((), s)

/-- What a call does now: its answer and the store after it, or why it is refused. -/
def exec (now : Time) (s : Store) : (c : Call) → Except Refusal (c.Reply × Store)
  | .insertNode e seeds => s.insertNode now e seeds
  | .findNode lookup => .ok (s.findNode lookup, s)
  | .findNodesByHost host => .ok (s.nodesOnHost host, s)
  | .listNodes selector activity cutoff => .ok (s.listNodes selector activity cutoff, s)
  | .countNodes selector activity cutoff => .ok (((s.listNodes selector activity cutoff).length : Int), s)
  | .platforms => .ok (s.platforms, s)
  | .applyObservation uuid observed => s.applyObservation now uuid observed
  | .touchEvent uuid event time => done (s.touchEvent uuid event time)
  | .insertArchive snapshot => .ok (s.insertArchive snapshot)
  | .archived uuid => .ok (s.archived uuid, s)
  | .deleteNode uuid => done (s.deleteNode uuid)
  | .history uuid kind => .ok (s.historyOf uuid kind, s)
  | .insertQuery draft => s.insertQuery now draft []
  | .insertQueryWithTargets draft chosen => s.insertQuery now draft chosen
  | .getQuery name => .ok (s.getQuery name, s)
  | .listQueries listing => .ok (s.listQueries listing, s)
  | .insertTargets name added => done (s.insertTargets name added)
  | .targets name => .ok (s.targetsOf name, s)
  | .setExpected name expected => done (s.setExpected now name expected)
  | .setFlags name flags => done (s.setFlags now name flags)
  | .incrementCounter name counter => done (s.incrementCounter name counter)
  | .recordExecution e => s.recordExecution now e
  | .hasExecution name uuid => .ok (s.hasExecution name uuid, s)
  | .executions name => .ok (s.executionsOf name, s)
  | .insertUser account => s.insertUser now account
  | .getUser username => .ok (s.getUser username, s)
  | .listUsers => .ok (s.users, s)
  | .setAdmin username admin permissions => done (s.setAdmin now username admin permissions)
  | .setPermissions username permissions => done (s.setPermissions now username permissions)
  | .deleteUser username => done (s.deleteUser username)

/-- The store after a call at some time; a refused call leaves it as it was. -/
def after (now : Time) (c : Call) (s : Store) : Store :=
  match c.exec now s with
  | .ok (_, s') => s'
  | .error _ => s

end Call

end FleetControl
