import FleetControl.Store.Basic

/-!
# Nodes, their history and the archive in the store

Each write is one step: it is done as a whole or refused, and then nothing is written. A node is inserted together with the
entries its history starts with, and an observation changes the node and its history together.
-/

namespace FleetControl

/-- The node after a revision of its readings. -/
def Node.revised (node : Node) (now : Time) (revision : Revision) : Node :=
  { node with
    attributes := { node.attributes with readings := revision.apply node.attributes.readings }
    updatedAt := now }

/-- The node after an event. -/
def Node.touched (node : Node) (event : NodeEvent) (time : Time) : Node :=
  { node with lastSeen := node.lastSeen.set event time, updatedAt := time }

namespace Store

/-- Appends an entry to the history of a UUID. -/
def appendHistory (s : Store) (now : Time) (uuid : String) (kind : HistoryKind) (value : String) (count : Int) : Store :=
  { s with
    lastId := s.nextId
    history := s.history ++ [⟨s.nextId, uuid, kind, value, count, now, now⟩] }

/-- Changes the last row that meets a condition, if there is one. -/
def changeLast {α : Type} (holds : α → Bool) (change : α → α) : List α → Option (List α)
  | [] => none
  | row :: rows =>
    match changeLast holds change rows with
    | some rows => some (row :: rows)
    | none => if holds row then some (change row :: rows) else none

/-- Counts one more sighting of a value: on the latest entry that holds it, or on a new one. -/
def bumpHistory (s : Store) (now : Time) (uuid : String) (kind : HistoryKind) (value : String) : Store :=
  match
    changeLast (fun e => e.uuid == uuid && e.kind == kind && e.value == value)
      (fun e => { e with count := Width.successor32 e.count, updatedAt := now }) s.history
  with
  | some history => { s with history }
  | none => s.appendHistory now uuid kind value 1

/-- Writes to the history of a UUID. -/
def applyChange (now : Time) (uuid : String) (s : Store) : HistoryChange → Store
  | .append kind value count => s.appendHistory now uuid kind value count
  | .increment kind value => s.bumpHistory now uuid kind value

/-- The key or the UUID of the enrolment is taken by a live node. -/
def isTaken (s : Store) (e : Enrollment) : Bool := s.nodes.any fun node => node.key == e.key || node.uuid == e.uuid

/-- The row of a node that is enrolled now. -/
def newNode (s : Store) (now : Time) (e : Enrollment) : Node where
  toEnrollment := e
  id := s.nextId
  lastSeen := .never
  createdAt := now
  updatedAt := now

/-- Inserts a node and the entries its history starts with. -/
def insertNode (s : Store) (now : Time) (e : Enrollment) (seeds : List HistorySeed) : Except Refusal (Node × Store) :=
  if s.isTaken e then .error (.nodeExists e.uuid)
  else
    let node := s.newNode now e
    let started := { s with lastId := s.nextId, nodes := s.nodes ++ [node] }
    .ok (node, seeds.foldl (fun s seed => s.appendHistory now e.uuid seed.kind seed.value seed.count) started)

/-- The half of an identity by which a node is looked up. -/
inductive Lookup where
  | key (key : String)
  | uuid (uuid : String)
  deriving DecidableEq, Repr

/-- The node that has the key or the UUID looked up. -/
def findNode (s : Store) : Lookup → Option Node
  | .key key => s.nodes.find? (·.key == key)
  | .uuid uuid => s.nodes.find? (·.uuid == uuid)

/-- The nodes that go by a name on their network. -/
def nodesOnHost (s : Store) (host : String) : List Node := s.nodes.filter (·.isHost host)

/-- The nodes of a listing. -/
def listNodes (s : Store) (selector : Selector) (activity : Activity) (cutoff : Time) : List Node :=
  s.nodes.filter fun node => selector.admits node && activity.admits node.updatedAt cutoff

/-- The platforms of the nodes, each once, in ascending order. -/
def platforms (s : Store) : List String := (Dictionary.ofList (s.nodes.map fun n => (n.attributes.platform, ()))).keys

/-- Applies an observation to the node of a UUID: its readings and its history follow what the observation changes. -/
def applyObservation (s : Store) (now : Time) (uuid : String) (observed : Observation) : Except Refusal (Node × Store) := do
  let node ← s.nodeWith uuid
  let revision := Revision.plan node.attributes.readings observed
  let changed := s.changeNode uuid fun n => n.revised now revision
  return (node.revised now revision, revision.history.foldl (applyChange now uuid) changed)

/-- Notes an event of the node of a UUID. -/
def touchEvent (s : Store) (uuid : String) (event : NodeEvent) (time : Time) : Except Refusal Store := do
  let _ ← s.nodeWith uuid
  return s.changeNode uuid fun n => n.touched event time

/-- Puts a snapshot into the archive. -/
def insertArchive (s : Store) (snapshot : Snapshot) : ArchivedNode × Store :=
  let row : ArchivedNode := { toSnapshot := snapshot, id := s.nextId }
  (row, { s with lastId := s.nextId, archive := s.archive ++ [row] })

/-- The archived snapshots of a UUID. -/
def archived (s : Store) (uuid : String) : List ArchivedNode := s.archive.filter (·.uuid == uuid)

/-- Removes the node of a UUID. Its history stays. -/
def deleteNode (s : Store) (uuid : String) : Except Refusal Store := do
  let _ ← s.nodeWith uuid
  return { s with nodes := s.nodes.filter (·.uuid != uuid) }

/-- The history of one attribute of a UUID. -/
def historyOf (s : Store) (uuid : String) (kind : HistoryKind) : List HistoryEntry :=
  s.history.filter fun e => e.uuid == uuid && e.kind == kind

end Store

end FleetControl
