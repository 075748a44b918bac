import FleetControl.Clock
import FleetControl.Json.Value
import FleetControl.Node.Readings
import FleetControl.Text.Case

/-!
# Nodes

A node enrols with an identity, which is a key and a UUID, and with its attributes. Both halves of the identity are made
canonical when they enter: trimmed, the UUID in upper case and the key in lower case. A stored node also holds when it was
last heard of, by kind of event. Before a node leaves, and whenever it is asked for, a snapshot of it goes to the archive.
-/

namespace FleetControl

/-- The canonical form of a UUID. -/
def canonicalUuid (uuid : String) : String := Text.upper (Text.trim uuid)

/-- The canonical form of a node key. -/
def canonicalKey (key : String) : String := Text.lower (Text.trim key)

/-- What a node says of itself when it enrols: attributes it keeps, attributes it goes on reporting, and its own account of
its enrolment as it sent it. -/
structure Attributes where
  platform : String
  platformVersion : String
  environment : String
  cpu : String
  memory : String
  hardwareSerial : String
  readings : Readings String
  raw : Option Json
  deriving DecidableEq, Repr

/-- Attributes of which none was given. -/
def Attributes.blank : Attributes := ⟨"", "", "", "", "", "", Observation.none, none⟩

instance : Inhabited Attributes := ⟨Attributes.blank⟩

/-- A node as it is enrolled. -/
structure Enrollment where
  key : String
  uuid : String
  attributes : Attributes
  deriving DecidableEq, Repr

/-- The enrolment of a node with these attributes under the canonical forms of a UUID and a key. -/
def Enrollment.of (uuid key : String) (attributes : Attributes) : Enrollment :=
  ⟨canonicalKey key, canonicalUuid uuid, attributes⟩

/-- The kinds of events by which a node is heard of. -/
inductive NodeEvent where
  | status
  | result
  | config
  | queryRead
  | queryWrite
  deriving DecidableEq, Repr

namespace NodeEvent

/-- Every kind of event. -/
def all : List NodeEvent := [.status, .result, .config, .queryRead, .queryWrite]

/-- The name of a kind of event. -/
def name : NodeEvent → String
  | .status => "status"
  | .result => "result"
  | .config => "config"
  | .queryRead => "query_read"
  | .queryWrite => "query_write"

/-- The kind of event with a name. -/
def ofName? (s : String) : Option NodeEvent := all.find? (·.name == s)

end NodeEvent

/-- When a node was last heard of, for each kind of event. -/
structure LastSeen where
  status : Option Time
  result : Option Time
  config : Option Time
  queryRead : Option Time
  queryWrite : Option Time
  deriving DecidableEq, Repr

namespace LastSeen

/-- Never heard of. -/
def never : LastSeen := ⟨none, none, none, none, none⟩

/-- When the last event of a kind was. -/
def get (l : LastSeen) : NodeEvent → Option Time
  | .status => l.status
  | .result => l.result
  | .config => l.config
  | .queryRead => l.queryRead
  | .queryWrite => l.queryWrite

/-- The same after an event of a kind. -/
def set (l : LastSeen) (event : NodeEvent) (time : Time) : LastSeen :=
  match event with
  | .status => { l with status := some time }
  | .result => { l with result := some time }
  | .config => { l with config := some time }
  | .queryRead => { l with queryRead := some time }
  | .queryWrite => { l with queryWrite := some time }

end LastSeen

/-- A stored node. -/
structure Node extends Enrollment where
  id : Nat
  lastSeen : LastSeen
  createdAt : Time
  updatedAt : Time
  deriving DecidableEq, Repr

/-- The node goes by this name on its network. -/
def Node.isHost (node : Node) (host : String) : Bool :=
  node.attributes.readings.hostname == host || node.attributes.readings.localname == host

/-- A node as it stood at some time, with what made the snapshot be taken. -/
structure Snapshot extends Enrollment where
  trigger : String
  lastSeen : LastSeen
  enrolledAt : Time
  archivedAt : Time
  deriving DecidableEq, Repr

/-- The snapshot of a node. -/
def Node.snapshot (node : Node) (trigger : String) (now : Time) : Snapshot where
  toEnrollment := node.toEnrollment
  trigger := trigger
  lastSeen := node.lastSeen
  enrolledAt := node.createdAt
  archivedAt := now

/-- A snapshot in the archive. -/
structure ArchivedNode extends Snapshot where
  id : Nat
  deriving DecidableEq, Repr

end FleetControl
