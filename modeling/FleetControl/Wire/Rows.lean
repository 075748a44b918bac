import FleetControl.Fleet.Operation

/-!
# Rows and answers as JSON

The JSON that stands for what the service answers. How a time is written is left open (`stamp`): the service writes times in
the form of RFC 3339 (`Wire.stamp`).
-/

namespace FleetControl.Wire

/-- A time as the service writes it. -/
def stamp (t : Time) : Json := .text t.text

/-- A list of JSON values made of the members of a list. -/
def list {α : Type} (f : α → Json) (as : List α) : Json := .list (as.map f)

/-- A list of texts. -/
def texts (ss : List String) : Json := list .text ss

/-- A JSON value, or null where there is none. -/
def optional {α : Type} (f : α → Json) : Option α → Json
  | none => .null
  | some a => f a

/-- A dictionary as an object. -/
def dictionary {α : Type} (f : α → Json) (d : Dictionary α) : Json := .object (d.entries.map fun e => (e.1, f e.2))

/-- The fields of the attributes that a node keeps reporting. -/
def readingFields {α : Type} (f : α → Json) (r : Readings α) : List (String × Json) :=
  [("hostname", f r.hostname), ("localname", f r.localname), ("ip_address", f r.ipAddress), ("username", f r.username),
   ("agent_user", f r.agentUser), ("agent_version", f r.agentVersion), ("config_hash", f r.configHash),
   ("daemon_hash", f r.daemonHash)]

/-- An observation. -/
def observation (o : Observation) : Json := .object (readingFields .text o)

/-- The fields of a node's attributes. -/
def attributeFields (a : Attributes) : List (String × Json) :=
  [("platform", .text a.platform), ("platform_version", .text a.platformVersion), ("environment", .text a.environment),
   ("cpu", .text a.cpu), ("memory", .text a.memory), ("hardware_serial", .text a.hardwareSerial)] ++
    readingFields .text a.readings ++ [("raw_enrollment", a.raw.getD .null)]

/-- The attributes of a node. -/
def attributes (a : Attributes) : Json := .object (attributeFields a)

/-- The fields of an enrolment. -/
def enrollmentFields (e : Enrollment) : List (String × Json) :=
  [("node_key", .text e.key), ("uuid", .text e.uuid)] ++ attributeFields e.attributes

/-- The fields that tell when a node was last heard of. -/
def lastSeenFields (stamp : Time → Json) (l : LastSeen) : List (String × Json) :=
  NodeEvent.all.map fun event => ("last_" ++ event.name, optional stamp (l.get event))

/-- A node. -/
def node (stamp : Time → Json) (n : Node) : Json :=
  .object ([("id", .integer n.id)] ++ enrollmentFields n.toEnrollment ++ lastSeenFields stamp n.lastSeen ++
    [("created_at", stamp n.createdAt), ("updated_at", stamp n.updatedAt)])

/-- An archived node. -/
def archivedNode (stamp : Time → Json) (a : ArchivedNode) : Json :=
  .object ([("id", .integer a.id), ("trigger", .text a.trigger)] ++ enrollmentFields a.toEnrollment ++
    lastSeenFields stamp a.lastSeen ++ [("enrolled_at", stamp a.enrolledAt), ("archived_at", stamp a.archivedAt)])

/-- An entry of a history. -/
def historyEntry (stamp : Time → Json) (e : HistoryEntry) : Json :=
  .object [("id", .integer e.id), ("uuid", .text e.uuid), ("value", .text e.value), ("count", .integer e.count),
    ("created_at", stamp e.createdAt), ("updated_at", stamp e.updatedAt)]

/-- A query. -/
def query (stamp : Time → Json) (q : Query) : Json :=
  .object [("id", .integer q.id), ("name", .text q.name), ("creator", .text q.creator), ("query", .text q.text),
    ("executions", .integer q.executions), ("errors", .integer q.errors), ("expected", .integer q.expected),
    ("active", .bool q.active), ("completed", .bool q.completed), ("deleted", .bool q.deleted),
    ("repeat_interval", .integer q.repeatInterval), ("type", .text q.kind.name), ("path", .ofText? q.path),
    ("created_at", stamp q.createdAt), ("updated_at", stamp q.updatedAt)]

/-- A target. -/
def target (t : Target) : Json := .object [("kind", .text t.kind.name), ("value", .text t.value)]

/-- An execution. -/
def execution (stamp : Time → Json) (e : Execution) : Json :=
  .object [("id", .integer e.id), ("name", .text e.name), ("uuid", .text e.uuid), ("result", .integer e.result),
    ("created_at", stamp e.createdAt)]

/-- Grants. -/
def permissions (p : Access.Permissions) : Json :=
  .object [("environments", dictionary .bool p.environments), ("query", .bool p.query), ("carve", .bool p.carve)]

/-- The fields of an account. -/
def accountFields (a : Access.Account) : List (String × Json) :=
  [("username", .text a.username), ("email", .text a.email), ("fullname", .text a.fullname), ("admin", .bool a.admin),
   ("permissions", permissions a.permissions)]

/-- A user. -/
def user (stamp : Time → Json) (u : Access.User) : Json :=
  .object ([("id", .integer u.id)] ++ accountFields u.toAccount ++
    [("created_at", stamp u.createdAt), ("updated_at", stamp u.updatedAt)])

/-- Counts of nodes. -/
def stats (s : Stats) : Json :=
  .object [("total", .integer s.total), ("active", .integer s.active), ("inactive", .integer s.inactive)]

/-- What became of a batch of results. -/
def report (r : Delivery.Report) : Json :=
  .object [("recorded", texts r.recorded), ("duplicates", texts r.duplicates), ("unknown", texts r.unknown)]

/-- A launched query. -/
def handle (h : Handle) : Json := .object [("name", .text h.name), ("expected", .integer h.expected)]

/-- What an operation answers. -/
def answer (stamp : Time → Json) : Answer → Json
  | .nothing => .null
  | .node n => node stamp n
  | .pending queries => dictionary .text queries
  | .report r => report r
  | .decision allowed => .bool allowed
  | .handle h => handle h
  | .queries qs => list (query stamp) qs
  | .archived ns => list (archivedNode stamp) ns
  | .stats s => stats s

end FleetControl.Wire
