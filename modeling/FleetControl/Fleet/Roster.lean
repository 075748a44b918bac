import FleetControl.Program

/-!
# The roster of nodes

Nodes enrol, are looked up, observed, listed, archived and removed. Whoever asks may spell a key or a UUID in any way; it is
made canonical before the store is asked.
-/

namespace FleetControl.Roster

/-- The node enrolled under a key, or the same node enrolled now with a history of its own. -/
def enroll (uuid key : String) (attributes : Attributes) : Program Node := do
  if canonicalKey key = "" ∨ canonicalUuid uuid = "" then .refuse .blankIdentity
  else match ← .ask (.findNode (.key (canonicalKey key))) with
    | some node => return node
    | none =>
      let enrollment := Enrollment.of uuid key attributes
      .ask (.insertNode enrollment enrollment.seeds)

/-- The node with a key. -/
def byKey (key : String) : Program Node := do
  match ← .ask (.findNode (.key (canonicalKey key))) with
  | some node => return node
  | none => .refuse .noNodeWithKey

/-- The node with a UUID. -/
def byUuid (uuid : String) : Program Node := do
  match ← .ask (.findNode (.uuid (canonicalUuid uuid))) with
  | some node => return node
  | none => .refuse (.noNode (canonicalUuid uuid))

/-- The node with a UUID, if it is in an environment. -/
def byUuidIn (uuid environment : String) : Program Node := do
  let node ← byUuid uuid
  if node.attributes.environment = environment then return node else .refuse (.noNodeIn node.uuid environment)

/-- The nodes that go by a name on their network. -/
def onHost (host : String) : Program (List Node) := .ask (.findNodesByHost host)

/-- The nodes that go by a name on their network, of which there must be one. -/
def someOnHost (host : String) : Program (List Node) := do
  let nodes ← onHost host
  if nodes.isEmpty then .refuse (.noNodeOnHost host) else return nodes

/-- Whether a look-up finds its node. Refusals for other reasons remain. -/
def finds (lookup : Program Node) : Program Bool := do
  match ← lookup.attempt with
  | .ok _ => return true
  | .error why => if why.isNotFound then return false else .refuse why

/-- Whether there is a node with a key. -/
def hasKey (key : String) : Program Bool := finds (byKey key)

/-- Whether there is a node with a UUID. -/
def hasUuid (uuid : String) : Program Bool := finds (byUuid uuid)

/-- Whether a node goes by a name on its network. -/
def hasHost (host : String) : Program Bool := do return !(← onHost host).isEmpty

/-- Applies an observation to the node with a UUID. -/
def observe (uuid : String) (observed : Observation) : Program Node :=
  .ask (.applyObservation (canonicalUuid uuid) observed)

/-- Applies an observation of an address alone to the node with a UUID. -/
def observeAddress (uuid ip : String) : Program Node := observe uuid (.address ip)

/-- Notes an event of the node with a UUID. -/
def noteEvent (uuid : String) (event : NodeEvent) : Program Unit := do
  .ask (.touchEvent (canonicalUuid uuid) event (← .now))

/-- Archives a snapshot of the node with a UUID. -/
def archive (uuid trigger : String) : Program ArchivedNode := do
  let node ← byUuid uuid
  .ask (.insertArchive (node.snapshot trigger (← .now)))

/-- What makes a snapshot be taken when a node is removed. -/
def deleteTrigger : String := "delete"

/-- Archives a snapshot of the node with a UUID and then removes the node. -/
def retire (uuid : String) : Program ArchivedNode := do
  let archived ← archive uuid deleteTrigger
  .ask (.deleteNode archived.uuid)
  return archived

/-- The archived snapshots of a UUID. -/
def archived (uuid : String) : Program (List ArchivedNode) := .ask (.archived (canonicalUuid uuid))

/-- The history of an attribute of a UUID. -/
def history (uuid : String) (kind : HistoryKind) : Program (List HistoryEntry) := .ask (.history (canonicalUuid uuid) kind)

/-- The nodes of a listing. A node is inactive when it was not heard of for so many hours. -/
def list (selector : Selector) (activity : Activity) (hours : Int) : Program (List Node) := do
  .ask (.listNodes selector activity (← .cutoff hours))

/-- The platforms of the nodes, in ascending order. -/
def platforms : Program (List String) := .ask .platforms

/-- How many nodes there are, in all and by activity. -/
def stats (selector : Selector) (hours : Int) : Program Stats := do
  let cutoff ← .cutoff hours
  let total ← .ask (.countNodes selector .all cutoff)
  let active ← .ask (.countNodes selector .active cutoff)
  let inactive ← .ask (.countNodes selector .inactive cutoff)
  return ⟨total, active, inactive⟩

end FleetControl.Roster
