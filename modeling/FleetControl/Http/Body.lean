import FleetControl.Wire.Formats

/-!
# The bodies of requests

The JSON that each route expects. A node's attributes and observations stand beside its identity in one object.
-/

namespace FleetControl.Http

open Json (Format Slot)
open Wire (attributeSlots attributesFormat observationSlots observationFormat statusesFormat)

/-- The identity in a request to enrol. -/
structure Identity where
  uuid : String
  key : String
  deriving DecidableEq, Repr

/-- A request to enrol. -/
def enrollBody : Format (Identity × Attributes) :=
  .beside
    [.required "uuid" .text fun v i => { i with uuid := v },
     .required "node_key" .text fun v i => { i with key := v }]
    ⟨"", ""⟩ (attributeSlots.map (·.name)) attributesFormat

/-- The key of the node that sends a request, as a field that must be given. -/
def keySlot : Slot String := .required "node_key" .text fun v _ => v

/-- A report of what a node observes. -/
def observationBody : Format (String × Observation) :=
  .beside [keySlot] "" (observationSlots.map (·.name)) observationFormat

/-- A request for pending queries. -/
def nodeBody : Format String := .record [keySlot] ""

/-- A batch of results. -/
structure ResultsBody where
  key : String
  statuses : Dictionary Int
  deriving DecidableEq, Repr

/-- A batch of results. -/
def resultsBody : Format ResultsBody :=
  .record [
    .required "node_key" .text fun v b => { b with key := v },
    .defaulted "statuses" statusesFormat fun v b => { b with statuses := v }]
    ⟨"", .empty⟩

/-- The words of a target. -/
def targetBody : Format (String × String) :=
  .record [
    .required "kind" .text fun v b => (v, b.2),
    .required "value" .text fun v b => (b.1, v)]
    ("", "")

/-- A query to launch. -/
structure QueryBody where
  text : String
  targets : List (String × String)
  kind : Option String
  deriving DecidableEq, Repr

/-- A query to launch. -/
def queryBody : Format QueryBody :=
  .record [
    .required "query" .text fun v b => { b with text := v },
    .defaulted "targets" (.listOf targetBody) fun v b => { b with targets := v },
    .defaulted "type" (.optional .text) fun v b => { b with kind := v }]
    ⟨"", [], none⟩

/-- A carve to launch. -/
structure CarveBody where
  path : String
  targets : List (String × String)
  deriving DecidableEq, Repr

/-- A carve to launch. -/
def carveBody : Format CarveBody :=
  .record [
    .required "path" .text fun v b => { b with path := v },
    .defaulted "targets" (.listOf targetBody) fun v b => { b with targets := v }]
    ⟨"", []⟩

/-- An action on queries. -/
structure QueryActionBody where
  action : String
  names : List String
  deriving DecidableEq, Repr

/-- An action on queries. -/
def queryActionBody : Format QueryActionBody :=
  .record [
    .required "action" .text fun v b => { b with action := v },
    .required "names" (.listOf .text) fun v b => { b with names := v }]
    ⟨"", []⟩

/-- An action on nodes. -/
structure NodeActionBody where
  action : String
  uuids : List String
  trigger : Option String
  deriving DecidableEq, Repr

/-- An action on nodes. -/
def nodeActionBody : Format NodeActionBody :=
  .record [
    .required "action" .text fun v b => { b with action := v },
    .required "uuids" (.listOf .text) fun v b => { b with uuids := v },
    .defaulted "trigger" (.optional .text) fun v b => { b with trigger := v }]
    ⟨"", [], none⟩

/-- Whether a user is to be an administrator. -/
def adminBody : Format Bool := .record [.required "admin" .flag fun v _ => v] false

end FleetControl.Http
