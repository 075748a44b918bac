import FleetControl.Node.Basic
import FleetControl.Refusal

/-!
# Targets

A target selects nodes by one of their attributes, and a query is for every node that one of its targets selects. The value
of a target is trimmed and never empty, and that of a UUID target is in canonical form.
-/

namespace FleetControl

/-- The kind a request asks for by name; two kinds have a second name. -/
def TargetKind.parse (word : String) : Except Refusal TargetKind :=
  match
    if word = "context" then some .environment
    else if word = "hostname" then some .localname
    else TargetKind.ofName? word
  with
  | some kind => .ok kind
  | none => .error (.unknownTargetKind word)

/-- A target: the nodes whose attribute of this kind has this value. -/
structure Target where
  kind : TargetKind
  value : String
  deriving DecidableEq, Repr

namespace Target

/-- The target of a kind with the value that a text gives. -/
def make (kind : TargetKind) (text : String) : Except Refusal Target :=
  let value := Text.trim text
  if value = "" then .error (.blankTarget kind)
  else match kind with
    | .uuid => .ok ⟨kind, canonicalUuid value⟩
    | _ => .ok ⟨kind, value⟩

/-- The target that a word for its kind and a text for its value give. -/
def parse (word text : String) : Except Refusal Target := do make (← TargetKind.parse word) text

/-- The targets that a list of words and texts give; the first one that gives none is the fault. -/
def parseAll (pairs : List (String × String)) : Except Refusal (List Target) := pairs.mapM fun p => parse p.1 p.2

/-- How a target is held in a table: the name of its kind, and its value. -/
structure Row where
  kind : String
  value : String
  deriving DecidableEq, Repr

/-- The row of a target. -/
def toRow (t : Target) : Row := ⟨t.kind.name, t.value⟩

/-- The target held in a row. -/
def ofRow (row : Row) : Except Refusal Target := parse row.kind row.value

/-- The target selects the node. -/
def selects (t : Target) (node : Node) : Bool :=
  match t.kind with
  | .uuid => node.uuid == t.value
  | .environment => node.attributes.environment == t.value
  | .platform => node.attributes.platform == t.value
  | .localname => node.isHost t.value

/-- One of the targets selects the node. -/
def anySelects (targets : List Target) (node : Node) : Bool := targets.any (·.selects node)

end Target

end FleetControl
