import FleetControl.Node.Basic
import FleetControl.Refusal

/-!
# Listings of nodes

Nodes are listed and counted by environment or platform and by activity. A node is active when it changed after the activity
cutoff and inactive when it changed before it; at the cutoff it is neither.
-/

namespace FleetControl

/-- Which nodes a listing shows by their activity. -/
inductive Activity where
  | all
  | active
  | inactive
  deriving DecidableEq, Repr

namespace Activity

/-- The name of a choice. -/
def name : Activity → String
  | .all => "all"
  | .active => "active"
  | .inactive => "inactive"

/-- The choice with a name. -/
def ofName? (s : String) : Option Activity := [Activity.all, .active, .inactive].find? (·.name == s)

/-- The choice a request makes. -/
def parse (word : String) : Except Refusal Activity :=
  match ofName? word with
  | some activity => .ok activity
  | none => .error (.unknownActivity word)

/-- The listing shows a node that changed at this time. -/
def admits (activity : Activity) (updatedAt cutoff : Time) : Bool :=
  match activity with
  | .all => true
  | .active => cutoff < updatedAt
  | .inactive => updatedAt < cutoff

end Activity

/-- Which nodes a listing shows by what they are. -/
inductive Selector where
  | all
  | environment (name : String)
  | platform (name : String)
  deriving DecidableEq, Repr

/-- The listing shows nodes like this one. -/
def Selector.admits (selector : Selector) (node : Node) : Bool :=
  match selector with
  | .all => true
  | .environment name => node.attributes.environment == name
  | .platform name => node.attributes.platform == name

/-- How many nodes there are, in all and by activity. -/
structure Stats where
  total : Int
  active : Int
  inactive : Int
  deriving DecidableEq, Repr

end FleetControl
