/-!
# Kinds of targets

What a query target looks at in a node.
-/

namespace FleetControl

/-- A kind of target. The kind `localname` looks at the hostname and at the local name of a node. -/
inductive TargetKind where
  | environment
  | platform
  | uuid
  | localname
  deriving DecidableEq, Repr

namespace TargetKind

/-- Every kind of target. -/
def all : List TargetKind := [.environment, .platform, .uuid, .localname]

/-- The name of a kind. -/
def name : TargetKind → String
  | .environment => "environment"
  | .platform => "platform"
  | .uuid => "uuid"
  | .localname => "localname"

/-- The kind with a name. -/
def ofName? (s : String) : Option TargetKind := all.find? (·.name == s)

end TargetKind

end FleetControl
