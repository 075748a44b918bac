/-!
# Access levels

The four levels at which an administrative action may be allowed.
-/

namespace FleetControl.Access

/-- A level of access. The level of an environment is asked for one environment at a time. -/
inductive Level where
  | admin
  | query
  | carve
  | environment
  deriving DecidableEq, Repr

namespace Level

/-- Every level. -/
def all : List Level := [.admin, .query, .carve, .environment]

/-- The name of a level. -/
def name : Level → String
  | .admin => "admin"
  | .query => "query"
  | .carve => "carve"
  | .environment => "environment"

/-- The level with a name. -/
def ofName? (s : String) : Option Level := all.find? (·.name == s)

end Level

end FleetControl.Access
