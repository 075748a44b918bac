import FleetControl.Clock
import FleetControl.Dictionary
import FleetControl.Refusal

/-!
# Permissions and users

An administrator passes every check. Any other user holds a grant for queries, one for carves and one for each environment
that is named in the grants; an environment that is not named is denied, and so is the level of an administrator.
-/

namespace FleetControl.Access

/-- The level a request asks for by name; the level of an environment has a short name too. -/
def Level.parse (word : String) : Except Refusal Level :=
  match if word = "env" then some .environment else Level.ofName? word with
  | some level => .ok level
  | none => .error (.unknownLevel word)

/-- The grants of a user who is no administrator. -/
structure Permissions where
  environments : Dictionary Bool
  query : Bool
  carve : Bool
  deriving DecidableEq, Repr

namespace Permissions

/-- No grant at all. -/
def none : Permissions := ⟨.empty, false, false⟩

instance : Inhabited Permissions := ⟨none⟩

/-- The grants name the environment and grant it. -/
def allowsEnvironment (p : Permissions) (environment : String) : Bool := (p.environments.get? environment).getD false

/-- The grants that name every given environment, all set alike. -/
def uniform (environments : List String) (granted : Bool) : Permissions :=
  ⟨.ofList (environments.map fun e => (e, granted)), granted, granted⟩

end Permissions

/-- The decision of a check on a user: administrators pass, others as they were granted. -/
def allows (admin : Bool) (permissions : Permissions) (level : Level) (environment : Option String) : Bool :=
  admin || match level with
    | .admin => false
    | .query => permissions.query
    | .carve => permissions.carve
    | .environment => environment.any permissions.allowsEnvironment

/-- What is stored of a user when the account is made. -/
structure Account where
  username : String
  email : String
  fullname : String
  admin : Bool
  permissions : Permissions
  deriving DecidableEq, Repr

namespace Account

/-- An account with nothing filled in. -/
def blank : Account := ⟨"", "", "", false, .none⟩

instance : Inhabited Account := ⟨blank⟩

end Account

/-- A stored user. -/
structure User extends Account where
  id : Nat
  createdAt : Time
  updatedAt : Time
  deriving DecidableEq, Repr

/-- The decision of a check on a stored user. -/
def User.allows (user : User) (level : Level) (environment : Option String) : Bool :=
  Access.allows user.admin user.permissions level environment

end FleetControl.Access
