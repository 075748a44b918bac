import FleetControl.Program

/-!
# Accounts of users

Users are authenticated elsewhere; here they are stored with their grants, and it is decided what they may do. A user nobody
knows may do nothing.
-/

namespace FleetControl.Accounts

open Access (Account Level Permissions User)

/-- Makes an account. Its grants are those of an administrator in all environments, or none. -/
def add (account : Account) (environments : List String) : Program User := do
  let username := Text.trim account.username
  if username = "" then .refuse .blankUsername
  else .ask (.insertUser
    { account with username := username, permissions := .uniform environments account.admin })

/-- The user with a username. -/
def get (username : String) : Program User := do
  match ← .ask (.getUser username) with
  | some user => return user
  | none => .refuse (.noUser username)

/-- Whether there is a user with a username. -/
def has (username : String) : Program Bool := do return (← .ask (.getUser username)).isSome

/-- Every user. -/
def all : Program (List User) := .ask .listUsers

/-- Makes a user an administrator or takes that away; the grants are set anew with it. -/
def setAdmin (username : String) (admin : Bool) (environments : List String) : Program Unit :=
  .ask (.setAdmin username admin (.uniform environments admin))

/-- Sets the grants of a user. -/
def setPermissions (username : String) (permissions : Permissions) : Program Unit :=
  .ask (.setPermissions username permissions)

/-- Removes a user. -/
def delete (username : String) : Program Unit := .ask (.deleteUser username)

/-- Whether a user passes a check. -/
def authorize (username : String) (level : Level) (environment : Option String) : Program Bool := do
  match ← .ask (.getUser username) with
  | none => return false
  | some user => return user.allows level environment

/-- Refuses a user who does not pass a check. -/
def require (username : String) (level : Level) (environment : Option String) : Program Unit := do
  if ← authorize username level environment then return ()
  else .refuse (.lacksAccess username level environment)

end FleetControl.Accounts
