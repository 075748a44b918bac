import FleetControl.Store.Basic

/-!
# Users in the store

Each write is one step: it is done as a whole or refused, and then nothing is written.
-/

namespace FleetControl.Store

open Access (Account Permissions User)

/-- The row of a user whose account is made now. -/
def newUser (s : Store) (now : Time) (account : Account) : User where
  toAccount := account
  id := s.nextId
  createdAt := now
  updatedAt := now

/-- Inserts a user. -/
def insertUser (s : Store) (now : Time) (account : Account) : Except Refusal (User × Store) :=
  if s.users.any (·.username == account.username) then .error (.userExists account.username)
  else
    let row := s.newUser now account
    .ok (row, { s with lastId := s.nextId, users := s.users ++ [row] })

/-- The user with a username, if there is one. -/
def getUser (s : Store) (username : String) : Option User := s.users.find? (·.username == username)

/-- Sets whether a user is an administrator, and the grants with it. -/
def setAdmin (s : Store) (now : Time) (username : String) (admin : Bool) (permissions : Permissions) :
    Except Refusal Store := do
  let _ ← s.userNamed username
  return s.changeUser username fun u => { u with admin := admin, permissions := permissions, updatedAt := now }

/-- Sets the grants of a user. -/
def setPermissions (s : Store) (now : Time) (username : String) (permissions : Permissions) : Except Refusal Store := do
  let _ ← s.userNamed username
  return s.changeUser username fun u => { u with permissions := permissions, updatedAt := now }

/-- Removes a user. -/
def deleteUser (s : Store) (username : String) : Except Refusal Store := do
  let _ ← s.userNamed username
  return { s with users := s.users.filter (·.username != username) }

end FleetControl.Store
