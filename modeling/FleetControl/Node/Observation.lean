import FleetControl.Node.Basic

/-!
# What an observation changes

An observation is compared with what is stored of the node. An attribute that was reported and differs is stored. Four
attributes have a history. Hostname, local name and username are logged when they change: a differing value is appended, an
equal one writes nothing. Of addresses every sighting counts: a differing one is appended with the count one, an equal one
adds one to its count.
-/

namespace FleetControl

/-- The attributes with a history. -/
inductive HistoryKind where
  | hostname
  | localname
  | ipAddress
  | username
  deriving DecidableEq, Repr

namespace HistoryKind

/-- Every attribute with a history. -/
def all : List HistoryKind := [.hostname, .localname, .ipAddress, .username]

/-- The name of the attribute. -/
def name : HistoryKind → String
  | .hostname => "hostname"
  | .localname => "localname"
  | .ipAddress => "ip_address"
  | .username => "username"

/-- The attribute with a name. -/
def ofName? (s : String) : Option HistoryKind := all.find? (·.name == s)

end HistoryKind

/-- A write to the history of a node: a new entry, or one more sighting of the latest entry with a value. Where there is no
such entry, a sighting starts one with the count one. -/
inductive HistoryChange where
  | append (kind : HistoryKind) (value : String) (count : Int)
  | increment (kind : HistoryKind) (value : String)
  deriving DecidableEq, Repr

/-- What an observation changes: the attributes to store, and the writes to the history. -/
structure Revision where
  updates : Readings (Option String)
  history : List HistoryChange
  deriving DecidableEq, Repr

/-- The value to store: what was reported, if it was and differs from what is stored. -/
def changed (stored observed : String) : Option String :=
  if observed ≠ "" ∧ observed ≠ stored then some observed else none

/-- The write to the history of a logged attribute. -/
def logged (kind : HistoryKind) (update : Option String) : List HistoryChange :=
  update.toList.map fun value => .append kind value 0

/-- The write to the history of addresses. -/
def sighted (update : Option String) (observed : String) : List HistoryChange :=
  match update with
  | some ip => [.append .ipAddress ip 1]
  | none => if observed = "" then [] else [.increment .ipAddress observed]

/-- What an observation changes of what is stored. -/
def Revision.plan (stored : Readings String) (observed : Observation) : Revision :=
  let updates := Readings.zipWith changed stored observed
  { updates
    history := logged .username updates.username ++ logged .hostname updates.hostname ++
      logged .localname updates.localname ++ sighted updates.ipAddress observed.ipAddress }

/-- What is stored after the changes of a revision. -/
def Revision.apply (revision : Revision) (stored : Readings String) : Readings String :=
  Readings.zipWith (fun update value => update.getD value) revision.updates stored

/-- An entry in the history of a node. -/
structure HistoryEntry where
  id : Nat
  uuid : String
  kind : HistoryKind
  value : String
  count : Int
  createdAt : Time
  updatedAt : Time
  deriving DecidableEq, Repr

/-- An entry that is written together with a node. -/
structure HistorySeed where
  kind : HistoryKind
  value : String
  count : Int
  deriving DecidableEq, Repr

/-- The entries a node starts with: one for each attribute with a history. The address has been sighted once. -/
def Enrollment.seeds (e : Enrollment) : List HistorySeed :=
  let readings := e.attributes.readings
  [⟨.hostname, readings.hostname, 0⟩, ⟨.localname, readings.localname, 0⟩, ⟨.ipAddress, readings.ipAddress, 1⟩,
   ⟨.username, readings.username, 0⟩]

end FleetControl
