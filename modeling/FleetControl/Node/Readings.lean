/-!
# Readings

Eight of a node's attributes are read again whenever the node reports. A `Readings` has one slot for each of them: filled
with texts it is what a node reported or what is stored of it, filled with optional texts it is what a report changes.
-/

namespace FleetControl

/-- One slot for each attribute that a node keeps reporting. -/
structure Readings (α : Type) where
  hostname : α
  localname : α
  ipAddress : α
  username : α
  agentUser : α
  agentVersion : α
  configHash : α
  daemonHash : α
  deriving DecidableEq, Repr

/-- What a node reported. An empty text means that the attribute was not reported. -/
abbrev Observation : Type := Readings String

namespace Readings

variable {α β γ : Type}

/-- The same in every slot. -/
def const (a : α) : Readings α := ⟨a, a, a, a, a, a, a, a⟩

/-- Combines two readings slot by slot. -/
def zipWith (f : α → β → γ) (r : Readings α) (s : Readings β) : Readings γ where
  hostname := f r.hostname s.hostname
  localname := f r.localname s.localname
  ipAddress := f r.ipAddress s.ipAddress
  username := f r.username s.username
  agentUser := f r.agentUser s.agentUser
  agentVersion := f r.agentVersion s.agentVersion
  configHash := f r.configHash s.configHash
  daemonHash := f r.daemonHash s.daemonHash

end Readings

/-- An observation of nothing. -/
def Observation.none : Observation := .const ""

/-- An observation of an address alone. -/
def Observation.address (ip : String) : Observation := { Observation.none with ipAddress := ip }

end FleetControl
