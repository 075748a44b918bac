import FleetControl.Fleet.Roster
import FleetControl.Settings.Basic

/-!
# The reach of targets

Before a query is launched its targets are sifted: of equal targets the first is kept, and only targets that are known are,
which are configured environments and whatever an enrolled node has. Then the nodes they select are counted, each once; of
environments and platforms only the active nodes count.
-/

namespace FleetControl.Reach

/-- A target is known, where the platforms may have been asked for already. Answers the platforms too, once they were. -/
def isKnown (settings : Settings) (platforms : Option (List String)) (target : Target) :
    Program (Bool × Option (List String)) := do
  match target.kind with
  | .environment => return (settings.hasEnvironment target.value, platforms)
  | .platform =>
    let names ← match platforms with
      | some names => pure names
      | none => Roster.platforms
    return (names.contains target.value, some names)
  | .uuid => return (← Roster.hasUuid target.value, platforms)
  | .localname => return (← Roster.hasHost target.value, platforms)

/-- Sifts targets, after those seen and on top of those kept so far. -/
def siftOnto (settings : Settings) (seen kept : List Target) (platforms : Option (List String)) :
    List Target → Program (List Target)
  | [] => return kept
  | target :: rest => do
    if seen.contains target then siftOnto settings seen kept platforms rest
    else
      let (known, platforms) ← isKnown settings platforms target
      siftOnto settings (target :: seen) (if known then kept ++ [target] else kept) platforms rest

/-- The targets that are known, each once, in their order. -/
def sift (settings : Settings) (targets : List Target) : Program (List Target) := siftOnto settings [] [] none targets

/-- The UUIDs of nodes added to those found, each once. -/
def addUuids (found : List String) (nodes : List Node) : List String :=
  nodes.foldl (fun found node => found.insert node.uuid) found

/-- The UUIDs of the nodes that a target reaches, added to those found. -/
def reachedBy (hours : Int) (found : List String) (target : Target) : Program (List String) := do
  match target.kind with
  | .environment => return addUuids found (← Roster.list (.environment target.value) .active hours)
  | .platform => return addUuids found (← Roster.list (.platform target.value) .active hours)
  | .uuid => if ← Roster.hasUuid target.value then return found.insert target.value else return found
  | .localname => return addUuids found (← Roster.onHost target.value)

/-- The UUIDs of the nodes that targets reach, added to those found. -/
def reachedByAll (hours : Int) (found : List String) : List Target → Program (List String)
  | [] => return found
  | target :: rest => do reachedByAll hours (← reachedBy hours found target) rest

/-- How many nodes targets reach. -/
def count (hours : Int) (targets : List Target) : Program Nat := do return (← reachedByAll hours [] targets).length

end FleetControl.Reach
