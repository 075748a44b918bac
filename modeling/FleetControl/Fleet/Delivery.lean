import FleetControl.Fleet.QueryBook
import FleetControl.Fleet.Roster

/-!
# Delivery of queries and recording of results

A node is handed every active query that a target of it selects the node for and that the node has not executed yet. A result
is recorded once for each query and node.
-/

namespace FleetControl.Delivery

/-- The pending queries among some, by name, on top of those found before. -/
def pendingAmong (node : Node) (found : Dictionary String) : List Query → Program (Dictionary String)
  | [] => return found
  | query :: rest => do
    let targets ← .ask (.targets query.name)
    if Target.anySelects targets node then
      if ← .ask (.hasExecution query.name node.uuid) then pendingAmong node found rest
      else pendingAmong node (found.insert query.name query.text) rest
    else pendingAmong node found rest

/-- The pending queries of a node: the text of each under its name. -/
def pending (node : Node) : Program (Dictionary String) := do
  pendingAmong node .empty (← .ask (.listQueries .active))

/-- Records the result of a query for the node with a UUID. -/
def record (name uuid : String) (result : Int) : Program Unit := do
  match ← .ask (.getQuery name) with
  | none => .refuse (.noQuery name)
  | some _ =>
    let uuid := canonicalUuid uuid
    if ← .ask (.recordExecution ⟨name, uuid, result⟩) then return ()
    else .refuse (.alreadyExecuted name uuid)

/-- Whether the node with a UUID has executed a query. -/
def hasExecuted (name uuid : String) : Program Bool := .ask (.hasExecution name (canonicalUuid uuid))

/-- What became of a batch of results: the names recorded, those recorded before and those of no query. -/
structure Report where
  recorded : List String
  duplicates : List String
  unknown : List String
  deriving DecidableEq, Repr

/-- A report of nothing. -/
def Report.empty : Report := ⟨[], [], []⟩

/-- Records a batch of results for the node with a UUID, on top of a report of those before. A result that was recorded
before or is of no query is reported and does not stop the batch. -/
def recordAll (uuid : String) (report : Report) : List (String × Int) → Program Report
  | [] => return report
  | (name, result) :: rest => do
    match ← (record name uuid result).attempt with
    | .ok () => recordAll uuid { report with recorded := report.recorded ++ [name] } rest
    | .error why =>
      match why.kind with
      | .alreadyRecorded => recordAll uuid { report with duplicates := report.duplicates ++ [name] } rest
      | .notFound => recordAll uuid { report with unknown := report.unknown ++ [name] } rest
      | _ => .refuse why

end FleetControl.Delivery
