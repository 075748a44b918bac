import FleetControl.Fleet.Accounts
import FleetControl.Fleet.Delivery
import FleetControl.Fleet.Reach
import FleetControl.Query.Carve
import FleetControl.Query.Name

/-!
# Operations

What nodes and administrators can ask of the fleet. A node goes by its key; it enrols, reports what it observes, asks for its
pending queries and submits results. An administrator is named with every request and must hold the access it takes; then the
request is carried out. What is asked about several nodes or queries is done only when all of them are there.
-/

namespace FleetControl

/-- What an administrator can do to nodes. -/
inductive NodeAction where
  | delete
  | archive (trigger : String)
  deriving DecidableEq, Repr

/-- The action a request asks for. -/
def NodeAction.parse (word : String) : Except Refusal NodeAction :=
  if word = "delete" then .ok .delete
  else if word = "archive" then .ok (.archive "archive")
  else .error (.unknownNodeAction word)

/-- The name of a query that was launched, and how many nodes it reaches. -/
structure Handle where
  name : String
  expected : Nat
  deriving DecidableEq, Repr

namespace Fleet

/-! ## Traffic of nodes -/

/-- Enrols a node into one of the fleet's environments. -/
def enroll (settings : Settings) (uuid key : String) (attributes : Attributes) : Program Node :=
  if settings.hasEnvironment attributes.environment then Roster.enroll uuid key attributes
  else .refuse (.unknownEnvironment attributes.environment)

/-- Applies what a node observed, and notes that it told its status. -/
def updateMetadata (key : String) (observed : Observation) : Program Node := do
  let node ← Roster.byKey key
  let node ← Roster.observe node.uuid observed
  Roster.noteEvent node.uuid .status
  return node

/-- Applies the address that a node was seen with. -/
def updateAddress (key ip : String) : Program Node := do
  let node ← Roster.byKey key
  Roster.observeAddress node.uuid ip

/-- Hands a node its pending queries. -/
def poll (key : String) : Program (Dictionary String) := do
  let node ← Roster.byKey key
  let pending ← Delivery.pending node
  Roster.noteEvent node.uuid .queryRead
  return pending

/-- Records the result of one query. -/
def submitResult (key name : String) (result : Int) : Program Unit := do
  let node ← Roster.byKey key
  Delivery.record name node.uuid result
  Roster.noteEvent node.uuid .queryWrite

/-- Records the results of a batch of queries, in the order of their names. -/
def submitResults (key : String) (statuses : Dictionary Int) : Program Delivery.Report := do
  let node ← Roster.byKey key
  let report ← Delivery.recordAll node.uuid .empty statuses.entries
  if report.recorded.isEmpty then return report
  else
    Roster.noteEvent node.uuid .queryWrite
    return report

/-! ## Administration -/

/-- Launches a query at its targets: they are sifted, the nodes they reach are counted, and the query is written down. -/
def launch (settings : Settings) (draft : Query.Draft) (targets : List Target) : Program Handle := do
  if targets.isEmpty then .refuse .noTarget
  else
    let kept ← Reach.sift settings targets
    if kept.isEmpty then .refuse .noKnownTarget
    else
      let reach ← Reach.count settings.inactiveHours kept
      let expected ← .ofExcept (QueryBook.storedCount reach)
      let query ← QueryBook.create { draft with expected := expected } kept
      return ⟨query.name, reach⟩

/-- Launches a query. -/
def createQuery (settings : Settings) (token : QueryName.Token) (actor text : String) (targets : List Target)
    (kind : QueryKind) : Program Handle := do
  Accounts.require actor .query none
  launch settings (.ready (QueryName.query token) actor text kind) targets

/-- Launches a carve for the file at a path. -/
def createCarve (settings : Settings) (token : QueryName.Token) (actor path : String) (targets : List Target) :
    Program Handle := do
  Accounts.require actor .carve none
  let path := Text.trim path
  if path = "" then .refuse .blankPath
  else launch settings { Query.Draft.ready (QueryName.carve token) actor (Carve.text path) .carve with path := path } targets

/-- The queries of a listing. -/
def listQueries (actor : String) (listing : Listing) : Program (List Query) := do
  Accounts.require actor .query none
  QueryBook.list listing

/-- Does to queries what an administrator asked for. -/
def queryAction (actor : String) (action : QueryAction) (names : List String) : Program Unit := do
  Accounts.require actor .query none
  names.forM fun name => discard (QueryBook.get name)
  names.forM fun name => QueryBook.apply name action

/-- Does to one node what an administrator asked for. -/
def actOn (action : NodeAction) (uuid : String) : Program ArchivedNode :=
  match action with
  | .delete => Roster.retire uuid
  | .archive trigger => Roster.archive uuid trigger

/-- Does to nodes what an administrator asked for. -/
def nodeAction (actor : String) (action : NodeAction) (uuids : List String) : Program (List ArchivedNode) := do
  Accounts.require actor .admin none
  uuids.forM fun uuid => discard (Roster.byUuid uuid)
  uuids.mapM (actOn action)

/-- Makes an account. -/
def addUser (settings : Settings) (actor : String) (account : Access.Account) : Program Unit := do
  Accounts.require actor .admin none
  discard (Accounts.add account settings.environments)

/-- Makes a user an administrator or takes that away. -/
def setAdmin (settings : Settings) (actor username : String) (admin : Bool) : Program Unit := do
  Accounts.require actor .admin none
  Accounts.setAdmin username admin settings.environments

/-- Sets the grants of a user. -/
def setPermissions (actor username : String) (permissions : Access.Permissions) : Program Unit := do
  Accounts.require actor .admin none
  Accounts.setPermissions username permissions

/-- How many nodes an environment has. -/
def nodeStats (settings : Settings) (actor environment : String) : Program Stats := do
  Accounts.require actor .environment (some environment)
  Roster.stats (.environment environment) settings.inactiveHours

/-- Makes an administrator of this name unless there is a user of it. -/
def ensureAdmin (settings : Settings) (username : String) : Program Unit := do
  if ← Accounts.has username then return ()
  else
    let account := { Access.Account.blank with username := username, admin := true }
    match ← (Accounts.add account settings.environments).attempt with
    | .ok _ => return ()
    | .error why => if why.kind = .alreadyExists then return () else .refuse why

end Fleet

/-- An operation with its arguments. -/
inductive Operation where
  | enroll (uuid key : String) (attributes : Attributes)
  | updateMetadata (key : String) (observed : Observation)
  | updateAddress (key ip : String)
  | poll (key : String)
  | submitResult (key name : String) (result : Int)
  | submitResults (key : String) (statuses : Dictionary Int)
  | authorize (actor : String) (level : Access.Level) (environment : Option String)
  | createQuery (token : QueryName.Token) (actor text : String) (targets : List Target) (kind : QueryKind)
  | createCarve (token : QueryName.Token) (actor path : String) (targets : List Target)
  | listQueries (actor : String) (listing : Listing)
  | queryAction (actor : String) (action : QueryAction) (names : List String)
  | nodeAction (actor : String) (action : NodeAction) (uuids : List String)
  | addUser (actor : String) (account : Access.Account)
  | setAdmin (actor username : String) (admin : Bool)
  | setPermissions (actor username : String) (permissions : Access.Permissions)
  | nodeStats (actor environment : String)
  | ensureAdmin (username : String)
  deriving DecidableEq, Repr

/-- What an operation answers. -/
inductive Answer where
  | nothing
  | node (node : Node)
  | pending (queries : Dictionary String)
  | report (report : Delivery.Report)
  | decision (allowed : Bool)
  | handle (handle : Handle)
  | queries (queries : List Query)
  | archived (nodes : List ArchivedNode)
  | stats (stats : Stats)
  deriving DecidableEq, Repr

/-- The program of an operation under the settings of the service. -/
def Operation.program (settings : Settings) : Operation → Program Answer
  | .enroll uuid key attributes => .node <$> Fleet.enroll settings uuid key attributes
  | .updateMetadata key observed => .node <$> Fleet.updateMetadata key observed
  | .updateAddress key ip => .node <$> Fleet.updateAddress key ip
  | .poll key => .pending <$> Fleet.poll key
  | .submitResult key name result => (fun _ => .nothing) <$> Fleet.submitResult key name result
  | .submitResults key statuses => .report <$> Fleet.submitResults key statuses
  | .authorize actor level environment => .decision <$> Accounts.authorize actor level environment
  | .createQuery token actor text targets kind => .handle <$> Fleet.createQuery settings token actor text targets kind
  | .createCarve token actor path targets => .handle <$> Fleet.createCarve settings token actor path targets
  | .listQueries actor listing => .queries <$> Fleet.listQueries actor listing
  | .queryAction actor action names => (fun _ => .nothing) <$> Fleet.queryAction actor action names
  | .nodeAction actor action uuids => .archived <$> Fleet.nodeAction actor action uuids
  | .addUser actor account => (fun _ => .nothing) <$> Fleet.addUser settings actor account
  | .setAdmin actor username admin => (fun _ => .nothing) <$> Fleet.setAdmin settings actor username admin
  | .setPermissions actor username permissions => (fun _ => .nothing) <$> Fleet.setPermissions actor username permissions
  | .nodeStats actor environment => .stats <$> Fleet.nodeStats settings actor environment
  | .ensureAdmin username => (fun _ => .nothing) <$> Fleet.ensureAdmin settings username

/-- Carries out an operation at some time. -/
def Operation.run (settings : Settings) (op : Operation) (time : Time) (s : Store) : Except Stop Answer × Store :=
  (op.program settings).run time s

end FleetControl
