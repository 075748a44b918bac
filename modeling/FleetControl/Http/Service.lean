import FleetControl.Http.Body
import FleetControl.Http.Request
import FleetControl.Http.Response

/-!
# The service

How a request is answered. First its path must lead somewhere and its method be allowed there. Then everything the route needs
is read from it: names in the path, the query string, the body. Only then an administrative request is asked for the key of
the service and for its actor, and the words in it are understood, and at last the operation is carried out.
-/

namespace FleetControl.Http

/-- How many bytes a body may have. -/
def bodyLimit : Nat := 2097152

/-- Reads the body of a request. What follows the first JSON value is passed over. -/
def readBody {α : Type} (format : Json.Format α) (r : Request) : Except Response α :=
  if !r.announcesJson then .error (.unreadable 415)
  else if bodyLimit < r.body.length then .error (.unreadable 413)
  else match format.read Json.depthLimit r.body with
    | .ok (a, _) => .ok a
    | .error .malformed => .error (.unreadable 400)
    | .error .mismatch => .error (.unreadable 422)

/-- Reads a name in the path of a request. -/
def readName (part : String) : Except Response String :=
  match pathName? part with
  | some name => .ok name
  | none => .error (.unreadable 400)

/-- Reads the listing that the query string of a request asks for, if it does. It may ask once. -/
def readListing (r : Request) : Except Response (Option String) :=
  match (Percent.fields r.parts.2).filter (·.1 == "target") with
  | [] => .ok none
  | [(_, value)] => .ok (some value)
  | _ => .error (.unreadable 400)

/-- The administrator that a request acts for. It must bring the key of the service, if there is one. -/
def actor (settings : Settings) (r : Request) : Except Refusal String :=
  if settings.apiKey.isSome ∧ r.header? "x-api-key" ≠ settings.apiKey then .error .unauthenticated
  else match r.header? "x-fleet-user" with
    | some name => if Text.isBlankText name then .error .unauthenticated else .ok (Text.trim name)
    | none => .error .unauthenticated

/-- Answers with the response to whatever cannot be read, and else with that of the program for what was read. A refusal of
the program becomes its response. -/
def answering {α : Type} (read : Except Response α) (program : α → Program Response) : Program Response :=
  match read with
  | .error response => return response
  | .ok a => do
    match ← (program a).attempt with
    | .ok response => return response
    | .error why => return .ofRefusal why

/-- The action on nodes that a request asks for. A trigger that is not blank takes the place of the usual one of an archive. -/
def chosenAction (body : NodeActionBody) : Except Refusal NodeAction := do
  match ← NodeAction.parse body.action, body.trigger with
  | .archive usual, some trigger => return .archive (if Text.isBlankText trigger then usual else trigger)
  | action, _ => return action

/-- Answers a request that reads a route. -/
def answerGet (settings : Settings) (r : Request) : Route → Program Response
  | .health => return ⟨200, .health⟩
  | .queries => answering (readListing r) fun listing => do
    let name ← .ofExcept (actor settings r)
    let listing ← .ofExcept ((listing.map Listing.parse).getD (.ok .active))
    return .ok (.queries (← Fleet.listQueries name listing))
  | .environmentStats environment => answering (readName environment) fun environment => do
    let name ← .ofExcept (actor settings r)
    return .ok (.stats (← Fleet.nodeStats settings name environment))
  | _ => return ⟨405, .nothing⟩

/-- Answers a request that writes to a route. -/
def answerPost (settings : Settings) (token : QueryName.Token) (r : Request) : Route → Program Response
  | .enroll => answering (readBody enrollBody r) fun body => do
    return .ok (.node (← Fleet.enroll settings body.1.uuid body.1.key body.2))
  | .nodeConfig => answering (readBody observationBody r) fun body => do
    return .ok (.node (← Fleet.updateMetadata body.1 body.2))
  | .nodeQueries => answering (readBody nodeBody r) fun key => do
    return .ok (.pending (← Fleet.poll key))
  | .nodeResults => answering (readBody resultsBody r) fun body => do
    return .ok (.report (← Fleet.submitResults body.key body.statuses))
  | .queries => answering (readBody queryBody r) fun body => do
    let name ← .ofExcept (actor settings r)
    let kind ← .ofExcept ((body.kind.map QueryKind.parse).getD (.ok .standard))
    let targets ← .ofExcept (Target.parseAll body.targets)
    return .created (.handle (← Fleet.createQuery settings token name body.text targets kind))
  | .queryActions => answering (readBody queryActionBody r) fun body => do
    let name ← .ofExcept (actor settings r)
    let action ← .ofExcept (QueryAction.parse body.action)
    Fleet.queryAction name action body.names
    return .noContent
  | .carves => answering (readBody carveBody r) fun body => do
    let name ← .ofExcept (actor settings r)
    let targets ← .ofExcept (Target.parseAll body.targets)
    return .created (.handle (← Fleet.createCarve settings token name body.path targets))
  | .nodeActions => answering (readBody nodeActionBody r) fun body => do
    let name ← .ofExcept (actor settings r)
    let action ← .ofExcept (chosenAction body)
    return .ok (.archived (← Fleet.nodeAction name action body.uuids))
  | .users => answering (readBody Wire.accountFormat r) fun account => do
    let name ← .ofExcept (actor settings r)
    Fleet.addUser settings name account
    return ⟨201, .nothing⟩
  | .userPermissions username =>
    answering (do return (← readName username, ← readBody Wire.permissionsFormat r)) fun body => do
      let name ← .ofExcept (actor settings r)
      Fleet.setPermissions name body.1 body.2
      return .noContent
  | .userAdmin username =>
    answering (do return (← readName username, ← readBody adminBody r)) fun body => do
      let name ← .ofExcept (actor settings r)
      Fleet.setAdmin settings name body.1 body.2
      return .noContent
  | .health | .environmentStats _ => return ⟨405, .nothing⟩

/-- Answers a request. -/
def serve (settings : Settings) (token : QueryName.Token) (r : Request) : Program Response :=
  match Route.ofPath? r.parts.1 with
  | none => return ⟨404, .nothing⟩
  | some route =>
    match route.use? r.method with
    | none => return ⟨405, .nothing⟩
    | some .get => answerGet settings r route
    | some .head => do return (← answerGet settings r route).headersOnly
    | some .post => answerPost settings token r route

end FleetControl.Http
