import FleetControl.Http.MediaType
import FleetControl.Text.Percent

/-!
# Requests and routes

A request has a method, a target, headers and a body. The target is a path and, after a question mark, a query string; what
follows a number sign is not part of it. A route is what a path leads to. The parts of a path that name a user or an
environment are percent-encoded, and are decoded only when they are used.
-/

namespace FleetControl.Http

/-- A request. The names of its headers are in lower case. -/
structure Request where
  method : String
  target : String
  headers : List (String × Bytes)
  body : Bytes
  deriving DecidableEq, Repr

namespace Request

/-- The path and the query string of the target. -/
def parts (r : Request) : String × String :=
  let (path, query) := Text.splitFirst '?' (Text.splitFirst '#' r.target.toList).1
  (String.ofList path, String.ofList query)

/-- The first header of a name, where it can be read: all its bytes are visible characters, spaces or tabs. -/
def header? (r : Request) (name : String) : Option String := do
  let bytes ← r.headers.lookup name
  if bytes.all fun b => (0x20 ≤ b && b < 0x7F) || b == 0x09 then
    some (String.ofList (bytes.map fun b => Char.ofNat b.toNat))
  else none

/-- The request announces that its body is JSON. -/
def announcesJson (r : Request) : Bool := (r.header? "content-type").any MediaType.isJson

end Request

/-- What a path leads to. -/
inductive Route where
  | health
  | enroll
  | nodeConfig
  | nodeQueries
  | nodeResults
  | queries
  | queryActions
  | carves
  | nodeActions
  | users
  | userPermissions (username : String)
  | userAdmin (username : String)
  | environmentStats (environment : String)
  deriving DecidableEq, Repr

namespace Route

/-- The route of a path. A name in the middle of a path may be empty, one at its end may not. -/
def ofPath? (path : String) : Option Route :=
  match (Text.pieces '/' path.toList).map String.ofList with
  | ["", "healthz"] => some .health
  | ["", "api", "v1", "enroll"] => some .enroll
  | ["", "api", "v1", "nodes", "config"] => some .nodeConfig
  | ["", "api", "v1", "nodes", "queries"] => some .nodeQueries
  | ["", "api", "v1", "nodes", "results"] => some .nodeResults
  | ["", "api", "v1", "nodes", "actions"] => some .nodeActions
  | ["", "api", "v1", "queries"] => some .queries
  | ["", "api", "v1", "queries", "actions"] => some .queryActions
  | ["", "api", "v1", "carves"] => some .carves
  | ["", "api", "v1", "users"] => some .users
  | ["", "api", "v1", "users", username, "permissions"] => some (.userPermissions username)
  | ["", "api", "v1", "users", username, "admin"] => some (.userAdmin username)
  | ["", "api", "v1", "stats", "environments", environment] =>
    if environment = "" then none else some (.environmentStats environment)
  | _ => none

/-- The route is read from. -/
def isReadable : Route → Bool
  | .health | .queries | .environmentStats _ => true
  | _ => false

/-- The route is written to. -/
def isWritable : Route → Bool
  | .health | .environmentStats _ => false
  | _ => true

end Route

/-- How a route is used: it is read, its headers alone are read, or it is written to. -/
inductive Use where
  | get
  | head
  | post
  deriving DecidableEq, Repr

/-- The use a method makes of a route, where the route allows it. -/
def Route.use? (route : Route) (method : String) : Option Use :=
  if method = "GET" ∧ route.isReadable then some .get
  else if method = "HEAD" ∧ route.isReadable then some .head
  else if method = "POST" ∧ route.isWritable then some .post
  else none

/-- The name that a part of a path stands for. -/
def pathName? (part : String) : Option String := Utf8.decode? (Percent.decode (Utf8.encode part))

end FleetControl.Http
