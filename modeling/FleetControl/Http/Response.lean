import FleetControl.Wire.Rows

/-!
# Responses

A response has a status and a payload. A refusal is answered with its message, under a status that its kind decides.
-/

namespace FleetControl

/-- The status that a refusal of a kind is answered with. -/
def Refusal.Kind.status : Refusal.Kind → Nat
  | .notFound => 404
  | .alreadyExists | .alreadyRecorded => 409
  | .invalidTarget | .invalidAction | .invalidRequest => 400
  | .permissionDenied => 403
  | .authentication => 401
  | .configuration | .internal => 500

namespace Http

/-- What a response carries: nothing, a plain text that says why a request could not be read, or JSON. -/
inductive Payload where
  | nothing
  | plain
  | health
  | answer (a : Answer)
  | refusal (message : String)
  deriving DecidableEq, Repr

/-- The JSON of a payload. -/
def Payload.json? (stamp : Time → Json) : Payload → Option Json
  | .nothing | .plain => none
  | .health => some (.object [("status", .text "ok")])
  | .answer (.pending queries) => some (.object [("queries", Wire.dictionary .text queries)])
  | .answer a => some (Wire.answer stamp a)
  | .refusal message => some (.object [("error", .text message)])

/-- A response. -/
structure Response where
  status : Nat
  payload : Payload
  deriving DecidableEq, Repr

namespace Response

/-- The response to a request that could not be read. -/
def unreadable (status : Nat) : Response := ⟨status, .plain⟩

/-- The response to a refused operation. -/
def ofRefusal (why : Refusal) : Response := ⟨why.kind.status, .refusal why.message⟩

/-- A response that carries an answer. -/
def ok (a : Answer) : Response := ⟨200, .answer a⟩

/-- The response that tells of something new. -/
def created (a : Answer) : Response := ⟨201, .answer a⟩

/-- The response to something done that has no answer. -/
def noContent : Response := ⟨204, .nothing⟩

/-- The response without its payload. -/
def headersOnly (r : Response) : Response := { r with payload := .nothing }

end Response

end Http

end FleetControl
