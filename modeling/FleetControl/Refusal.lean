import FleetControl.Access.Level
import FleetControl.Query.TargetKind

/-!
# Refusals

Why an operation was refused. Every cause belongs to one of ten kinds, which decide how a caller is answered; its detail
names what was asked for. A storage backend may report a refusal of any kind with a detail of its own
(`Refusal.reported`). Two kinds show nothing of their detail in the message: a failed authentication and an internal error.
-/

namespace FleetControl

/-- The kinds of refusals. -/
inductive Refusal.Kind where
  | notFound
  | alreadyExists
  | alreadyRecorded
  | invalidTarget
  | invalidAction
  | permissionDenied
  | configuration
  | authentication
  | invalidRequest
  | internal
  deriving DecidableEq, Repr

/-- The cause of a refusal. -/
inductive Refusal where
  | noNode (uuid : String)
  | noNodeWithKey
  | noNodeIn (uuid environment : String)
  | noNodeOnHost (host : String)
  | noQuery (name : String)
  | noUser (username : String)
  | nodeExists (uuid : String)
  | queryExists (name : String)
  | userExists (username : String)
  | alreadyExecuted (name uuid : String)
  | unknownTargetKind (word : String)
  | blankTarget (kind : TargetKind)
  | noTarget
  | noKnownTarget
  | unknownQueryAction (word : String)
  | unknownNodeAction (word : String)
  | lacksAccess (username : String) (level : Access.Level) (environment : Option String)
  | unauthenticated
  | unknownLevel (word : String)
  | unknownActivity (word : String)
  | unknownQueryKind (word : String)
  | unknownListing (word : String)
  | blankIdentity
  | unknownEnvironment (name : String)
  | blankUsername
  | blankPath
  | expectedOutOfRange (count : Nat)
  | activeAndCompleted (name : String)
  | blankQuery
  | reported (kind : Refusal.Kind) (detail : String)
  deriving DecidableEq, Repr

namespace Refusal

/-- The kind a cause belongs to. -/
def kind : Refusal → Kind
  | .noNode _ | .noNodeWithKey | .noNodeIn _ _ | .noNodeOnHost _ | .noQuery _ | .noUser _ => .notFound
  | .nodeExists _ | .queryExists _ | .userExists _ => .alreadyExists
  | .alreadyExecuted _ _ => .alreadyRecorded
  | .unknownTargetKind _ | .blankTarget _ | .noTarget | .noKnownTarget => .invalidTarget
  | .unknownQueryAction _ | .unknownNodeAction _ => .invalidAction
  | .lacksAccess _ _ _ => .permissionDenied
  | .unauthenticated => .authentication
  | .unknownLevel _ | .unknownActivity _ | .unknownQueryKind _ | .unknownListing _ | .blankIdentity
  | .unknownEnvironment _ | .blankUsername | .blankPath | .expectedOutOfRange _ | .activeAndCompleted _
  | .blankQuery => .invalidRequest
  | .reported kind _ => kind

/-- A word in single quotes. -/
def quoted (word : String) : String := "'" ++ word ++ "'"

/-- What a cause names. -/
def detail : Refusal → String
  | .noNode uuid => "node " ++ uuid
  | .noNodeWithKey => "node with the provided node_key"
  | .noNodeIn uuid environment => "node " ++ uuid ++ " in environment " ++ environment
  | .noNodeOnHost host => "node with host " ++ host
  | .noQuery name => "query " ++ name
  | .noUser username => "user " ++ username
  | .nodeExists uuid => "node " ++ uuid
  | .queryExists name => "query " ++ name
  | .userExists username => "user " ++ username
  | .alreadyExecuted name uuid => "query " ++ name ++ " already executed by " ++ uuid
  | .unknownTargetKind word => "unknown target kind " ++ quoted word
  | .blankTarget kind => kind.name ++ " target requires a value"
  | .noTarget => "query requires at least one target"
  | .noKnownTarget => "no target matches an enrolled node or configured environment"
  | .unknownQueryAction word => "unknown query action " ++ quoted word
  | .unknownNodeAction word => "unknown node action " ++ quoted word
  | .lacksAccess username level none => username ++ " lacks " ++ level.name ++ " access"
  | .lacksAccess username level (some environment) => username ++ " lacks " ++ level.name ++ " access to " ++ environment
  | .unauthenticated => ""
  | .unknownLevel word => "unknown access level " ++ quoted word
  | .unknownActivity word => "unknown node activity filter " ++ quoted word
  | .unknownQueryKind word => "unknown query type " ++ quoted word
  | .unknownListing word => "unknown query listing " ++ quoted word
  | .blankIdentity => "enrollment requires a uuid and node_key"
  | .unknownEnvironment name => "unknown environment " ++ quoted name
  | .blankUsername => "username is required"
  | .blankPath => "carve requires a path"
  | .expectedOutOfRange count => "expected count " ++ toString count ++ " out of range"
  | .activeAndCompleted name => "query " ++ name ++ " cannot be both active and completed"
  | .blankQuery => "query requires a name and text"
  | .reported _ detail => detail

/-- The wording of a refusal of a kind, with its detail where the kind shows it. -/
def Kind.wording : Kind → String → String
  | .notFound, detail => "not found: " ++ detail
  | .alreadyExists, detail => "already exists: " ++ detail
  | .alreadyRecorded, detail => "already recorded: " ++ detail
  | .invalidTarget, detail => "invalid target: " ++ detail
  | .invalidAction, detail => "invalid action: " ++ detail
  | .permissionDenied, detail => "permission denied: " ++ detail
  | .configuration, detail => "configuration error: " ++ detail
  | .authentication, _ => "authentication failed"
  | .invalidRequest, detail => "invalid request: " ++ detail
  | .internal, _ => "internal error"

/-- The message of a refusal. -/
def message (r : Refusal) : String := r.kind.wording r.detail

/-- Something asked for is not there. -/
def isNotFound (r : Refusal) : Bool := r.kind == .notFound

end Refusal

end FleetControl
