import FleetControl.Fleet.Operation
import FleetControl.Json.Format

/-!
# The formats of what is sent to the service

For each type that comes in as JSON, its fields in their order and what they default to.
-/

namespace FleetControl.Wire

open Json (Format Slot)

/-- A signed number of 32 bits. -/
def word : Format Int := .integer Width.least32 Width.greatest32

/-- A signed number of 64 bits. -/
def longWord : Format Int := .integer Width.least64 Width.greatest64

/-- An access level. -/
def levelFormat : Format Access.Level := .named Access.Level.ofName?

/-- An attribute with a history. -/
def historyKindFormat : Format HistoryKind := .named HistoryKind.ofName?

/-- A kind of event. -/
def eventFormat : Format NodeEvent := .named NodeEvent.ofName?

/-- A choice of nodes by their activity. -/
def activityFormat : Format Activity := .named Activity.ofName?

/-- A kind of query. -/
def queryKindFormat : Format QueryKind := .named QueryKind.ofName?

/-- A listing of queries. -/
def listingFormat : Format Listing := .named Listing.ofName?

/-- A kind of target. -/
def targetKindFormat : Format TargetKind := .named TargetKind.ofName?

/-- The fields of grants, none of which need be given. -/
def permissionSlots : List (Slot Access.Permissions) :=
  [.defaulted "environments" (.dictionary .flag) fun v p => { p with environments := v },
   .defaulted "query" .flag fun v p => { p with query := v },
   .defaulted "carve" .flag fun v p => { p with carve := v }]

/-- Grants. -/
def permissionsFormat : Format Access.Permissions := .record permissionSlots .none

/-- The fields of a node's attributes, none of which need be given. -/
def attributeSlots : List (Slot Attributes) :=
  [.defaulted "platform" .text fun v a => { a with platform := v },
   .defaulted "platform_version" .text fun v a => { a with platformVersion := v },
   .defaulted "agent_version" .text fun v a => { a with readings := { a.readings with agentVersion := v } },
   .defaulted "hostname" .text fun v a => { a with readings := { a.readings with hostname := v } },
   .defaulted "localname" .text fun v a => { a with readings := { a.readings with localname := v } },
   .defaulted "ip_address" .text fun v a => { a with readings := { a.readings with ipAddress := v } },
   .defaulted "username" .text fun v a => { a with readings := { a.readings with username := v } },
   .defaulted "agent_user" .text fun v a => { a with readings := { a.readings with agentUser := v } },
   .defaulted "environment" .text fun v a => { a with environment := v },
   .defaulted "cpu" .text fun v a => { a with cpu := v },
   .defaulted "memory" .text fun v a => { a with memory := v },
   .defaulted "hardware_serial" .text fun v a => { a with hardwareSerial := v },
   .defaulted "daemon_hash" .text fun v a => { a with readings := { a.readings with daemonHash := v } },
   .defaulted "config_hash" .text fun v a => { a with readings := { a.readings with configHash := v } },
   .defaulted "raw_enrollment" (.optional .any) fun v a => { a with raw := v }]

/-- The attributes of a node. -/
def attributesFormat : Format Attributes := .record attributeSlots .blank

/-- The fields of an observation, none of which need be given. -/
def observationSlots : List (Slot Observation) :=
  [.defaulted "hostname" .text fun v o => { o with hostname := v },
   .defaulted "localname" .text fun v o => { o with localname := v },
   .defaulted "ip_address" .text fun v o => { o with ipAddress := v },
   .defaulted "username" .text fun v o => { o with username := v },
   .defaulted "agent_user" .text fun v o => { o with agentUser := v },
   .defaulted "agent_version" .text fun v o => { o with agentVersion := v },
   .defaulted "config_hash" .text fun v o => { o with configHash := v },
   .defaulted "daemon_hash" .text fun v o => { o with daemonHash := v }]

/-- An observation. -/
def observationFormat : Format Observation := .record observationSlots .none

/-- An account to be made. Its grants are not for the request to say. -/
def accountFormat : Format Access.Account :=
  .record [
    .defaulted "username" .text fun v a => { a with username := v },
    .defaulted "email" .text fun v a => { a with email := v },
    .defaulted "fullname" .text fun v a => { a with fullname := v },
    .defaulted "admin" .flag fun v a => { a with admin := v }]
    .blank

/-- Counts of nodes, all of which must be given. -/
def statsFormat : Format Stats :=
  .record [
    .required "total" longWord fun v s => { s with total := v },
    .required "active" longWord fun v s => { s with active := v },
    .required "inactive" longWord fun v s => { s with inactive := v }]
    ⟨0, 0, 0⟩

/-- A target as it is held, with its value as it is. -/
def targetFormat : Format Target :=
  .record [
    .required "kind" targetKindFormat fun v t => { t with kind := v },
    .required "value" .text fun v t => { t with value := v }]
    ⟨.environment, ""⟩

/-- Results by the names of their queries. -/
def statusesFormat : Format (Dictionary Int) := .dictionary word

end FleetControl.Wire
