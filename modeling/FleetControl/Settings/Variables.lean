import FleetControl.Settings.Basic
import FleetControl.Text.Case
import FleetControl.Text.CharClass

/-!
# Settings from environment variables

Variables are taken by name in any case, one after the other, and no two of them may be the same. Those that are numbers or
truth values are read as they are met, so the first that cannot be read is the fault. Some settings count as not given when
they are blank. The environments of the fleet are a list between commas: items are trimmed, blank ones are passed over, and
each is taken once. The service listens at the first of the endpoints that its address, or its host and port, stand for.
-/

namespace FleetControl.Settings

/-- The texts and values of the variables that are known, before anything is made of them. -/
structure Variables where
  listenAddr : Option String
  listenHost : Option String
  listenPort : Option Int
  fleetDatabaseUrl : Option String
  databaseUrl : Option String
  maxPoolSize : Option Int
  sslRootCert : Option String
  sslCert : Option String
  sslKey : Option String
  apiKey : Option String
  bootstrapAdmin : Option String
  environments : Option String
  inactiveHours : Option Int
  requestTimeout : Option Int
  applySchema : Option Bool
  deriving DecidableEq, Repr

/-- No variable given. -/
def Variables.unset : Variables :=
  ⟨none, none, none, none, none, none, none, none, none, none, none, none, none, none, none⟩

/-- Why no settings can be made of the variables. -/
inductive Fault where
  | repeated (name : String)
  | badNumber (why : Numeral.Fault) (value name : String)
  | badFlag (value name : String)
  | badListenAddr (why : Endpoint.Fault)
  | noListenAddr
  | badListenHost (why : Endpoint.Fault)
  | noListenHost
  | noDatabase
  deriving DecidableEq, Repr

/-- The wording of a fault, from the general to the particular. -/
def Fault.message : Fault → String
  | .repeated name => "failed to parse FLEETD_* environment variables: duplicate field `" ++ name ++ "`"
  | .badNumber why value name =>
    "failed to parse FLEETD_* environment variables: " ++ why.message ++ " while parsing value '" ++ value ++
      "' provided by " ++ name
  | .badFlag value name =>
    "failed to parse FLEETD_* environment variables: provided string was not `true` or `false` while parsing value '" ++
      value ++ "' provided by " ++ name
  | .badListenAddr why => "invalid FLEETD_LISTEN_ADDR value: " ++ why.message
  | .noListenAddr => "FLEETD_LISTEN_ADDR resolved to no addresses"
  | .badListenHost why => "invalid fleetd listen host/port combination: " ++ why.message
  | .noListenHost => "listen address resolved to no targets"
  | .noDatabase => "FLEETD_DATABASE_URL or DATABASE_URL must be set"

/-- The number between two bounds that the value of a variable stands for. -/
def readNumber (low high : Int) (name value : String) : Except Fault Int :=
  match Numeral.read low high value with
  | .ok n => .ok n
  | .error why => .error (.badNumber why value name)

/-- The truth value that the value of a variable stands for. -/
def readFlag (name value : String) : Except Fault Bool :=
  if value = "true" then .ok true else if value = "false" then .ok false else .error (.badFlag value name)

/-- Takes one variable, known by its name in lower case. Other variables are passed over. -/
def Variables.take (vs : Variables) (lowered name value : String) : Except Fault Variables :=
  match lowered with
  | "fleetd_listen_addr" => .ok { vs with listenAddr := some value }
  | "fleetd_listen_host" => .ok { vs with listenHost := some value }
  | "fleetd_listen_port" => (readNumber 0 Width.unsigned16 name value).map fun n => { vs with listenPort := some n }
  | "fleetd_database_url" => .ok { vs with fleetDatabaseUrl := some value }
  | "database_url" => .ok { vs with databaseUrl := some value }
  | "fleetd_max_pool_size" => (readNumber 0 Width.unsigned32 name value).map fun n => { vs with maxPoolSize := some n }
  | "pgsslrootcert" => .ok { vs with sslRootCert := some value }
  | "pgsslcert" => .ok { vs with sslCert := some value }
  | "pgsslkey" => .ok { vs with sslKey := some value }
  | "fleetd_api_key" => .ok { vs with apiKey := some value }
  | "fleetd_bootstrap_admin" => .ok { vs with bootstrapAdmin := some value }
  | "fleetd_environments" => .ok { vs with environments := some value }
  | "fleetd_inactive_hours" =>
    (readNumber Width.least64 Width.greatest64 name value).map fun n => { vs with inactiveHours := some n }
  | "fleetd_request_timeout_secs" =>
    (readNumber 0 Width.unsigned64 name value).map fun n => { vs with requestTimeout := some n }
  | "fleetd_apply_schema" => (readFlag name value).map fun b => { vs with applySchema := some b }
  | _ => .ok vs

/-- The names of the variables that are known, in lower case. -/
def Variables.known : List String :=
  ["fleetd_listen_addr", "fleetd_listen_host", "fleetd_listen_port", "fleetd_database_url", "database_url",
   "fleetd_max_pool_size", "pgsslrootcert", "pgsslcert", "pgsslkey", "fleetd_api_key", "fleetd_bootstrap_admin",
   "fleetd_environments", "fleetd_inactive_hours", "fleetd_request_timeout_secs", "fleetd_apply_schema"]

/-- Takes variables one after the other; of those known, none may be taken twice. -/
def Variables.takeAll (vs : Variables) (taken : List String) : List (String × String) → Except Fault Variables
  | [] => .ok vs
  | (name, value) :: rest => do
    let lowered := Text.lower name
    if known.contains lowered && taken.contains lowered then .error (.repeated lowered)
    else (← vs.take lowered name value).takeAll (lowered :: taken) rest

/-- The environments in a list between commas. -/
def parseEnvironments (csv : String) : List String :=
  (Text.pieces ',' csv.toList).foldl
    (fun entries piece =>
      let entry := Text.trim (String.ofList piece)
      if entry ≠ "" ∧ entry ∉ entries then entries ++ [entry] else entries)
    []

/-- The text of a setting that counts as not given when it is blank. -/
def givenText (value : Option String) : Option String := value.filter (!Text.isBlankText ·)

/-- The host to listen on unless it is said otherwise. -/
def defaultHost : String := "0.0.0.0"

/-- The port to listen on unless it is said otherwise. -/
def defaultPort : Int := 8490

/-- The first of the endpoints that a text stands for, with the faults for a text that stands for none and for one whose host has no
address. -/
def firstEndpoint (resolve : Resolver) (bad : Endpoint.Fault → Fault) (empty : Fault) (s : String) : Except Fault Endpoint :=
  match Endpoint.parse resolve s with
  | .error why => .error (bad why)
  | .ok [] => .error empty
  | .ok (e :: _) => .ok e

/-- Where to listen: at the address given, or else at a host and port. -/
def Variables.listen (resolve : Resolver) (vs : Variables) : Except Fault Endpoint :=
  match vs.listenAddr with
  | some address => firstEndpoint resolve .badListenAddr .noListenAddr address
  | none =>
    firstEndpoint resolve .badListenHost .noListenHost
      (vs.listenHost.getD defaultHost ++ ":" ++ toString (vs.listenPort.getD defaultPort))

/-- The settings that the variables make. -/
def Variables.settings (resolve : Resolver) (vs : Variables) : Except Fault Settings := do
  let listen ← vs.listen resolve
  match vs.fleetDatabaseUrl.or vs.databaseUrl with
  | none => .error .noDatabase
  | some databaseUrl =>
    .ok {
      listen
      databaseUrl
      maxPoolSize := max 1 (vs.maxPoolSize.getD defaultPoolSize).toNat
      sslRootCert := givenText vs.sslRootCert
      sslCert := givenText vs.sslCert
      sslKey := givenText vs.sslKey
      apiKey := givenText vs.apiKey
      bootstrapAdmin := givenText vs.bootstrapAdmin
      environments := (vs.environments.map parseEnvironments).getD []
      inactiveHours := max 1 (vs.inactiveHours.getD defaultInactiveHours)
      requestTimeout := max 1 (vs.requestTimeout.getD defaultRequestTimeout).toNat
      applySchema := vs.applySchema.getD true }

/-- The settings made of a list of variables, on a machine that looks hosts up in some way. -/
def ofVariables (resolve : Resolver) (given : List (String × String)) : Except Fault Settings := do
  (← Variables.unset.takeAll [] given).settings resolve

end FleetControl.Settings
