import FleetControl.Endpoint

/-!
# Settings

What the service is told when it starts: where it listens and where its database is, the key that administrative requests
must bring, the first administrator, the environments of the fleet, and after how many hours a silent node is inactive.
-/

namespace FleetControl

/-- The settings of the service. -/
structure Settings where
  listen : Endpoint
  databaseUrl : String
  maxPoolSize : Nat
  sslRootCert : Option String
  sslCert : Option String
  sslKey : Option String
  apiKey : Option String
  bootstrapAdmin : Option String
  environments : List String
  inactiveHours : Int
  requestTimeout : Nat
  applySchema : Bool
  deriving DecidableEq, Repr

namespace Settings

/-- After how many hours a silent node is inactive unless it is said otherwise. -/
def defaultInactiveHours : Int := 72

/-- How many seconds a request may take unless it is said otherwise. -/
def defaultRequestTimeout : Nat := 30

/-- How many connections there may be to the database unless it is said otherwise. -/
def defaultPoolSize : Nat := 10

/-- The settings of a service in memory, with no database behind it. -/
def embedded (environments : List String) : Settings where
  listen := ⟨.v4 [127, 0, 0, 1], 0⟩
  databaseUrl := ""
  maxPoolSize := 1
  sslRootCert := none
  sslCert := none
  sslKey := none
  apiKey := none
  bootstrapAdmin := none
  environments := environments
  inactiveHours := defaultInactiveHours
  requestTimeout := defaultRequestTimeout
  applySchema := false

/-- The environment is one of the fleet's. -/
def hasEnvironment (settings : Settings) (name : String) : Bool := settings.environments.contains name

end Settings

end FleetControl
