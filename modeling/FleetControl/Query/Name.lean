import FleetControl.Text.Hexadecimal

/-!
# Names of new queries

A query or carve that is launched gets a name of its own: a word for what it is, and 32 hexadecimal digits drawn at random.
-/

namespace FleetControl.QueryName

/-- What is drawn for a name. Its last 128 bits are used. -/
abbrev Token : Type := Nat

/-- The name of a query. -/
def query (token : Token) : String := "query_" ++ Hexadecimal.padded 32 token

/-- The name of a carve. -/
def carve (token : Token) : String := "carve_" ++ Hexadecimal.padded 32 token

end FleetControl.QueryName
