/-!
# The text of a carve

A carve is a query that asks a node for the file at a path. The path stands in the text of the query as a literal, where a
single quote is written twice.
-/

namespace FleetControl.Carve

/-- The characters of a literal between its quotes: every single quote is written twice. -/
def doubled : List Char → List Char
  | [] => []
  | c :: cs => if c = '\'' then '\'' :: '\'' :: doubled cs else c :: doubled cs

/-- A text as a literal. -/
def literal (s : String) : String := "'" ++ String.ofList (doubled s.toList) ++ "'"

/-- The text that asks for the file at a path. -/
def text (path : String) : String := "SELECT * FROM carves WHERE carve=1 AND path = " ++ literal path ++ ";"

end FleetControl.Carve
