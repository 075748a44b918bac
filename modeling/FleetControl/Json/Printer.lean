import FleetControl.Json.Value
import FleetControl.Text.Hexadecimal

/-!
# Writing JSON text

A value is written without space between its parts. A decimal is written as its digits and its power of ten, always with the
latter, so that it is never taken for a whole number.
-/

namespace FleetControl.Json

/-- A character as it stands inside a quoted text. -/
def quotedChar (c : Char) : String :=
  if c = '"' then "\\\""
  else if c = '\\' then "\\\\"
  else if c.toNat < 0x20 then "\\u" ++ Hexadecimal.padded 4 c.toNat
  else c.toString

/-- A quoted text. -/
def quoted (s : String) : String := "\"" ++ String.join (s.toList.map quotedChar) ++ "\""

/-- A decimal, its digits before its power of ten. -/
def renderDecimal (d : Decimal) : String :=
  (if d.negative then "-" else "") ++ toString d.digits ++ "e" ++ toString d.exponent

mutual

/-- The text of a value. -/
def render : Json → String
  | .null => "null"
  | .bool true => "true"
  | .bool false => "false"
  | .integer n => toString n
  | .decimal d => renderDecimal d
  | .text s => quoted s
  | .list js => "[" ++ ",".intercalate (renderItems js) ++ "]"
  | .object fs => "\x7b" ++ ",".intercalate (renderFields fs) ++ "\x7d"

/-- The texts of the items of a list. -/
def renderItems : List Json → List String
  | [] => []
  | j :: js => render j :: renderItems js

/-- The texts of the fields of an object. -/
def renderFields : List (String × Json) → List String
  | [] => []
  | (name, j) :: fs => (quoted name ++ ":" ++ render j) :: renderFields fs

end

end FleetControl.Json
