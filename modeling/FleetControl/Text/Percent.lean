import FleetControl.Text.Hexadecimal
import FleetControl.Text.Pieces
import FleetControl.Text.Utf8

/-!
# Percent-encoding and form fields

A byte may be written as a percent sign and two hexadecimal digits; a percent sign without them stands for itself. A query
string is a list of fields joined by ampersands, each a name and a value around the first equals sign, where a plus sign
stands for a space.
-/

namespace FleetControl.Percent

/-- The bytes that a percent-encoded run of bytes stands for. -/
def decode : Bytes → Bytes
  | 0x25 :: h :: l :: rest =>
    match Hexadecimal.digit? h, Hexadecimal.digit? l with
    | some a, some b => UInt8.ofNat (a * 16 + b) :: decode rest
    | _, _ => 0x25 :: decode (h :: l :: rest)
  | b :: rest => b :: decode rest
  | [] => []

/-- The text of one half of a form field. Ill-formed bytes become replacement characters. -/
def fieldText (bs : Bytes) : String :=
  Utf8.decodeLenient (decode (bs.map fun b => if b = 0x2B then 0x20 else b))

/-- The fields of a query string, in order. Empty pieces are no fields. -/
def fields (query : String) : List (String × String) :=
  ((Text.pieces 0x26 (Utf8.encode query)).filter (· ≠ [])).map fun piece =>
    let (name, value) := Text.splitFirst 0x3D piece
    (fieldText name, fieldText value)

end FleetControl.Percent
