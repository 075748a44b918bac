import FleetControl.Text.Pieces
import FleetControl.Text.Utf8

/-!
# Media types

A media type is a type and a subtype around a slash, with parameters after semicolons. It announces JSON when it is the
subtype `json` of `application`, or another subtype of it with the suffix `+json`, in letters of either case. A media type
that is not well-formed, down to its parameters, announces nothing.
-/

namespace FleetControl.Http.MediaType

/-- The characters of a token other than letters and digits. -/
def tokenMarks : List Char := ['!', '#', '$', '%', '&', '\'', '*', '+', '-', '.', '^', '_', '\x60', '|', '~']

/-- The character may stand in a token. -/
def isToken (c : Char) : Bool := c.isAlphanum || tokenMarks.contains c

/-- Where a reader stands among the parameters. -/
inductive Place where
  | start
  | name
  | valueStart
  | value
  | quotedStart
  | quoted
  | afterQuoted
  deriving DecidableEq, Repr

/-- Where a character leads, if it may stand there. -/
def Place.next (place : Place) (c : Char) : Option Place :=
  match place with
  | .start => if c = ' ' then some .start else if isToken c then some .name else none
  | .name => if c = '=' then some .valueStart else if isToken c then some .name else none
  | .valueStart => if c = '"' then some .quotedStart else if isToken c then some .value else none
  | .value => if c = ';' then some .start else if isToken c then some .value else none
  | .quotedStart => if 31 < c.toNat ∧ c.toNat ≠ 127 then some .quoted else none
  | .quoted =>
    if c = '"' then some .afterQuoted else if 31 < c.toNat ∧ c.toNat ≠ 127 then some .quoted else none
  | .afterQuoted => if c = ';' then some .start else if c = ' ' then some .afterQuoted else none

/-- The parameters may end here. -/
def Place.mayEnd : Place → Bool
  | .start | .valueStart | .value | .afterQuoted => true
  | .name | .quotedStart | .quoted => false

/-- The text is parameters throughout. -/
def areParameters (cs : List Char) : Bool := (cs.foldlM Place.next .start).any (·.mayEnd)

/-- The name of a subtype before its suffix, and the suffix. The last plus sign begins it, unless it stands first. -/
def splitSuffix (subtype : List Char) : List Char × Option (List Char) :=
  let reversed := subtype.reverse
  let suffix := reversed.takeWhile (· ≠ '+')
  let before := (reversed.drop (suffix.length + 1)).reverse
  if before.isEmpty then (subtype, none) else (before, some suffix.reverse)

/-- A text in lower-case letters, as far as they are those of ASCII. -/
def lowered (cs : List Char) : String := String.ofList (cs.map Char.toLower)

/-- The media type announces JSON. -/
def isJson (s : String) : Bool :=
  let (type, rest) := (s.toList.takeWhile isToken, s.toList.dropWhile isToken)
  match rest with
  | '/' :: rest =>
    let (subtype, rest) := (rest.takeWhile isToken, rest.dropWhile isToken)
    let (name, suffix) := splitSuffix subtype
    let announces := lowered type == "application" && (lowered name == "json" || suffix.any (lowered · == "json"))
    match rest with
    | [] => announces
    | ';' :: parameters => announces && areParameters parameters
    | _ => false
  | _ => false

end FleetControl.Http.MediaType
