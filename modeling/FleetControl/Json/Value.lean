import FleetControl.Dictionary
import FleetControl.Width

/-!
# JSON values

A JSON value as the service stores and answers it. Numbers come in two kinds that never equal each other: whole numbers, and
all others, which are kept as decimals without rounding. A number is whole when it is written without a fraction or exponent and
lies between the least signed and the greatest unsigned number of 64 bits; a negative zero is not. An object lists its fields in
ascending order of their names when it was read from a text.
-/

namespace FleetControl

/-- A number kept exactly as it was written: a sign, its digits read as one number, and the power of ten they are scaled by. The
service rounds such a number to double precision and keeps that, so numbers that differ here may be one there. -/
structure Decimal where
  negative : Bool
  digits : Nat
  exponent : Int
  deriving DecidableEq, Repr

/-- The decimal lies below the least number that rounds beyond every finite number of double precision. Where the places
before the point alone decide, the power of ten is not computed. This is the one place where rounding is accounted for. -/
def Decimal.isFinite (d : Decimal) : Bool :=
  let limit := Nat.pow 2 1024 - Nat.pow 2 970
  let places : Int := (Nat.toDigits 10 d.digits).length + d.exponent
  d.digits == 0 || places ≤ 308 ||
    (places ≤ 310 &&
      (if 0 ≤ d.exponent then d.digits * Nat.pow 10 d.exponent.toNat < limit
        else d.digits < limit * Nat.pow 10 (-d.exponent).toNat))

/-- A JSON value. -/
inductive Json where
  | null
  | bool (b : Bool)
  | integer (n : Int)
  | decimal (d : Decimal)
  | text (s : String)
  | list (items : List Json)
  | object (fields : List (String × Json))
  deriving Repr

namespace Json

instance : Inhabited Json := ⟨.null⟩

mutual

/-- Equality of values is decided part by part. -/
def decideEq : (a b : Json) → Decidable (a = b)
  | .null, b => match b with
    | .null => .isTrue rfl
    | .bool _ | .integer _ | .decimal _ | .text _ | .list _ | .object _ => .isFalse nofun
  | .bool x, b => match b with
    | .bool y => if h : x = y then .isTrue (h ▸ rfl) else .isFalse fun e => h (Json.bool.inj e)
    | .null | .integer _ | .decimal _ | .text _ | .list _ | .object _ => .isFalse nofun
  | .integer x, b => match b with
    | .integer y => if h : x = y then .isTrue (h ▸ rfl) else .isFalse fun e => h (Json.integer.inj e)
    | .null | .bool _ | .decimal _ | .text _ | .list _ | .object _ => .isFalse nofun
  | .decimal x, b => match b with
    | .decimal y => if h : x = y then .isTrue (h ▸ rfl) else .isFalse fun e => h (Json.decimal.inj e)
    | .null | .bool _ | .integer _ | .text _ | .list _ | .object _ => .isFalse nofun
  | .text x, b => match b with
    | .text y => if h : x = y then .isTrue (h ▸ rfl) else .isFalse fun e => h (Json.text.inj e)
    | .null | .bool _ | .integer _ | .decimal _ | .list _ | .object _ => .isFalse nofun
  | .list x, b => match b with
    | .list y => match decideEqItems x y with
      | .isTrue h => .isTrue (h ▸ rfl)
      | .isFalse h => .isFalse fun e => h (Json.list.inj e)
    | .null | .bool _ | .integer _ | .decimal _ | .text _ | .object _ => .isFalse nofun
  | .object x, b => match b with
    | .object y => match decideEqFields x y with
      | .isTrue h => .isTrue (h ▸ rfl)
      | .isFalse h => .isFalse fun e => h (Json.object.inj e)
    | .null | .bool _ | .integer _ | .decimal _ | .text _ | .list _ => .isFalse nofun

/-- Equality of the items of two lists. -/
def decideEqItems : (a b : List Json) → Decidable (a = b)
  | [], [] => .isTrue rfl
  | [], _ :: _ => .isFalse nofun
  | _ :: _, [] => .isFalse nofun
  | x :: xs, y :: ys => match decideEq x y, decideEqItems xs ys with
    | .isTrue h, .isTrue hs => .isTrue (h ▸ hs ▸ rfl)
    | .isFalse h, _ => .isFalse fun e => h (List.cons.inj e).1
    | _, .isFalse hs => .isFalse fun e => hs (List.cons.inj e).2

/-- Equality of the fields of two objects. -/
def decideEqFields : (a b : List (String × Json)) → Decidable (a = b)
  | [], [] => .isTrue rfl
  | [], _ :: _ => .isFalse nofun
  | _ :: _, [] => .isFalse nofun
  | (k, x) :: xs, (l, y) :: ys =>
    if hk : k = l then match decideEq x y, decideEqFields xs ys with
      | .isTrue h, .isTrue hs => .isTrue (hk ▸ h ▸ hs ▸ rfl)
      | .isFalse h, _ => .isFalse fun e => h (Prod.mk.inj (List.cons.inj e).1).2
      | _, .isFalse hs => .isFalse fun e => hs (List.cons.inj e).2
    else .isFalse fun e => hk (Prod.mk.inj (List.cons.inj e).1).1

end

instance : DecidableEq Json := decideEq

/-- The value is the null value. -/
def isNull : Json → Bool
  | .null => true
  | _ => false

/-- The value of a field of an object. -/
def field? (j : Json) (name : String) : Option Json :=
  match j with
  | .object fields => fields.lookup name
  | _ => none

/-- The text a text value holds. -/
def text? : Json → Option String
  | .text s => some s
  | _ => none

/-- The truth value a value holds. -/
def bool? : Json → Option Bool
  | .bool b => some b
  | _ => none

/-- The whole number a value holds. -/
def integer? : Json → Option Int
  | .integer n => some n
  | _ => none

/-- The items of a list value. -/
def items? : Json → Option (List Json)
  | .list items => some items
  | _ => none

/-- A text, or the null value where there is none. -/
def ofText? : Option String → Json
  | none => .null
  | some s => .text s

end Json

end FleetControl
