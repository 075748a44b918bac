/-!
# Whole numbers from text

A whole number is read from decimal digits after an optional plus sign, or, where negative numbers are allowed, a minus sign.
The digits are read from the left, so of a foreign character and a number that leaves its bounds the one met first is the
fault.
-/

namespace FleetControl.Numeral

/-- Why a text is no whole number within the bounds. -/
inductive Fault where
  | empty
  | foreignCharacter
  | tooLarge
  | tooSmall
  deriving DecidableEq, Repr

/-- The wording of a fault. -/
def Fault.message : Fault → String
  | .empty => "cannot parse integer from empty string"
  | .foreignCharacter => "invalid digit found in string"
  | .tooLarge => "number too large to fit in target type"
  | .tooSmall => "number too small to fit in target type"

/-- The value of a decimal digit. -/
def digit? (c : Char) : Option Nat := if c.isDigit then some (c.toNat - '0'.toNat) else none

/-- Reads the digits after a plus sign or none, on top of the number read so far. -/
def readUp (high : Int) : Int → List Char → Except Fault Int
  | n, [] => .ok n
  | n, c :: cs =>
    match digit? c with
    | none => .error .foreignCharacter
    | some d => if n * 10 + d ≤ high then readUp high (n * 10 + d) cs else .error .tooLarge

/-- Reads the digits after a minus sign, on top of the number read so far. -/
def readDown (low : Int) : Int → List Char → Except Fault Int
  | n, [] => .ok n
  | n, c :: cs =>
    match digit? c with
    | none => .error .foreignCharacter
    | some d => if low ≤ n * 10 - d then readDown low (n * 10 - d) cs else .error .tooSmall

/-- The whole number between two bounds that a text stands for. A minus sign counts as one only where the lower bound is
negative. -/
def read (low high : Int) (s : String) : Except Fault Int :=
  match s.toList with
  | [] => .error .empty
  | ['+'] => .error .foreignCharacter
  | ['-'] => .error .foreignCharacter
  | '+' :: cs => readUp high 0 cs
  | c :: cs => if c = '-' ∧ low < 0 then readDown low 0 cs else readUp high 0 (c :: cs)

end FleetControl.Numeral
