/-!
# Hexadecimal digits

Reading the value of a digit from its byte, in either case, and writing a number with lower-case digits.
-/

namespace FleetControl.Hexadecimal

/-- The value of a hexadecimal digit. -/
def digit? (b : UInt8) : Option Nat :=
  let n := b.toNat
  if 0x30 ≤ n ∧ n ≤ 0x39 then some (n - 0x30)
  else if 0x41 ≤ n ∧ n ≤ 0x46 then some (n - 0x37)
  else if 0x61 ≤ n ∧ n ≤ 0x66 then some (n - 0x57)
  else none

/-- The value of four hexadecimal digits. -/
def four? (a b c d : UInt8) : Option Nat := do
  let a ← digit? a
  let b ← digit? b
  let c ← digit? c
  let d ← digit? d
  return ((a * 16 + b) * 16 + c) * 16 + d

/-- The lower-case digit of a value below sixteen. -/
def digitChar (n : Nat) : Char := Char.ofNat (if n < 10 then 0x30 + n else 0x57 + n)

/-- The last digits of a number, as many as asked for, on top of those after them. -/
def digitsOnto (after : List Char) : (count n : Nat) → List Char
  | 0, _ => after
  | count + 1, n => digitsOnto (digitChar (n % 16) :: after) count (n / 16)

/-- A number written with a fixed count of lower-case digits. -/
def padded (count n : Nat) : String := String.ofList (digitsOnto [] count n)

end FleetControl.Hexadecimal
