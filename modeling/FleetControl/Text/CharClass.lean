/-!
# Classes of characters, blanks and trimming

A class of characters is a list of ranges of code points. The class used everywhere is that of the blank characters, those
with the Unicode property White_Space: identities, names and values are trimmed of them, and a text that holds nothing else
counts as not given.
-/

namespace FleetControl.Text

/-- A class of characters: the first and the last code point of each of its ranges. -/
abbrev CharClass : Type := List (Nat × Nat)

/-- The class holds this character. -/
def CharClass.holds (k : CharClass) (c : Char) : Bool := k.any fun r => r.1 ≤ c.toNat && c.toNat ≤ r.2

/-- The characters with the property White_Space. -/
def blank : CharClass :=
  [(0x9, 0xD), (0x20, 0x20), (0x85, 0x85), (0xA0, 0xA0), (0x1680, 0x1680), (0x2000, 0x200A), (0x2028, 0x2029),
   (0x202F, 0x202F), (0x205F, 0x205F), (0x3000, 0x3000)]

/-- The character is blank. -/
def isBlank (c : Char) : Bool := blank.holds c

/-- The characters without the blank ones at either end. -/
def trimChars (cs : List Char) : List Char :=
  ((cs.dropWhile isBlank).reverse.dropWhile isBlank).reverse

/-- The text without the blank characters at either end. -/
def trim (s : String) : String := String.ofList (trimChars s.toList)

/-- The text holds no character but blank ones. -/
def isBlankText (s : String) : Bool := (trim s).isEmpty

end FleetControl.Text
