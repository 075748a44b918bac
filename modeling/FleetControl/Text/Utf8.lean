/-!
# UTF-8

Reading a text from its bytes and writing it. The bytes are read one at a time: either no character is begun, or one is and
some continuation bytes are still owed, of which the next must lie between two bounds. A byte that does not continue the
character begun ends it as ill-formed and is then read on its own. What is read is a list with one entry for each character
and one gap for each ill-formed piece (`Utf8.scan`), from which follow both the strict reading, which refuses any gap, and
the lenient one, which puts a replacement character for each.
-/

namespace FleetControl

/-- The bytes of a message or of a text. -/
abbrev Bytes : Type := List UInt8

namespace Utf8

/-- A character that has begun: how many bytes it still owes, the bounds of the next one, and its code point so far. -/
structure Begun where
  owed : Nat
  low : Nat
  high : Nat
  value : Nat
  deriving DecidableEq, Repr

/-- What the bytes read so far amount to: the entries that are complete, and the character begun after them, if any. -/
structure Step where
  entries : List (Option Char)
  begun : Option Begun
  deriving DecidableEq, Repr

/-- Reading a byte where no character is begun. -/
def Step.fresh (b : Nat) : Step :=
  if b < 0x80 then ⟨[some (Char.ofNat b)], none⟩
  else if b < 0xC2 then ⟨[none], none⟩
  else if b < 0xE0 then ⟨[], some ⟨1, 0x80, 0xBF, b - 0xC0⟩⟩
  else if b = 0xE0 then ⟨[], some ⟨2, 0xA0, 0xBF, 0⟩⟩
  else if b = 0xED then ⟨[], some ⟨2, 0x80, 0x9F, 0xD⟩⟩
  else if b < 0xF0 then ⟨[], some ⟨2, 0x80, 0xBF, b - 0xE0⟩⟩
  else if b = 0xF0 then ⟨[], some ⟨3, 0x90, 0xBF, 0⟩⟩
  else if b < 0xF4 then ⟨[], some ⟨3, 0x80, 0xBF, b - 0xF0⟩⟩
  else if b = 0xF4 then ⟨[], some ⟨3, 0x80, 0x8F, 4⟩⟩
  else ⟨[none], none⟩

/-- Reading a byte after what has begun: it continues the character, or leaves it ill-formed and is read afresh. -/
def Step.next : Option Begun → Nat → Step
  | none, b => Step.fresh b
  | some g, b =>
    if g.low ≤ b ∧ b ≤ g.high then
      let value := g.value * 64 + (b - 0x80)
      if g.owed ≤ 1 then ⟨[some (Char.ofNat value)], none⟩ else ⟨[], some ⟨g.owed - 1, 0x80, 0xBF, value⟩⟩
    else
      let again := Step.fresh b
      ⟨none :: again.entries, again.begun⟩

/-- The entries of a run of bytes after what has begun, in reverse order on top of those read before. -/
def scanOnto (done : List (Option Char)) : Option Begun → Bytes → List (Option Char)
  | none, [] => done
  | some _, [] => none :: done
  | begun, b :: bs =>
    let step := Step.next begun b.toNat
    scanOnto (step.entries.reverse ++ done) step.begun bs

/-- The characters of a run of bytes, with a gap for each ill-formed piece. -/
def scan (bs : Bytes) : List (Option Char) := (scanOnto [] none bs).reverse

/-- The text of a run of bytes that are well-formed throughout. -/
def decode? (bs : Bytes) : Option String := ((scan bs).mapM id).map String.ofList

/-- The text of a run of bytes, with a replacement character for each ill-formed piece. -/
def decodeLenient (bs : Bytes) : String := String.ofList ((scan bs).map (·.getD '\uFFFD'))

/-- The bytes of a text. -/
def encode (s : String) : Bytes := s.toList.flatMap String.utf8EncodeChar

end Utf8

end FleetControl
