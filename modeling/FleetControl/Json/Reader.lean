import FleetControl.Json.Value
import FleetControl.Text.Hexadecimal
import FleetControl.Text.Utf8

/-!
# Reading JSON text

A value is read from the front of a run of bytes, and the bytes after it are left. There are two ways to read: the strict one
(`Care.full`) yields the value, and so asks that its texts be well-formed UTF-8 with paired surrogates, that its numbers be
finite, and that lists and objects be nested no deeper than allowed; the other (`Care.grammar`) is for values nobody looks at
and asks for the grammar alone. What is not JSON is `Fault.malformed`; `Fault.mismatch` is JSON that does not fit what its
reader expects.
-/

namespace FleetControl.Json

/-- Why a text was refused: it is not JSON, or it is JSON of another form than expected. -/
inductive Fault where
  | malformed
  | mismatch
  deriving DecidableEq, Repr

/-- How closely a value is read. -/
inductive Care where
  | full
  | grammar
  deriving DecidableEq, Repr

/-- The byte may stand between the parts of a value. -/
def isSpace (b : UInt8) : Bool := b == 0x20 || b == 0x09 || b == 0x0A || b == 0x0D

/-- The bytes after the space at their front. -/
def skipSpace (bs : Bytes) : Bytes := bs.dropWhile isSpace

/-- Reads the rest of a word whose first letter has been seen. -/
def word (letters : String) {α : Type} (value : α) (bs : Bytes) : Except Fault (α × Bytes) :=
  let expected := Utf8.encode letters
  if expected.isPrefixOf bs then .ok (value, bs.drop expected.length) else .error .malformed

/-! ## Numbers -/

/-- The byte is a decimal digit. -/
def isDigit (b : UInt8) : Bool := 0x30 ≤ b && b ≤ 0x39

/-- The number that decimal digits stand for, on top of those before them. -/
def digitsOnto (n : Nat) (digits : Bytes) : Nat := digits.foldl (fun m d => m * 10 + (d.toNat - 0x30)) n

/-- Reads the digits before the point. A zero stands alone. -/
def wholePart : Bytes → Except Fault (Bytes × Bytes)
  | [] => .error .malformed
  | b :: bs =>
    if b = 0x30 then (if (bs.take 1).any isDigit then .error .malformed else .ok ([b], bs))
    else if isDigit b then .ok (b :: bs.takeWhile isDigit, bs.dropWhile isDigit)
    else .error .malformed

/-- Reads one digit or more. -/
def someDigits (bs : Bytes) : Except Fault (Bytes × Bytes) :=
  if (bs.take 1).any isDigit then .ok (bs.takeWhile isDigit, bs.dropWhile isDigit) else .error .malformed

/-- Reads a point and the digits after it, if there is a point. -/
def fractionPart : Bytes → Except Fault (Option Bytes × Bytes)
  | 0x2E :: bs => do
    let (digits, rest) ← someDigits bs
    return (some digits, rest)
  | bs => .ok (none, bs)

/-- Reads the power of ten, if there is one. -/
def exponentPart : Bytes → Except Fault (Option Int × Bytes)
  | b :: bs =>
    if b = 0x65 ∨ b = 0x45 then
      match bs with
      | 0x2D :: more => do
        let (digits, rest) ← someDigits more
        return (some (-(digitsOnto 0 digits : Int)), rest)
      | 0x2B :: more => do
        let (digits, rest) ← someDigits more
        return (some (digitsOnto 0 digits : Int), rest)
      | _ => do
        let (digits, rest) ← someDigits bs
        return (some (digitsOnto 0 digits : Int), rest)
    else .ok (none, b :: bs)
  | [] => .ok (none, [])

/-- The number a sign, digits, a fraction and a power of ten stand for: whole where it can be, else kept as written, without
rounding. -/
def ofNumber (negative : Bool) (whole : Bytes) (fraction : Option Bytes) (exponent : Option Int) : Json :=
  let n := digitsOnto 0 whole
  match fraction, exponent with
  | none, none =>
    if negative = false ∧ n ≤ Width.unsigned64 then .integer n
    else if negative = true ∧ 0 < n ∧ Width.least64 ≤ -n then .integer (-n)
    else .decimal ⟨negative, n, 0⟩
  | _, _ =>
    let places := fraction.getD []
    .decimal ⟨negative, digitsOnto n places, exponent.getD 0 - places.length⟩

/-- Reads a number after its sign. -/
def number (care : Care) (negative : Bool) (bs : Bytes) : Except Fault (Json × Bytes) := do
  let (whole, bs) ← wholePart bs
  let (fraction, bs) ← fractionPart bs
  let (exponent, bs) ← exponentPart bs
  let n := ofNumber negative whole fraction exponent
  match care, n with
  | .full, .decimal d => if d.isFinite then .ok (n, bs) else .error .malformed
  | _, _ => .ok (n, bs)

/-! ## Texts -/

/-- The byte that a backslash and this byte stand for. -/
def escaped? (b : UInt8) : Option UInt8 :=
  [(0x22, 0x22), (0x5C, 0x5C), (0x2F, 0x2F), (0x62, 0x08), (0x66, 0x0C), (0x6E, 0x0A), (0x72, 0x0D), (0x74, 0x09)].lookup b

/-- The code unit is the first of a surrogate pair. -/
def isLead (n : Nat) : Bool := 0xD800 ≤ n && n ≤ 0xDBFF

/-- The code unit is the second of a surrogate pair. -/
def isTrail (n : Nat) : Bool := 0xDC00 ≤ n && n ≤ 0xDFFF

/-- Puts the bytes of a character on top of the bytes read so far, which stand in reverse order. -/
def pushCode (n : Nat) (done : Bytes) : Bytes := (String.utf8EncodeChar (Char.ofNat n)).reverse ++ done

/-- Reads a text after its opening quote, on top of the bytes read so far. -/
def stringOnto (care : Care) (done : Bytes) : Bytes → Except Fault (Bytes × Bytes)
  | [] => .error .malformed
  | b :: bs =>
    if b = 0x22 then .ok (done.reverse, bs)
    else if b = 0x5C then
      match bs with
      | 0x75 :: a :: b :: c :: d :: rest =>
        match Hexadecimal.four? a b c d with
        | none => .error .malformed
        | some n =>
          if care = .grammar then stringOnto care done rest
          else if isLead n then
            match rest with
            | 0x5C :: 0x75 :: a :: b :: c :: d :: rest =>
              match Hexadecimal.four? a b c d with
              | none => .error .malformed
              | some m =>
                if isTrail m then
                  stringOnto care (pushCode (0x10000 + (n - 0xD800) * 0x400 + (m - 0xDC00)) done) rest
                else .error .malformed
            | _ => .error .malformed
          else if isTrail n then .error .malformed
          else stringOnto care (pushCode n done) rest
      | e :: rest =>
        match escaped? e with
        | none => .error .malformed
        | some x => stringOnto care (x :: done) rest
      | [] => .error .malformed
    else if b < 0x20 then .error .malformed
    else stringOnto care (b :: done) bs

/-- Reads a text after its opening quote. -/
def string (care : Care) (bs : Bytes) : Except Fault (String × Bytes) := do
  let (raw, rest) ← stringOnto care [] bs
  match care with
  | .grammar => .ok ("", rest)
  | .full =>
    match Utf8.decode? raw with
    | some s => .ok (s, rest)
    | none => .error .malformed

/-! ## Lists and objects -/

/-- Reads the items of a list, at least one, up to its closing bracket. Every item takes a byte, so as many steps as there
are bytes are enough. -/
def itemsOnto {α : Type} (read : Bytes → Except Fault (α × Bytes)) (done : List α) :
    (steps : Nat) → Bytes → Except Fault (List α × Bytes)
  | 0, _ => .error .malformed
  | steps + 1, bs => do
    let (item, bs) ← read bs
    match skipSpace bs with
    | 0x2C :: bs => itemsOnto read (item :: done) steps bs
    | 0x5D :: bs => .ok ((item :: done).reverse, bs)
    | _ => .error .malformed

/-- Reads the items of a list after its opening bracket. -/
def items {α : Type} (read : Bytes → Except Fault (α × Bytes)) (bs : Bytes) : Except Fault (List α × Bytes) :=
  match skipSpace bs with
  | 0x5D :: rest => .ok ([], rest)
  | bs => itemsOnto read [] (bs.length + 1) bs

/-- Reads a colon. -/
def colon (bs : Bytes) : Except Fault Bytes :=
  match skipSpace bs with
  | 0x3A :: rest => .ok rest
  | _ => .error .malformed

/-- How one field of an object is read on top of those before it: its name may be refused as soon as it is read, and else
says how its value is read. -/
abbrev FieldReader (σ : Type) : Type := String → σ → Except Fault (Bytes → Except Fault (σ × Bytes))

/-- Reads the fields of an object, at least one, up to its closing brace. -/
def fieldsOnto {σ : Type} (care : Care) (read : FieldReader σ) (state : σ) : (steps : Nat) → Bytes → Except Fault (σ × Bytes)
  | 0, _ => .error .malformed
  | steps + 1, bs =>
    match skipSpace bs with
    | 0x22 :: bs => do
      let (name, bs) ← string care bs
      let readValue ← read name state
      let bs ← colon bs
      let (state, bs) ← readValue bs
      match skipSpace bs with
      | 0x2C :: bs => fieldsOnto care read state steps bs
      | 0x7D :: bs => .ok (state, bs)
      | _ => .error .malformed
    | _ => .error .malformed

/-- Reads the fields of an object after its opening brace. -/
def fields {σ : Type} (care : Care) (read : FieldReader σ) (start : σ) (bs : Bytes) : Except Fault (σ × Bytes) :=
  match skipSpace bs with
  | 0x7D :: rest => .ok (start, rest)
  | bs => fieldsOnto care read start (bs.length + 1) bs

/-! ## Values -/

/-- Reads a value whose lists and objects are nested at most so deep. Of two fields of one name the later one prevails. -/
def value (care : Care) : (depth : Nat) → Bytes → Except Fault (Json × Bytes)
  | depth, bs =>
    match skipSpace bs with
    | [] => .error .malformed
    | b :: bs =>
      if b = 0x6E then word "ull" .null bs
      else if b = 0x74 then word "rue" (.bool true) bs
      else if b = 0x66 then word "alse" (.bool false) bs
      else if b = 0x22 then (string care bs).map fun r => (.text r.1, r.2)
      else if b = 0x2D then number care true bs
      else if isDigit b then number care false (b :: bs)
      else match depth with
        | 0 => .error .malformed
        | depth + 1 =>
          if b = 0x5B then (items (value care depth) bs).map fun r => (.list r.1, r.2)
          else if b = 0x7B then
            (fields care
              (fun name done => .ok fun bs => (value care depth bs).map fun r => (putEntry name r.1 done, r.2)) [] bs).map
              fun r => (.object r.1, r.2)
          else .error .malformed

/-- Passes over a value that nobody looks at. No value is nested deeper than it has bytes. -/
def skip (bs : Bytes) : Except Fault (Unit × Bytes) := (value .grammar bs.length bs).map fun r => ((), r.2)

/-- How deep the lists and objects of a text may be nested. -/
def depthLimit : Nat := 127

/-- The value that a text as a whole stands for, nested at most so deep. -/
def parse? (depth : Nat) (s : String) : Option Json :=
  match value .full depth (Utf8.encode s) with
  | .ok (j, rest) => if skipSpace rest = [] then some j else none
  | .error _ => none

end FleetControl.Json
