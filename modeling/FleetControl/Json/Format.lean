import FleetControl.Json.Reader

/-!
# Formats

A format says which JSON stands for a value of some type, once for both forms in which JSON arrives: as a text that is read
in one pass, where the first fault in the text decides what is wrong with it (`Format.read`), and as a value at hand
(`Format.accept`). A record may be given as an object, where fields of other names are passed over, or as a list of its
fields in order, of which the last ones may be left out where they have defaults.
-/

namespace FleetControl.Json

/-- What stands for the values of a type: how one is read from a text nested so deep, and which JSON value is one. -/
structure Format (α : Type) where
  read : (depth : Nat) → Bytes → Except Fault (α × Bytes)
  accept : Json → Option α

/-- The fault in place of a value of the expected kind: a list or an object of another kind is refused at its first byte, and
every other value only after it has been read whole. -/
def strayFault (bs : Bytes) : Fault :=
  match skipSpace bs with
  | 0x5B :: _ => .mismatch
  | 0x7B :: _ => .mismatch
  | bs => match value .full 0 bs with
    | .ok _ => .mismatch
    | .error fault => fault

namespace Format

variable {α β σ : Type}

/-- The format of the values that a function makes of those of another format. -/
def map (f : α → β) (format : Format α) : Format β where
  read depth bs := (format.read depth bs).map fun r => (f r.1, r.2)
  accept j := (format.accept j).map f

/-- The format of every JSON value. -/
def any : Format Json where
  read := value .full
  accept := some

/-- The format of values that a whole JSON value decides. -/
def whole (accept : Json → Option α) : Format α where
  read depth bs := do
    let (j, rest) ← value .full depth bs
    match accept j with
    | some a => .ok (a, rest)
    | none => .error .mismatch
  accept := accept

/-- The format of values that are neither lists nor objects. -/
def scalar (accept : Json → Option α) : Format α where
  read _ bs :=
    match value .full 0 bs with
    | .ok (j, rest) => match accept j with
      | some a => .ok (a, rest)
      | none => .error .mismatch
    | .error _ => .error (strayFault bs)
  accept := accept

/-- A text. -/
def text : Format String := scalar text?

/-- A truth value. -/
def flag : Format Bool := scalar bool?

/-- A whole number between two bounds. -/
def integer (low high : Int) : Format Int :=
  scalar fun j => j.integer?.filter fun n => low ≤ n ∧ n ≤ high

/-- One of the values that have names: its name as a text, or an object with the name as its one field and null there. -/
def named (ofName : String → Option α) : Format α :=
  whole fun
    | .text name => ofName name
    | .object [(name, .null)] => ofName name
    | _ => none

/-- A value or null. -/
def optional (format : Format α) : Format (Option α) where
  read depth bs :=
    match skipSpace bs with
    | 0x6E :: rest => word "ull" none rest
    | bs => (format.read depth bs).map fun r => (some r.1, r.2)
  accept j := if j.isNull then some none else (format.accept j).map some

/-- A list of values. -/
def listOf (format : Format α) : Format (List α) where
  read depth bs :=
    match skipSpace bs with
    | 0x5B :: rest => match depth with
      | 0 => .error .malformed
      | depth + 1 => items (format.read depth) rest
    | bs => .error (strayFault bs)
  accept
    | .list js => js.mapM format.accept
    | _ => none

/-- An object with values of one format under any names, of which a later one prevails over an earlier one of its name. -/
def dictionary (format : Format α) : Format (Dictionary α) where
  read depth bs :=
    match skipSpace bs with
    | 0x7B :: rest => match depth with
      | 0 => .error .malformed
      | depth + 1 =>
        fields .full
          (fun name done => .ok fun bs => (format.read depth bs).map fun r => (done.insert name r.1, r.2))
          Dictionary.empty rest
    | bs => .error (strayFault bs)
  accept
    | .object fs => (fs.mapM fun f => (format.accept f.2).map fun a => (f.1, a)).map Dictionary.ofList
    | _ => none

end Format

/-! ## Records -/

/-- A field of a record: its name, how what stands for it changes the record, and whether it must be given. -/
structure Slot (σ : Type) where
  name : String
  format : Format (σ → σ)
  needed : Bool

namespace Slot

variable {α σ : Type}

/-- A field that must be given. -/
def required (name : String) (format : Format α) (set : α → σ → σ) : Slot σ := ⟨name, format.map set, true⟩

/-- A field that keeps its default when it is not given. -/
def defaulted (name : String) (format : Format α) (set : α → σ → σ) : Slot σ := ⟨name, format.map set, false⟩

/-- No field that must be given is among these. -/
def noneRequired (slots : List (Slot σ)) : Bool := slots.all (!·.needed)

/-- A record that is being read: the names of the fields given so far, and the record they make. -/
structure Progress (σ : Type) where
  given : List String
  record : σ

/-- Ends the reading of an object: every field that must be given has been. -/
def Progress.finish (slots : List (Slot σ)) (progress : Progress σ) : Except Fault σ :=
  if noneRequired (slots.filter (!progress.given.contains ·.name)) then .ok progress.record else .error .mismatch

/-- Reads one field of a record that is known by its name. A field given twice is refused at its second name. -/
def readKnown (depth : Nat) (slot : Slot σ) (progress : Progress σ) :
    Except Fault (Bytes → Except Fault (Progress σ × Bytes)) :=
  if progress.given.contains slot.name then .error .mismatch
  else .ok fun bs => (slot.format.read depth bs).map fun r => (⟨slot.name :: progress.given, r.1 progress.record⟩, r.2)

/-- Reads one field of an object that stands for a record. Fields of other names are passed over. -/
def readField (slots : List (Slot σ)) (depth : Nat) : FieldReader (Progress σ) := fun name progress =>
  match slots.find? (·.name == name) with
  | some slot => readKnown depth slot progress
  | none => .ok fun bs => (skip bs).map fun r => (progress, r.2)

/-- Reads the end of a list that stands for a record: the fields left over must have defaults. -/
def readEnd (slots : List (Slot σ)) (record : σ) (bs : Bytes) : Except Fault (σ × Bytes) :=
  if noneRequired slots then
    match skipSpace bs with
    | 0x5D :: rest => .ok (record, rest)
    | _ => .error .malformed
  else .error .mismatch

/-- Reads the fields of a record after the first one in a list, each after a comma. -/
def readRest (depth : Nat) (record : σ) : List (Slot σ) → Bytes → Except Fault (σ × Bytes)
  | [], bs => readEnd ([] : List (Slot σ)) record bs
  | slot :: slots, bs =>
    match skipSpace bs with
    | 0x2C :: bs => do
      let (set, bs) ← slot.format.read depth bs
      readRest depth (set record) slots bs
    | 0x5D :: bs => readEnd (slot :: slots) record (0x5D :: bs)
    | _ => .error .malformed

/-- Reads the fields of a record in a list, after its opening bracket. -/
def readList (depth : Nat) (record : σ) : List (Slot σ) → Bytes → Except Fault (σ × Bytes)
  | [], bs => readEnd ([] : List (Slot σ)) record bs
  | slot :: slots, bs =>
    match skipSpace bs with
    | 0x5D :: bs => readEnd (slot :: slots) record (0x5D :: bs)
    | bs => do
      let (set, bs) ← slot.format.read depth bs
      readRest depth (set record) slots bs

/-- The value given for each field of a record, if any: by name in an object, by place in a list that is not too long. -/
def given? (names : List String) : Json → Option (List (Option Json))
  | .object fs => some (names.map fun name => fs.lookup name)
  | .list js =>
    if js.length ≤ names.length then some (js.map some ++ List.replicate (names.length - js.length) none) else none
  | _ => none

/-- The record made by the values given for its fields. -/
def assemble (record : σ) : List (Slot σ) → List (Option Json) → Option σ
  | slot :: slots, some j :: given => do
    let set ← slot.format.accept j
    assemble (set record) slots given
  | slot :: slots, none :: given => if slot.needed then none else assemble record slots given
  | _, _ => some record

end Slot

namespace Format

variable {σ ρ : Type}

/-- A record with the given fields, which start from those of another record. -/
def record (slots : List (Slot σ)) (start : σ) : Format σ where
  read depth bs :=
    match skipSpace bs with
    | 0x5B :: rest => match depth with
      | 0 => .error .malformed
      | depth + 1 => Slot.readList depth start slots rest
    | 0x7B :: rest => match depth with
      | 0 => .error .malformed
      | depth + 1 => do
        let (progress, rest) ← fields .full (Slot.readField slots depth) ⟨[], start⟩ rest
        return (← progress.finish slots, rest)
    | bs => .error (strayFault bs)
  accept j := (Slot.given? (slots.map (·.name)) j).bind (Slot.assemble start slots)

/-- Reads one field of an object that stands for a record beside another value: a field of the record where it stands, any
other as a value kept for later. -/
def readOwnOrKeep (slots : List (Slot σ)) (depth : Nat) : FieldReader (Slot.Progress σ × List (String × Json)) :=
  fun name state =>
    match slots.find? (·.name == name) with
    | some slot =>
      (Slot.readKnown depth slot state.1).map fun read bs => (read bs).map fun r => ((r.1, state.2), r.2)
    | none => .ok fun bs => (value .full depth bs).map fun r => ((state.1, state.2 ++ [(name, r.1)]), r.2)

/-- An object in which the fields of a record stand beside the named fields of another value. -/
def beside (slots : List (Slot σ)) (start : σ) (names : List String) (other : Format ρ) : Format (σ × ρ) where
  read depth bs :=
    match skipSpace bs with
    | 0x7B :: rest => match depth with
      | 0 => .error .malformed
      | depth + 1 => do
        let (state, rest) ← fields .full (readOwnOrKeep slots depth) (⟨[], start⟩, []) rest
        let own ← state.1.finish slots
        let kept := state.2.filter fun f => names.contains f.1
        match if (kept.map (·.1)).Nodup then other.accept (.object kept) else none with
        | some aside => return ((own, aside), rest)
        | none => .error .mismatch
    | bs => .error (strayFault bs)
  accept
    | .object fs => do
      let own ← (Slot.given? (slots.map (·.name)) (.object fs)).bind (Slot.assemble start slots)
      let rest ← other.accept (.object (fs.filter fun f => names.contains f.1))
      return (own, rest)
    | _ => none

end Format

end FleetControl.Json
