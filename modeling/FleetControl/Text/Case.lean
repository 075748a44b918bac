import FleetControl.Text.CaseTable
import FleetControl.Text.CaseClass

/-!
# Upper and lower case of a text

The full case mappings of a text, by which node identities are made canonical. Upper-casing goes character by character, and
a character may become several. Lower-casing does so too, except that a capital sigma at the end of a word becomes the final
form: it does when a cased character stands before it and none after it, where case-ignorable characters are looked through.
-/

namespace FleetControl.Text

/-- The character a list of runs sends this one to: itself where no run holds it. -/
def shifted (runs : List CaseRun) (c : Char) : Char :=
  match runs.find? (·.covers c.toNat) with
  | some r => Char.ofNat (r.image c.toNat)
  | none => c

/-- The case form of a character under a table of expansions and a list of runs. -/
def caseForm (expansions : List (Nat × List Nat)) (runs : List CaseRun) (c : Char) : List Char :=
  match expansions.lookup c.toNat with
  | some forms => forms.map Char.ofNat
  | none => [shifted runs c]

/-- The upper-case form of a character. -/
def upperForm (c : Char) : List Char := caseForm upperExpansions upperRuns c

/-- The lower-case form of a character, away from the rule of the final sigma. -/
def lowerForm (c : Char) : List Char := caseForm lowerExpansions lowerRuns c

/-- The text in upper case. -/
def upper (s : String) : String := String.ofList (s.toList.flatMap upperForm)

/-- The nearest character that is not case-ignorable is cased. -/
def meetsCased : List Char → Bool
  | [] => false
  | c :: cs => if caseIgnorable.holds c then meetsCased cs else cased.holds c

/-- The lower-case form of a text, with the characters before it at hand in reverse order. -/
def lowerFrom : (before : List Char) → List Char → List Char
  | _, [] => []
  | before, c :: cs =>
    let form :=
      if c = 'Σ' then (if meetsCased before && !meetsCased cs then ['ς'] else ['σ'])
      else lowerForm c
    form ++ lowerFrom (c :: before) cs

/-- The text in lower case. -/
def lower (s : String) : String := String.ofList (lowerFrom [] s.toList)

end FleetControl.Text
