import FleetControl.Width

/-!
# Times, the calendar and the activity cutoff

A time is a count of milliseconds from the start of 1970, in Coordinated Universal Time. Times can be held from the start of
the year -262143 to the end of the year 262142. The activity cutoff lies some hours before now; where it cannot be held there
is none.
-/

namespace FleetControl

/-- Milliseconds from the start of 1970. -/
abbrev Time : Type := Int

namespace Calendar

/-- The milliseconds of a day. -/
def dayLength : Int := 86400000

/-- The number of a day of the Gregorian calendar, counted from the first day of 1970. Years are counted from March, so that
a leap day is the last day of its year. -/
def dayNumber (year month day : Int) : Int :=
  let y := if month ≤ 2 then year - 1 else year
  let ofEra := y % 400
  let ofYear := (153 * ((month + 9) % 12) + 2) / 5 + day - 1
  y / 400 * 146097 + (ofEra * 365 + ofEra / 4 - ofEra / 100 + ofYear) - 719468

/-- The year, month and day of the day with this number. -/
def civil (number : Int) : Int × Int × Int :=
  let shifted := number + 719468
  let ofEra := shifted % 146097
  let y := (ofEra - ofEra / 1460 + ofEra / 36524 - ofEra / 146096) / 365
  let ofYear := ofEra - (365 * y + y / 4 - y / 100)
  let m := (5 * ofYear + 2) / 153
  let day := ofYear - (153 * m + 2) / 5 + 1
  let month := if m < 10 then m + 3 else m - 9
  (y + shifted / 146097 * 400 + (if month ≤ 2 then 1 else 0), month, day)

end Calendar

namespace Time

/-- The earliest time that can be held. -/
def earliest : Time := Calendar.dayNumber (-262143) 1 1 * Calendar.dayLength

/-- The latest time that can be held. -/
def latest : Time := Calendar.dayNumber 262143 1 1 * Calendar.dayLength - 1

/-- The milliseconds of an hour. -/
def hourLength : Int := 3600000

/-- A number with zeros before it, up to a count of digits. -/
def zeroPadded (count : Nat) (n : Nat) : String :=
  let digits := toString n
  String.ofList (List.replicate (count - digits.length) '0') ++ digits

/-- The year as it stands in a written time: four digits, or a sign and at least four digits outside the years 0 to 9999. -/
def yearText (year : Int) : String :=
  if 0 ≤ year ∧ year ≤ 9999 then zeroPadded 4 year.toNat
  else (if year < 0 then "-" else "+") ++ zeroPadded 4 year.natAbs

/-- The time in the form of RFC 3339, with milliseconds where there are any. -/
def text (t : Time) : String :=
  let (year, month, day) := Calendar.civil (t / Calendar.dayLength)
  let rest := (t % Calendar.dayLength).toNat
  let fraction := if rest % 1000 = 0 then "" else "." ++ zeroPadded 3 (rest % 1000)
  yearText year ++ "-" ++ zeroPadded 2 month.toNat ++ "-" ++ zeroPadded 2 day.toNat ++ "T" ++
    zeroPadded 2 (rest / 3600000) ++ ":" ++ zeroPadded 2 (rest / 60000 % 60) ++ ":" ++ zeroPadded 2 (rest / 1000 % 60) ++
    fraction ++ "Z"

end Time

/-- The time some hours before now: nodes not seen since then are inactive. There is none where the span in milliseconds does
not fit 64 bits or the time cannot be held. -/
def activityCutoff (now : Time) (hours : Int) : Option Time :=
  let span := hours * Time.hourLength
  let fits := Width.least64 ≤ span ∧ span ≤ Width.greatest64
  let held := Time.earliest ≤ now - span ∧ now - span ≤ Time.latest
  if fits ∧ held then some (now - span) else none

end FleetControl
