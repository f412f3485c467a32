import Mathlib

/-!
# Instants as text

An instant is a number of microseconds since the start of 1970 in UTC.  The
functions below give the text of `datetime.isoformat`, without an offset for a
value read back from the database and with the offset of UTC for a fresh one.
-/

namespace Pallium.Calendar

/-- Year, month and day of the given day number, counted from 1970-01-01 in the
Gregorian calendar.  Years are counted from the first of March. -/
def civil (days : ℤ) : ℤ × ℤ × ℤ :=
  let shifted := days + 719468
  let era := shifted / 146097
  let dayOfEra := shifted % 146097
  let yearOfEra := (dayOfEra - dayOfEra / 1460 + dayOfEra / 36524 - dayOfEra / 146096) / 365
  let dayOfYear := dayOfEra - (365 * yearOfEra + yearOfEra / 4 - yearOfEra / 100)
  let shiftedMonth := (5 * dayOfYear + 2) / 153
  let day := dayOfYear - (153 * shiftedMonth + 2) / 5 + 1
  let month := if shiftedMonth < 10 then shiftedMonth + 3 else shiftedMonth - 9
  let year := yearOfEra + era * 400
  (if month ≤ 2 then year + 1 else year, month, day)

/-- Decimal digits of a number, filled up with zeros on the left. -/
def padded (width : ℕ) (value : ℤ) : String :=
  let digits := toString value
  String.ofList (List.replicate (width - digits.length) '0') ++ digits

/-- `datetime.isoformat` of a value without time zone. -/
def isoformat (instant : ℤ) : String :=
  let seconds := instant / 1000000
  let fraction := instant % 1000000
  let (year, month, day) := civil (seconds / 86400)
  let ofDay := seconds % 86400
  let date := padded 4 year ++ "-" ++ padded 2 month ++ "-" ++ padded 2 day
  let time := padded 2 (ofDay / 3600) ++ ":" ++ padded 2 (ofDay / 60 % 60) ++ ":" ++
    padded 2 (ofDay % 60)
  date ++ "T" ++ time ++ if fraction = 0 then "" else "." ++ padded 6 fraction

/-- `datetime.isoformat` of a value in UTC. -/
def isoformatUtc (instant : ℤ) : String := isoformat instant ++ "+00:00"

example : isoformat 951827696000005 = "2000-02-29T12:34:56.000005" := by decide

end Pallium.Calendar
