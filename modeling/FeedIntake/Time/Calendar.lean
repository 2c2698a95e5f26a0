/-!
The proleptic Gregorian calendar as a numbering of days: day 0 is 1970-01-01. Years are counted from
March inside the formulas, so that the leap day is the last day of its year.
-/
namespace FeedIntake.Time

/-- A year with a 29th of February. -/
def isLeap (year : Int) : Bool := (year % 4 == 0 && year % 100 != 0) || year % 400 == 0

/-- The number of days in a month from 1 to 12. -/
def daysInMonth (year month : Int) : Int :=
  if month = 2 then if isLeap year then 29 else 28
  else if month = 4 ∨ month = 6 ∨ month = 9 ∨ month = 11 then 30
  else 31

/-- A day of the calendar by its usual three numbers. -/
structure Date where
  year : Int
  month : Int
  day : Int
  deriving DecidableEq, Repr

namespace Date

/-- Whether the numbers name a day. -/
def isValid (date : Date) : Bool :=
  1 ≤ date.month && date.month ≤ 12 && 1 ≤ date.day
    && date.day ≤ daysInMonth date.year date.month

/-- The number of the day, for a valid date. -/
def dayNumber (date : Date) : Int :=
  let year := if date.month ≤ 2 then date.year - 1 else date.year
  let month := (date.month + 9) % 12
  365 * year + year / 4 - year / 100 + year / 400 + (153 * month + 2) / 5 + date.day - 719469

/-- The date of the day with this number. -/
def ofDayNumber (number : Int) : Date :=
  let shifted := number + 719468
  let era := shifted / 146097
  let dayOfEra := shifted % 146097
  let yearOfEra := (dayOfEra - dayOfEra / 1460 + dayOfEra / 36524 - dayOfEra / 146096) / 365
  let dayOfYear := dayOfEra - (365 * yearOfEra + yearOfEra / 4 - yearOfEra / 100)
  let month := (5 * dayOfYear + 2) / 153
  let day := dayOfYear - (153 * month + 2) / 5 + 1
  let month := if month < 10 then month + 3 else month - 9
  let year := yearOfEra + era * 400
  ⟨if month ≤ 2 then year + 1 else year, month, day⟩

end Date

end FeedIntake.Time
