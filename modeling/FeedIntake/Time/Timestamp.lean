import FeedIntake.Time.Calendar
import FeedIntake.Time.Field

/-!
Points in time and their two written forms: `2020-01-02T03:04:05+08:00` (the numeric form) and
`Thu, 02 Jan 2020 03:04:05 GMT` (the mail form). Both readers fill the same `Reading`, and one
function turns that into an instant. Printing always gives the numeric form in UTC.

An instant is kept as nanoseconds in 64 bits. Only its whole seconds are ever looked at, so they are
what stands for it here; years up to 9999 are read, but the clock ends in the year 2262.
-/
namespace FeedIntake.Time

/-- Seconds since 1970-01-01T00:00:00Z; every day has 86400 of them. -/
abbrev Instant := Int

/-- Whether the nanoseconds of an instant fit into 64 bits. -/
def IsOnClock (t : Int) : Prop :=
  -9223372036854775808 ≤ t * 1000000000 ∧ t * 1000000000 ≤ 9223372036854775807

instance : DecidablePred IsOnClock := fun t =>
  inferInstanceAs (Decidable (-9223372036854775808 ≤ t * 1000000000 ∧
    t * 1000000000 ≤ 9223372036854775807))

/-- The numbers that 64 bits can tell apart. -/
def clockStates : Nat := 18446744073709551616

/-- The instant that a clock of 64-bit nanoseconds shows for a number of seconds: nanoseconds that
do not fit wrap round, and the seconds are what is left of them toward zero. -/
def onClock (seconds : Int) : Instant := ((seconds * 1000000000).bmod clockStates).tdiv 1000000000

theorem onClock_of_isOnClock (t : Int) (shown : IsOnClock t) : onClock t = t := by
  obtain ⟨low, high⟩ := shown
  rw [onClock, clockStates, Int.bmod_eq_of_le (by omega) (by omega),
    Int.mul_tdiv_cancel _ (by decide)]

/-- Beyond the clock an instant ends up a whole turn of it away, which is 584 years. -/
theorem natAbs_onClock_sub (t : Int) (beyond : ¬ IsOnClock t) :
    18446744073 ≤ (onClock t - t).natAbs := by
  have low : -((clockStates : Int) / 2) ≤ (t * 1000000000).bmod clockStates :=
    Int.le_bmod (by decide)
  have high : (t * 1000000000).bmod clockStates < ((clockStates : Int) + 1) / 2 :=
    Int.bmod_lt (by decide)
  have turns := Int.bmod_add_bdiv (t * 1000000000) clockStates
  have parts := Int.mul_tdiv_add_tmod ((t * 1000000000).bmod clockStates) 1000000000
  have less := Int.tmod_lt_of_pos ((t * 1000000000).bmod clockStates) (b := 1000000000) (by decide)
  have more := Int.lt_tmod_of_pos ((t * 1000000000).bmod clockStates) (b := 1000000000) (by decide)
  rw [IsOnClock] at beyond
  rw [onClock]
  simp only [clockStates] at *
  omega

/-- What a written date says, number by number. -/
structure Reading where
  date : Date
  hour : Int
  minute : Int
  second : Int
  /-- Seconds east of UTC. -/
  offset : Int
  deriving DecidableEq, Repr

namespace Reading

def firstYear : Int := 1970
def lastYear : Int := 9999

/-- Whether every number but the offset is in its range; a minute may have a leap second. -/
def isValid (r : Reading) : Bool :=
  firstYear ≤ r.date.year && r.date.year ≤ lastYear && r.date.isValid
    && 0 ≤ r.hour && r.hour ≤ 23 && 0 ≤ r.minute && r.minute ≤ 59
    && 0 ≤ r.second && r.second ≤ 60

/-- The seconds since 1970-01-01T00:00:00Z that the numbers come to. -/
def instant (r : Reading) : Int :=
  r.date.dayNumber * 86400 + r.hour * 3600 + r.minute * 60 + r.second - r.offset

def instant? (r : Reading) : Option Instant := if r.isValid then some (onClock r.instant) else none

end Reading

/-- The zones with a name: UTC and those of the United States, by their hours east of UTC. -/
def namedZones : List (Bytes × Int) :=
  [("", 0), ("z", 0), ("gmt", 0), ("ut", 0), ("utc", 0), ("est", -5), ("edt", -4), ("cst", -6),
    ("cdt", -5), ("mst", -7), ("mdt", -6), ("pst", -8), ("pdt", -7)].map
      fun (name, hours) => (Bytes.ofString name, hours)

/-- The seconds of a numeric zone without its sign: two digits of hours, and two of minutes or none;
colons may stand anywhere. -/
def numericZone? (s : Bytes) : Option Int :=
  let digits := s.filter (· != Mark.colon)
  if !digits.all Bytes.isDigit then none
  else if digits.length = 2 then some (Numeral.value 10 digits * 3600)
  else if digits.length = 4 then
    some (Numeral.value 10 (digits.take 2) * 3600 + Numeral.value 10 (digits.drop 2) * 60)
  else none

/-- The offset that the text behind the time of day stands for; no text is UTC. -/
def zone? (s : Bytes) : Option Int :=
  match Bytes.lower (Bytes.trim s) with
  | Mark.plus :: rest => numericZone? rest
  | Mark.hyphen :: rest => (numericZone? rest).map (- ·)
  | name => (namedZones.lookup name).map (· * 3600)

/-- A decimal fraction of a second, which is skipped. -/
def skipFraction : Bytes → Bytes
  | b :: rest =>
    if b == Mark.dot || b == Mark.comma then rest.dropWhile Bytes.isDigit else b :: rest
  | [] => []

/-- The numeric form: a date, and behind `T` or a space a time with an optional zone. -/
def readNumeric (s : Bytes) : Option Instant := do
  let (year, s) ← Field.number 4 s
  let s ← Field.exactly Mark.hyphen s
  let (month, s) ← Field.number 2 s
  let s ← Field.exactly Mark.hyphen s
  let (day, s) ← Field.number 2 s
  let date : Date := ⟨year, month, day⟩
  match s with
  | [] => Reading.instant? ⟨date, 0, 0, 0, 0⟩
  | b :: s =>
    if Bytes.lowerByte b != 't'.toUInt8 && b != Mark.space then none
    else
      let (hour, s) ← Field.number 2 s
      let s ← Field.exactly Mark.colon s
      let (minute, s) ← Field.number 2 s
      let (second, s) ← Field.seconds? s
      let offset ← zone? (skipFraction s)
      Reading.instant? ⟨date, hour, minute, second, offset⟩

def monthNames : List Bytes :=
  ["jan", "feb", "mar", "apr", "may", "jun", "jul", "aug", "sep", "oct", "nov", "dec"].map
    Bytes.ofString

/-- The month with this name in any case. -/
def month? (name : Bytes) : Option Int :=
  (monthNames.idxOf? (Bytes.lower name)).map fun index => (index : Int) + 1

/-- A year below 100 belongs to the century from 1970 to 2069. -/
def fullYear (year : Int) : Int :=
  if year < 70 then year + 2000 else if year < 100 then year + 1900 else year

/-- The mail form: behind the first comma, if there is one, a day, the name of a month, a year, a
time and an optional zone. -/
def readMail (s : Bytes) : Option Instant := do
  let s := match Bytes.cut? Mark.comma s with
    | some (_, rest) => Bytes.trim rest
    | none => s
  let (day, s) ← Field.number 2 s
  let (name, s) ← Field.word 3 s
  let (year, s) ← Field.number 4 s
  let (hour, s) ← Field.number 2 s
  let s ← Field.exactly Mark.colon s
  let (minute, s) ← Field.number 2 s
  let (second, s) ← Field.seconds? s
  let month ← month? name
  let offset ← zone? s
  Reading.instant? ⟨⟨fullYear year, month, day⟩, hour, minute, second, offset⟩

/-- Whether a text looks like the numeric form: ten bytes or more, a digit in front and a hyphen
behind the first four. -/
def looksNumeric (s : Bytes) : Bool :=
  (s.head?.any Bytes.isDigit) && 10 ≤ s.length && s[4]? == some Mark.hyphen

/-- The instant that a written date denotes, blanks around it aside. -/
def read (s : Bytes) : Option Instant :=
  let s := Bytes.trim s
  if s.isEmpty then none else if looksNumeric s then readNumeric s else readMail s

/-- An instant in the numeric form, in UTC. -/
def render (t : Instant) : Bytes :=
  let date := Date.ofDayNumber (t / 86400)
  let second := (t % 86400).toNat
  Numeral.signed date.year ++ [Mark.hyphen] ++ Numeral.padded 2 date.month.toNat
    ++ [Mark.hyphen] ++ Numeral.padded 2 date.day.toNat
    ++ Bytes.ofString "T" ++ Numeral.padded 2 (second / 3600)
    ++ [Mark.colon] ++ Numeral.padded 2 (second / 60 % 60)
    ++ [Mark.colon] ++ Numeral.padded 2 (second % 60) ++ Bytes.ofString "Z"

end FeedIntake.Time
