import Mathlib.Tactic.IntervalCases
import FeedIntake.Time.Calendar

/-!
The numbering of days. Main statements: the number of a day is the count of the days since 1970,
year by year and month by month; and the date of a number is the day that has this number.
-/
namespace FeedIntake.Time

def daysInYear (year : Int) : Int := if isLeap year then 366 else 365

theorem isLeap_iff (year : Int) :
    isLeap year = true ↔ (year % 4 = 0 ∧ year % 100 ≠ 0) ∨ year % 400 = 0 := by
  simp [isLeap]

namespace Date

theorem isValid_iff (date : Date) : date.isValid = true ↔
    1 ≤ date.month ∧ date.month ≤ 12 ∧ 1 ≤ date.day ∧
      date.day ≤ daysInMonth date.year date.month := by
  simp [isValid, and_assoc]

theorem daysInMonth_le (year month : Int) : daysInMonth year month ≤ 31 := by
  simp only [daysInMonth]
  split <;> split <;> omega

/-- The days of the whole years since 1970, of the whole months of the year, and of the month. -/
def daysSinceEpoch (date : Date) : Int :=
  ((List.range (date.year - 1970).toNat).map fun k : Nat => daysInYear (1970 + k)).sum
    + ((List.range (date.month - 1).toNat).map fun k : Nat => daysInMonth date.year (1 + k)).sum
    + (date.day - 1)

theorem dayNumber_next_year (year : Int) :
    dayNumber ⟨year + 1, 1, 1⟩ = dayNumber ⟨year, 1, 1⟩ + daysInYear year := by
  have leap := isLeap_iff year
  simp only [dayNumber, daysInYear]
  split <;> simp_all only <;> omega

theorem dayNumber_first_of_year (n : Nat) :
    dayNumber ⟨1970 + n, 1, 1⟩ = ((List.range n).map fun k : Nat => daysInYear (1970 + k)).sum := by
  induction n with
  | zero => decide
  | succ n ih =>
    have next := dayNumber_next_year (1970 + n)
    rw [List.range_succ, List.map_append, List.sum_append, ← ih]
    simp only [List.map_singleton, List.sum_singleton]
    rw [← next]
    push_cast
    rfl

theorem dayNumber_next_month (year month : Int) (first : 1 ≤ month) (last : month ≤ 11) :
    dayNumber ⟨year, month + 1, 1⟩ = dayNumber ⟨year, month, 1⟩ + daysInMonth year month := by
  have leap := isLeap_iff year
  interval_cases month <;> simp [dayNumber, daysInMonth]
  case «2» => split <;> simp_all <;> omega
  all_goals omega

theorem dayNumber_first_of_month (year : Int) (n : Nat) (last : n ≤ 11) :
    dayNumber ⟨year, 1 + n, 1⟩ = dayNumber ⟨year, 1, 1⟩
      + ((List.range n).map fun k : Nat => daysInMonth year (1 + k)).sum := by
  induction n with
  | zero => simp
  | succ n ih =>
    have next := dayNumber_next_month year (1 + n) (by omega) (by omega)
    rw [List.range_succ, List.map_append, List.sum_append, ← Int.add_assoc, ← ih (by omega)]
    simp only [List.map_singleton, List.sum_singleton]
    rw [← next]
    push_cast
    rfl

/-- The formula for the number of a day counts every year and month with its length. -/
theorem dayNumber_eq_daysSinceEpoch (date : Date) (since : 1970 ≤ date.year)
    (first : 1 ≤ date.month) (last : date.month ≤ 12) :
    date.dayNumber = date.daysSinceEpoch := by
  have years := dayNumber_first_of_year (date.year - 1970).toNat
  have months := dayNumber_first_of_month date.year (date.month - 1).toNat (by omega)
  have day : date.dayNumber = dayNumber ⟨date.year, date.month, 1⟩ + (date.day - 1) := by
    simp only [dayNumber]
    omega
  rw [show 1970 + ((date.year - 1970).toNat : Int) = date.year by omega] at years
  rw [show 1 + ((date.month - 1).toNat : Int) = date.month by omega] at months
  rw [day, months, years, daysSinceEpoch]

/-- The first of January parts the days of earlier years from the others. -/
theorem dayNumber_lt_iff (date : Date) (valid : date.isValid = true) (year : Int) :
    date.dayNumber < dayNumber ⟨year, 1, 1⟩ ↔ date.year < year := by
  obtain ⟨first, last, low, high⟩ := (isValid_iff date).1 valid
  have leap := isLeap_iff date.year
  obtain ⟨own, month, day⟩ := date
  simp only [daysInMonth] at *
  interval_cases month <;> simp [dayNumber] <;> (try split at high) <;> simp_all <;> omega

-- The date of a day: `ofDayNumber` counts eras of 400 years, and years and months from March.

/-- The days from the first of March of year 0 to that of another year. -/
def daysToMarch (year : Int) : Int := 365 * year + year / 4 - year / 100 + year / 400

theorem dayNumber_eq_daysToMarch (date : Date) : date.dayNumber =
    daysToMarch (if date.month ≤ 2 then date.year - 1 else date.year)
      + (153 * ((date.month + 9) % 12) + 2) / 5 + date.day - 719469 := by
  simp only [dayNumber, daysToMarch]

theorem daysToMarch_era (year era : Int) :
    daysToMarch (year + era * 400) = daysToMarch year + era * 146097 := by
  simp only [daysToMarch]
  omega

/-- The year of its era that a day lies in. -/
def yearOfEra (day : Int) : Int := (day - day / 1460 + day / 36524 - day / 146096) / 365

theorem yearOfEra_mono (day later : Int) (le : day ≤ later) : yearOfEra day ≤ yearOfEra later := by
  have single : day - day / 1460 ≤ later - later / 1460 := by omega
  have century : day / 36524 - day / 146096 ≤ later / 36524 - later / 146096 := by omega
  simp only [yearOfEra]
  omega

/-- The first and the last day of each year of an era lie in it. -/
theorem yearOfEra_daysToMarch : ∀ year < 400,
    yearOfEra (daysToMarch (year : Nat)) = year ∧
      yearOfEra (daysToMarch (year + 1 : Nat) - 1) = year := by
  decide +kernel

/-- Since `yearOfEra` never decreases, the ends of the years decide where all other days lie. -/
theorem yearOfEra_spec (day : Int) (first : 0 ≤ day) (last : day < 146097) :
    0 ≤ yearOfEra day ∧ yearOfEra day < 400 ∧ daysToMarch (yearOfEra day) ≤ day ∧
      day < daysToMarch (yearOfEra day + 1) := by
  obtain ⟨year, same⟩ : ∃ year : Nat, yearOfEra day = year :=
    Int.eq_ofNat_of_zero_le (by simp only [yearOfEra]; omega)
  have bound : year < 400 := by simp only [yearOfEra] at same; omega
  rw [same]
  refine ⟨by omega, by omega, ?_, ?_⟩
  · by_contra early
    cases year with
    | zero => exact early first
    | succ before =>
      have mono := yearOfEra_mono day (daysToMarch (before + 1 : Nat) - 1) (by omega)
      rw [(yearOfEra_daysToMarch before (by omega)).2] at mono
      omega
  · by_contra late
    by_cases final : year = 399
    · rw [final] at late
      exact late last
    · have mono := yearOfEra_mono (daysToMarch (year + 1 : Nat)) day (by push_cast; omega)
      rw [(yearOfEra_daysToMarch (year + 1) (by omega)).1] at mono
      omega

/-- The date of a day by its place in a year that is counted from March. -/
def ofMarch (year day : Int) : Date :=
  let index := (5 * day + 2) / 153
  let month := if index < 10 then index + 3 else index - 9
  ⟨if month ≤ 2 then year + 1 else year, month, day - (153 * index + 2) / 5 + 1⟩

theorem dayNumber_ofMarch (year day : Int) (first : 0 ≤ day) (last : day < 366) :
    (ofMarch year day).dayNumber = daysToMarch year + day - 719468 := by
  have low : 0 ≤ (5 * day + 2) / 153 := by omega
  have high : (5 * day + 2) / 153 ≤ 11 := by omega
  rw [dayNumber_eq_daysToMarch, ofMarch]
  generalize (5 * day + 2) / 153 = index at low high
  interval_cases index <;> simp <;> omega

theorem isValid_ofMarch (year day : Int) (first : 0 ≤ day)
    (last : day < daysToMarch (year + 1) - daysToMarch year) :
    (ofMarch year day).isValid = true := by
  have leap := isLeap_iff (year + 1)
  simp only [daysToMarch] at last
  have low : 0 ≤ (5 * day + 2) / 153 := by omega
  have high : (5 * day + 2) / 153 ≤ 11 := by omega
  rw [ofMarch]
  generalize shape : (5 * day + 2) / 153 = index at low high
  interval_cases index <;> simp [isValid, daysInMonth] <;> (try split) <;> simp_all <;> omega

theorem exists_ofMarch (number : Int) :
    ∃ year day, ofDayNumber number = ofMarch year day ∧
      number = daysToMarch year + day - 719468 ∧ 0 ≤ day ∧
      day < daysToMarch (year + 1) - daysToMarch year := by
  have inside := yearOfEra_spec ((number + 719468) % 146097) (by omega) (by omega)
  generalize found : yearOfEra ((number + 719468) % 146097) = year at inside
  have here := daysToMarch_era year ((number + 719468) / 146097)
  have next := daysToMarch_era (year + 1) ((number + 719468) / 146097)
  rw [Int.add_right_comm] at next
  refine ⟨year + (number + 719468) / 146097 * 400,
    (number + 719468) % 146097 - daysToMarch year, ?_, by omega, by omega, by omega⟩
  have short : daysToMarch year = 365 * year + year / 4 - year / 100 := by
    simp only [daysToMarch]
    omega
  rw [ofMarch, short, ← found]
  rfl

theorem isValid_ofDayNumber (number : Int) : (ofDayNumber number).isValid = true := by
  obtain ⟨year, day, date, -, first, last⟩ := exists_ofMarch number
  rw [date, isValid_ofMarch year day first last]

theorem dayNumber_ofDayNumber (number : Int) : (ofDayNumber number).dayNumber = number := by
  obtain ⟨year, day, date, same, first, last⟩ := exists_ofMarch number
  have short : day < 366 := by
    simp only [daysToMarch] at last
    omega
  rw [date, dayNumber_ofMarch year day first short, same]

end Date

end FeedIntake.Time
