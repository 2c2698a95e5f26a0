import FeedIntake.Proofs.Time.Calendar
import FeedIntake.Proofs.Time.Writing

/-!
The documented forms of dates. Main statement: however a date and a time of day are written in one
of them, the same instant is read, counted in days, hours, minutes and seconds from 1970 on and set
right by the offset; a day that its month does not have is not read.

Which words may name a weekday, and which texts a zone, is a parameter of the forms.
-/
namespace FeedIntake.Time

/-- Two digits. -/
def two (n : Int) : Bytes := Numeral.padded 2 n.toNat

def four (n : Int) : Bytes := Numeral.padded 4 n.toNat

/-- Seconds behind a colon; they may be left out if there are none. -/
def IsSeconds (second : Int) (s : Bytes) : Prop :=
  s = Mark.colon :: two second ∨ second = 0 ∧ s = []

/-- Digits behind a point, or nothing. -/
def IsFraction (s : Bytes) : Prop :=
  s = [] ∨ ∃ digits, s = Mark.dot :: digits ∧ digits ≠ [] ∧ ∀ b ∈ digits, Bytes.isDigit b = true

def dateForm (date : Date) : Bytes :=
  four date.year ++ Mark.hyphen :: (two date.month ++ Mark.hyphen :: two date.day)

def clockForm (hour minute : Int) (seconds : Bytes) : Bytes :=
  two hour ++ Mark.colon :: (two minute ++ seconds)

/-- A date and a time of day in a numeric form with such zones; midnight in UTC may be left out. -/
inductive InNumericForm (Zone : Int → Bytes → Prop) (r : Reading) : Bytes → Prop where
  | date (midnight : r.hour = 0 ∧ r.minute = 0 ∧ r.second = 0 ∧ r.offset = 0) :
      InNumericForm Zone r (dateForm r.date)
  | dateTime (separator : UInt8) (seconds fraction zone : Bytes) (parts : IsSeparator separator)
      (second : IsSeconds r.second seconds) (skipped : IsFraction fraction)
      (shifted : Zone r.offset zone) :
      InNumericForm Zone r
        (dateForm r.date ++ separator :: (clockForm r.hour r.minute seconds ++ (fraction ++ zone)))

/-- Blanks between two words. -/
def IsGap (s : Bytes) : Prop := s ≠ [] ∧ ∀ b ∈ s, Bytes.isBlank b = true

/-- A weekday with a comma, or neither. -/
def IsFront (Weekday : Bytes → Prop) (s : Bytes) : Prop :=
  s = [] ∨ ∃ name gap, s = name ++ Mark.comma :: gap ∧ Weekday name ∧
    ∀ b ∈ gap, Bytes.isBlank b = true

/-- A day with two digits, or with as many as it needs. -/
def IsMailDay (day : Int) (s : Bytes) : Prop := s = two day ∨ s = Numeral.decimal day.toNat

/-- A year with all four digits, or with the last two: those from 70 on belong to the twentieth
century, the others to the one after it. -/
def IsMailYear (year : Int) (s : Bytes) : Prop :=
  s = four year ∨ (1970 ≤ year ∧ year ≤ 1999 ∧ s = two (year - 1900)) ∨
    (2000 ≤ year ∧ year ≤ 2069 ∧ s = two (year - 2000))

/-- A zone behind blanks, or none. -/
def IsEnd (Zone : Int → Bytes → Prop) (offset : Int) (s : Bytes) : Prop :=
  (offset = 0 ∧ s = []) ∨ ∃ gap zone, s = gap ++ zone ∧ IsGap gap ∧ zone ≠ [] ∧ Zone offset zone

/-- A date and a time of day in a mail form with such weekdays and zones. -/
inductive InMailForm (Weekday : Bytes → Prop) (Zone : Int → Bytes → Prop) (r : Reading) :
    Bytes → Prop where
  | mk (weekday day month year seconds zone gap₁ gap₂ gap₃ : Bytes)
      (front : IsFront Weekday weekday) (days : IsMailDay r.date.day day) (first : IsGap gap₁)
      (named : (Bytes.lower month, r.date.month) ∈ months) (next : IsGap gap₂)
      (years : IsMailYear r.date.year year) (last : IsGap gap₃)
      (second : IsSeconds r.second seconds) (shifted : IsEnd Zone r.offset zone) :
      InMailForm Weekday Zone r (weekday ++ (day ++ (gap₁ ++ month ++ (gap₂ ++ year
        ++ (gap₃ ++ clockForm r.hour r.minute seconds ++ zone)))))

/-- Letters only. -/
def IsWord (s : Bytes) : Prop := ∀ b ∈ s, Bytes.isLetter b = true

/-- A date and a time of day in the numeric form, with any name or shift of a day for the zone. -/
abbrev IsNumericForm (r : Reading) (s : Bytes) : Prop := InNumericForm (IsZone IsShift) r s

/-- A date and a time of day in the mail form, with any word in front of the comma and any name or
shift of a day for the zone. -/
abbrev IsMailForm (r : Reading) (s : Bytes) : Prop := InMailForm IsWord (IsZone IsShift) r s

/-- Whether a number is written with all the digits that it may take, and without a sign. -/
def Figure.IsFull {width : Nat} (figure : Figure width) : Prop :=
  figure.sign = .none ∧ figure.digits.length = width

/-- Whether all numbers of a time of day have two digits, with no blanks between them. -/
def Clock.IsFull (clock : Clock) : Prop :=
  clock.hour.IsFull ∧ (clock.minute.gap = [] ∧ clock.minute.IsFull) ∧
    ∀ second ∈ clock.second, second.gap = [] ∧ second.IsFull

/-- Whether a date is written as four, two and two digits. -/
def IsFullDate (year : Figure 4) (month day : Figure 2) : Prop :=
  (year.gap = [] ∧ year.IsFull) ∧ (month.gap = [] ∧ month.IsFull) ∧ day.gap = [] ∧ day.IsFull

/-- Whether a year is written as it is in the mail form. -/
def Figure.IsYear (year : Figure 4) : Prop :=
  year.sign = .none ∧ (year.digits.length = 2 ∨ year.digits.length = 4 ∧ 100 ≤ year.value)

/-- Whether every part is written as a form with such weekdays and zones has it. -/
def Writing.IsFormed (Weekday : Bytes → Prop) (Zone Postal : Int → Bytes → Prop) : Writing → Prop
  | date year month day => IsFullDate year month day
  | dateTime year month day _ clock fraction zone _ _ =>
    IsFullDate year month day ∧ (clock.hour.gap = [] ∧ clock.IsFull) ∧ IsFraction fraction ∧
      Zone zone.offset zone.text
  | mail weekday day month year clock zone _ =>
    ((∀ name ∈ weekday, Weekday name) ∧ (weekday = none → day.gap = [])) ∧ day.sign = .none ∧
      month.gap ≠ [] ∧ (year.gap ≠ [] ∧ year.IsYear) ∧ (clock.hour.gap ≠ [] ∧ clock.IsFull) ∧
      IsEnd Postal zone.offset zone.text

theorem Reading.isValid_iff (r : Reading) : r.isValid = true ↔
    (1970 ≤ r.date.year ∧ r.date.year ≤ 9999) ∧ r.date.isValid = true ∧
    (0 ≤ r.hour ∧ r.hour ≤ 23) ∧ (0 ≤ r.minute ∧ r.minute ≤ 59) ∧ 0 ≤ r.second ∧ r.second ≤ 60 := by
  simp only [isValid, Bool.and_eq_true, decide_eq_true_eq, and_assoc]
  rfl

/-- Numbers that have room in the forms. -/
structure Reading.Fits (r : Reading) : Prop where
  year : 1000 ≤ r.date.year ∧ r.date.year ≤ 9999
  month : 0 ≤ r.date.month ∧ r.date.month ≤ 99
  day : 0 ≤ r.date.day ∧ r.date.day ≤ 99
  hour : 0 ≤ r.hour ∧ r.hour ≤ 99
  minute : 0 ≤ r.minute ∧ r.minute ≤ 99
  second : 0 ≤ r.second ∧ r.second ≤ 99

theorem Figure.exists_plain (width : Nat) (gap digits : Bytes)
    (blank : ∀ b ∈ gap, Bytes.isBlank b = true) (digital : ∀ b ∈ digits, Bytes.isDigit b = true)
    (nonempty : digits ≠ []) (fits : digits.length ≤ width) :
    ∃ figure : Figure width, figure.text = gap ++ digits ∧ figure.gap = gap ∧ figure.sign = .none ∧
      figure.digits = digits ∧ figure.value = Numeral.value 10 digits :=
  ⟨⟨gap, .none, digits, blank, digital, nonempty, by simpa [Sign.text] using fits⟩,
    rfl, rfl, rfl, rfl, rfl⟩

theorem exists_padded (width count : Nat) (gap : Bytes) (n : Int) (some : 0 < count)
    (narrow : count ≤ width) (blank : ∀ b ∈ gap, Bytes.isBlank b = true) (low : 0 ≤ n)
    (high : n.toNat < 10 ^ count) :
    ∃ figure : Figure width, figure.text = gap ++ Numeral.padded count n.toNat ∧
      figure.gap = gap ∧ figure.sign = .none ∧ figure.digits.length = count ∧ figure.value = n := by
  have length := Numeral.length_padded count n.toNat some high
  obtain ⟨figure, text, front, sign, digits, value⟩ := Figure.exists_plain width gap
    (Numeral.padded count n.toNat) blank (Numeral.isDigit_of_mem_padded count n.toNat)
    (List.ne_nil_of_length_pos (by omega)) (by omega)
  refine ⟨figure, text, front, sign, digits ▸ length, ?_⟩
  rw [value, Numeral.value_padded]
  omega

theorem exists_two (gap : Bytes) (n : Int) (blank : ∀ b ∈ gap, Bytes.isBlank b = true)
    (fits : 0 ≤ n ∧ n ≤ 99) :
    ∃ figure : Figure 2, figure.text = gap ++ two n ∧ figure.gap = gap ∧ figure.IsFull ∧
      figure.value = n := by
  obtain ⟨figure, text, front, sign, length, value⟩ :=
    exists_padded 2 2 gap n (by decide) (by decide) blank fits.1 (by omega)
  exact ⟨figure, text, front, ⟨sign, length⟩, value⟩

theorem exists_clock (gap : Bytes) (blank : ∀ b ∈ gap, Bytes.isBlank b = true) (r : Reading)
    (fits : r.Fits) (seconds : Bytes) (written : IsSeconds r.second seconds) :
    ∃ clock : Clock, clock.text = gap ++ clockForm r.hour r.minute seconds ∧
      clock.hour.gap = gap ∧ clock.IsFull ∧ clock.hour.value = r.hour ∧
      clock.minute.value = r.minute ∧ clock.secondValue = r.second := by
  obtain ⟨hour, hourText, hourGap, hourFull, hourValue⟩ := exists_two gap r.hour blank fits.hour
  obtain ⟨minute, minuteText, minuteGap, minuteFull, minuteValue⟩ :=
    exists_two [] r.minute (List.forall_mem_nil _) fits.minute
  rcases written with rfl | ⟨zero, rfl⟩
  · obtain ⟨second, secondText, secondGap, secondFull, secondValue⟩ :=
      exists_two [] r.second (List.forall_mem_nil _) fits.second
    refine ⟨⟨hour, minute, some second⟩, ?_, hourGap,
      ⟨hourFull, ⟨minuteGap, minuteFull⟩, fun other same => ?_⟩, hourValue, minuteValue,
      secondValue⟩
    · simp [Clock.text, Clock.secondText, clockForm, hourText, minuteText, secondText]
    · exact Option.some.inj same ▸ ⟨secondGap, secondFull⟩
  · refine ⟨⟨hour, minute, none⟩, ?_, hourGap,
      ⟨hourFull, ⟨minuteGap, minuteFull⟩, fun _ absent => absurd absent (by simp)⟩, hourValue,
      minuteValue, zero.symm⟩
    simp [Clock.text, Clock.secondText, clockForm, hourText, minuteText]

/-- No blank stands in a text. -/
def Unblank (s : Bytes) : Prop := ∀ b ∈ s, Bytes.isBlank b = false

@[simp] theorem unblank_nil : Unblank [] := List.forall_mem_nil _

@[simp] theorem unblank_append_iff (s t : Bytes) : Unblank (s ++ t) ↔ Unblank s ∧ Unblank t := by
  simp [Unblank, or_imp, forall_and]

@[simp] theorem unblank_cons_iff (b : UInt8) (s : Bytes) :
    Unblank (b :: s) ↔ Bytes.isBlank b = false ∧ Unblank s := by
  simp [Unblank]

theorem unblank_of_isDigit (s : Bytes) (digits : ∀ b ∈ s, Bytes.isDigit b = true) : Unblank s :=
  fun b member => Bytes.isBlank_of_isDigit b (digits b member)

@[simp] theorem unblank_padded (count n : Nat) : Unblank (Numeral.padded count n) :=
  unblank_of_isDigit _ (Numeral.isDigit_of_mem_padded count n)

theorem unblank_dateForm (date : Date) : Unblank (dateForm date) := by
  have hyphen : Bytes.isBlank Mark.hyphen = false := by decide
  simp [dateForm, four, two, hyphen]

theorem unblank_clockForm (hour minute second : Int) (seconds : Bytes)
    (written : IsSeconds second seconds) : Unblank (clockForm hour minute seconds) := by
  have colon : Bytes.isBlank Mark.colon = false := by decide
  rcases written with rfl | ⟨-, rfl⟩ <;> simp [clockForm, two, colon]

theorem unblank_fraction (fraction : Bytes) (skipped : IsFraction fraction) :
    Unblank fraction := by
  rcases skipped with rfl | ⟨digits, rfl, -, digital⟩
  · exact unblank_nil
  · exact (unblank_cons_iff _ _).2 ⟨by decide, unblank_of_isDigit digits digital⟩

theorem unblank_of_isZone (offset : Int) (s : Bytes) (zone : IsZone IsShift offset s) : Unblank s :=
  fun b member => (zone.isLoose.plain_of_mem _ _ b member).1

theorem length_two (n : Int) (fits : 0 ≤ n ∧ n ≤ 99) : (two n).length = 2 :=
  Numeral.length_padded 2 n.toNat (by decide) (by omega)

theorem looksNumeric_dateForm_append (date : Date) (rest : Bytes)
    (year : 1000 ≤ date.year ∧ date.year ≤ 9999) (month : 0 ≤ date.month ∧ date.month ≤ 99)
    (day : 0 ≤ date.day ∧ date.day ≤ 99) : looksNumeric (dateForm date ++ rest) = true := by
  have length : (four date.year).length = 4 := Numeral.length_padded 4 _ (by decide) (by omega)
  have digits := Numeral.isDigit_of_mem_padded 4 date.year.toNat
  obtain ⟨a, b, c, d, split⟩ := List.length_eq_four.1 length
  have first : Bytes.isDigit a = true := digits a (by rw [← four, split]; simp)
  simp only [looksNumeric, dateForm, split, List.cons_append, List.nil_append, List.head?_cons,
    Option.any_some, first, List.length_cons, List.length_append, length_two _ month,
    length_two _ day]
  simp

theorem exists_date (date : Date) (year : 1000 ≤ date.year ∧ date.year ≤ 9999)
    (month : 0 ≤ date.month ∧ date.month ≤ 99) (day : 0 ≤ date.day ∧ date.day ≤ 99) :
    ∃ (years : Figure 4) (months days : Figure 2),
      Writing.dateText years months days = dateForm date ∧ IsFullDate years months days ∧
      ⟨years.value, months.value, days.value⟩ = date := by
  obtain ⟨years, yearText, yearGap, yearSign, yearLength, yearValue⟩ := exists_padded 4 4 []
    date.year (by decide) (by decide) (List.forall_mem_nil _) (by omega) (by omega)
  obtain ⟨months, monthText, monthGap, monthFull, monthValue⟩ :=
    exists_two [] date.month (List.forall_mem_nil _) month
  obtain ⟨days, dayText, dayGap, dayFull, dayValue⟩ :=
    exists_two [] date.day (List.forall_mem_nil _) day
  refine ⟨years, months, days, ?_,
    ⟨⟨yearGap, yearSign, yearLength⟩, ⟨monthGap, monthFull⟩, dayGap, dayFull⟩, ?_⟩
  · rw [Writing.dateText, yearText, monthText, dayText]
    rfl
  · rw [yearValue, monthValue, dayValue]

section

variable {Weekday : Bytes → Prop} {Zone Postal : Int → Bytes → Prop}

theorem InNumericForm.exists_isTaken (narrow : ∀ offset s, Zone offset s → IsZone IsShift offset s)
    (r : Reading) (s : Bytes) (form : InNumericForm Zone r s) (fits : r.Fits) :
    ∃ writing : Writing, writing.IsTaken ∧ writing.IsFormed Weekday Zone Postal ∧
      writing.text = s ∧ writing.reading = r := by
  obtain ⟨year, month, day, dates, full, date⟩ := exists_date r.date fits.year fits.month fits.day
  have numeric (rest : Bytes) : looksNumeric (dateForm r.date ++ rest) = true :=
    looksNumeric_dateForm_append r.date rest fits.year fits.month fits.day
  cases form with
  | date midnight =>
    have whole := numeric []
    rw [List.append_nil, ← dates] at whole
    refine ⟨.date year month day, whole, full, dates, ?_⟩
    obtain ⟨date, hour, minute, second, offset⟩ := r
    obtain ⟨rfl, rfl, rfl, rfl⟩ := midnight
    rw [Writing.reading, date]
  | dateTime separator seconds fraction zone parts second skipped shifted =>
    obtain ⟨clock, clockText, hourGap, clockFull, hourValue, minuteValue, secondValue⟩ :=
      exists_clock [] (List.forall_mem_nil _) r fits seconds second
    have loose : IsLooseFraction fraction := by
      rcases skipped with none | ⟨digits, marked, -, digital⟩
      · exact .inl none
      · exact .inr ⟨_, digits, marked, .inl rfl, digital⟩
    have stands := narrow _ _ shifted
    have trimmed := Bytes.trim_of_not_isBlank zone (unblank_of_isZone _ _ stands)
    rw [← trimmed] at stands
    let written : Writing := .dateTime year month day separator clock fraction
      ⟨zone, r.offset, stands.isLoose⟩ parts loose
    have text : written.text = dateForm r.date ++
        separator :: (clockForm r.hour r.minute seconds ++ (fraction ++ zone)) := by
      rw [Writing.text, dates, clockText]
      rfl
    have looks := numeric (separator :: (clockForm r.hour r.minute seconds ++ (fraction ++ zone)))
    rw [← text] at looks
    refine ⟨written, looks, ⟨full, ⟨hourGap, clockFull⟩, skipped, shifted⟩, text, ?_⟩
    rw [Writing.reading, date, hourValue, minuteValue, secondValue]

end

theorem two_ne_nil (n : Int) : two n ≠ [] := by
  simp [two, Numeral.padded, Numeral.decimal_ne_nil]

theorem IsNumericForm.trim_eq (r : Reading) (s : Bytes) (form : IsNumericForm r s) :
    Bytes.trim s = s := by
  cases form with
  | date midnight => exact Bytes.trim_of_not_isBlank _ (unblank_dateForm r.date)
  | dateTime separator seconds fraction zone parts second skipped shifted =>
    have tail : Unblank (clockForm r.hour r.minute seconds ++ (fraction ++ zone)) := by
      simp only [unblank_append_iff]
      exact ⟨unblank_clockForm _ _ _ _ second, unblank_fraction _ skipped,
        unblank_of_isZone _ _ shifted⟩
    have ends := Bytes.trim_between (dateForm r.date) [separator] _ (by simp [dateForm])
      (by simp [clockForm]) (unblank_dateForm r.date) tail
    simpa using ends

theorem IsMailDay.exists_figure (gap : Bytes) (blank : ∀ b ∈ gap, Bytes.isBlank b = true)
    (n : Int) (fits : 0 ≤ n ∧ n ≤ 99) (s : Bytes) (written : IsMailDay n s) :
    ∃ figure : Figure 2, figure.text = gap ++ s ∧ figure.gap = gap ∧ figure.sign = .none ∧
      figure.value = n := by
  rcases written with rfl | rfl
  · obtain ⟨figure, text, front, full, value⟩ := exists_two gap n blank fits
    exact ⟨figure, text, front, full.1, value⟩
  · obtain ⟨figure, text, front, sign, -, value⟩ := Figure.exists_plain 2 gap
      (Numeral.decimal n.toNat) blank (Numeral.isDigit_of_mem_decimal n.toNat)
      (Numeral.decimal_ne_nil n.toNat)
      ((Numeral.length_decimal_le_iff n.toNat 2 (by decide)).2 (by omega))
    refine ⟨figure, text, front, sign, ?_⟩
    rw [value, Numeral.value_decimal]
    omega

theorem IsMailYear.exists_figure (gap : Bytes) (blank : ∀ b ∈ gap, Bytes.isBlank b = true)
    (n : Int) (fits : 1000 ≤ n ∧ n ≤ 9999) (s : Bytes) (written : IsMailYear n s) :
    ∃ figure : Figure 4, figure.text = gap ++ s ∧ figure.gap = gap ∧ figure.IsYear ∧
      fullYear figure.value = n := by
  rcases written with rfl | ⟨low, high, rfl⟩ | ⟨low, high, rfl⟩
  · obtain ⟨figure, text, front, sign, length, value⟩ := exists_padded 4 4 gap n (by decide)
      (by decide) blank (by omega) (by omega)
    refine ⟨figure, text, front, ⟨sign, .inr ⟨length, by omega⟩⟩, ?_⟩
    rw [value, fullYear]
    grind
  · obtain ⟨figure, text, front, sign, length, value⟩ := exists_padded 4 2 gap (n - 1900)
      (by decide) (by decide) blank (by omega) (by omega)
    refine ⟨figure, text, front, ⟨sign, .inl length⟩, ?_⟩
    rw [value, fullYear]
    grind
  · obtain ⟨figure, text, front, sign, length, value⟩ := exists_padded 4 2 gap (n - 2000)
      (by decide) (by decide) blank (by omega) (by omega)
    refine ⟨figure, text, front, ⟨sign, .inl length⟩, ?_⟩
    rw [value, fullYear]
    grind

theorem IsEnd.isZone_trim {Zone : Int → Bytes → Prop}
    (narrow : ∀ offset s, Zone offset s → IsZone IsShift offset s) (offset : Int) (s : Bytes)
    (written : IsEnd Zone offset s) : IsZone IsShift offset (Bytes.trim s) := by
  rcases written with ⟨rfl, rfl⟩ | ⟨gap, zone, rfl, ⟨-, blank⟩, -, shifted⟩
  · exact .named 0 [] (.utc [] [] (by decide) rfl)
  · have stands := narrow offset zone shifted
    have core := Bytes.trim_of_not_isBlank zone (unblank_of_isZone _ _ stands)
    rwa [Bytes.trim_append_of_isBlank gap zone blank, core]

theorem IsFront.exists_text {Weekday : Bytes → Prop} (s : Bytes) (front : IsFront Weekday s) :
    ∃ (weekday : Option Bytes) (gap : Bytes), s = Writing.weekdayText weekday ++ gap ∧
      (∀ name ∈ weekday, Weekday name) ∧ (∀ b ∈ gap, Bytes.isBlank b = true) ∧
      (weekday = none → gap = []) := by
  rcases front with rfl | ⟨name, gap, rfl, named, blank⟩
  · exact ⟨none, [], rfl, by simp, List.forall_mem_nil _, fun _ => rfl⟩
  · refine ⟨some name, gap, by simp [Writing.weekdayText], ?_, blank, by simp⟩
    rintro other ⟨rfl⟩
    exact named

theorem IsMailDay.isDigit_of_mem (n : Int) (s : Bytes) (written : IsMailDay n s) :
    ∀ b ∈ s, Bytes.isDigit b = true := by
  rcases written with rfl | rfl
  · exact Numeral.isDigit_of_mem_padded 2 n.toNat
  · exact Numeral.isDigit_of_mem_decimal n.toNat

theorem IsMailDay.ne_nil (n : Int) (s : Bytes) (written : IsMailDay n s) : s ≠ [] := by
  rcases written with rfl | rfl
  · exact two_ne_nil n
  · exact Numeral.decimal_ne_nil n.toNat

theorem not_looksNumeric_of_head (s : Bytes) (first : ∀ b ∈ s.head?, Bytes.isDigit b = false) :
    looksNumeric s = false := by
  cases s with
  | nil => rfl
  | cons b s => simp [looksNumeric, first b rfl]

theorem not_looksNumeric_append (front rest : Bytes) (long : 5 ≤ front.length)
    (absent : Mark.hyphen ∉ front) : looksNumeric (front ++ rest) = false := by
  have other : (front ++ rest)[4]? ≠ some Mark.hyphen := by
    rw [List.getElem?_append_left (by omega)]
    exact fun here => absent (List.mem_of_getElem? here)
  simp [looksNumeric, other]

/-- Neither a weekday nor a day with the name of a month looks like a date in the numeric form. -/
theorem not_looksNumeric_mail (weekday : Option Bytes) (gap day rest : Bytes) (month : MonthName)
    (n : Int) (letters : ∀ name ∈ weekday, IsWord name)
    (joined : weekday = none → gap = []) (written : IsMailDay n day) (parted : month.gap ≠ []) :
    looksNumeric (Writing.weekdayText weekday ++ (gap ++ day ++ (month.text ++ rest))) = false := by
  cases weekday with
  | some name =>
    refine not_looksNumeric_of_head _ fun b first => ?_
    have start : b ∈ name ++ [Mark.comma] := by
      rw [List.head?_append_of_ne_nil _ (by simp [Writing.weekdayText])] at first
      exact List.mem_of_head? first
    have apart : ∀ b : UInt8, Bytes.isLetter b = true ∨ b = Mark.comma →
        Bytes.isDigit b = false := Bytes.forall_of_all _ (by decide +kernel)
    exact apart b ((List.mem_append.1 start).imp (letters name rfl b) List.mem_singleton.1)
  | none =>
    rw [joined rfl, Writing.weekdayText, List.nil_append, List.nil_append, ← List.append_assoc]
    have some := List.length_pos_iff.2 written.ne_nil
    have blank := List.length_pos_iff.2 parted
    refine not_looksNumeric_append _ rest ?_ fun hyphen => ?_
    · simp only [MonthName.text, List.length_append, month.length_name]
      omega
    · rcases List.mem_append.1 hyphen with digit | named
      · exact absurd (written.isDigit_of_mem _ _ _ digit) (by decide)
      · rcases List.mem_append.1 named with blank | letter
        · exact absurd (month.gap_blank _ blank) (by decide)
        · exact absurd (month.isLetter_of_mem_name _ letter) (by decide)

theorem InMailForm.exists_isTaken {Weekday : Bytes → Prop} {Zone Postal : Int → Bytes → Prop}
    (words : ∀ name, Weekday name → IsWord name)
    (narrow : ∀ offset s, Postal offset s → IsZone IsShift offset s) (r : Reading) (s : Bytes)
    (form : InMailForm Weekday Postal r s) (fits : r.Fits) :
    ∃ writing : Writing, writing.IsTaken ∧ writing.IsFormed Weekday Zone Postal ∧
      writing.text = s ∧ writing.reading = r := by
  obtain ⟨weekday, day, month, year, seconds, zone, gap₁, gap₂, gap₃, front, days, first, named,
    next, years, last, second, shifted⟩ := form
  obtain ⟨weekday, gap, rfl, weekdays, blank, joined⟩ := front.exists_text
  have letters : ∀ name ∈ weekday, IsWord name := fun name known => words name (weekdays name known)
  obtain ⟨dayFigure, dayText, dayGap, daySign, dayValue⟩ := days.exists_figure gap blank _ fits.day
  obtain ⟨yearFigure, yearText, yearGap, isYear, yearValue⟩ :=
    years.exists_figure gap₂ next.2 _ fits.year
  obtain ⟨clock, clockText, hourGap, clockFull, hourValue, minuteValue, secondValue⟩ :=
    exists_clock gap₃ last.2 r fits seconds second
  have stands := shifted.isZone_trim narrow
  have whole : ∀ name ∈ weekday, Mark.comma ∉ name := fun name known comma =>
    absurd (letters name known _ comma) (by decide)
  let monthName : MonthName := ⟨gap₁, month, r.date.month, first.2, named⟩
  let place : Time.Zone := ⟨zone, r.offset, stands.isLoose⟩
  refine ⟨.mail weekday dayFigure monthName yearFigure clock place whole, ⟨?_, .inr ?_⟩,
    ⟨⟨weekdays, fun none => dayGap.trans (joined none)⟩, daySign, first.1,
      ⟨yearGap ▸ next.1, isYear⟩, ⟨hourGap ▸ last.1, clockFull⟩, shifted⟩, ?_, ?_⟩
  · have looks := not_looksNumeric_mail weekday gap day
      (yearFigure.text ++ (clock.text ++ zone)) monthName _ letters joined days first.1
    rwa [← dayText] at looks
  · obtain ⟨b, more, rfl⟩ := List.exists_cons_of_ne_nil last.1
    have blank := last.2 b List.mem_cons_self
    rw [clockText]
    rintro c ⟨rfl⟩
    exact Bool.eq_false_iff.2 fun digit => by simp [Bytes.isBlank_of_isDigit b digit] at blank
  · simp [Writing.text, Writing.mailText, dayText, MonthName.text, yearText, clockText, monthName,
      place]
  · simp [Writing.reading, yearValue, dayValue, hourValue, minuteValue, secondValue, monthName,
      place]

theorem IsMailForm.trim_eq (r : Reading) (s : Bytes) (form : IsMailForm r s) :
    Bytes.trim s = s := by
  obtain ⟨weekday, day, month, year, seconds, zone, gap₁, gap₂, gap₃, front, days, -, -, -, -, -,
    second, shifted⟩ := form
  have start : ∃ first middle, weekday ++ day = first ++ middle ∧ first ≠ [] ∧ Unblank first := by
    rcases front with rfl | ⟨name, gap, rfl, letters, -⟩
    · exact ⟨day, [], by simp, days.ne_nil, unblank_of_isDigit day days.isDigit_of_mem⟩
    · have plain : Unblank name := fun b member => Bytes.isBlank_of_isLetter b (letters b member)
      have comma : Unblank [Mark.comma] := (unblank_cons_iff _ _).2 ⟨by decide, unblank_nil⟩
      exact ⟨name ++ [Mark.comma], gap ++ day, by simp, by simp,
        (unblank_append_iff _ _).2 ⟨plain, comma⟩⟩
  have final : ∃ middle last, clockForm r.hour r.minute seconds ++ zone = middle ++ last ∧
      last ≠ [] ∧ Unblank last := by
    rcases shifted with ⟨-, rfl⟩ | ⟨gap, core, rfl, -, nonempty, shifted⟩
    · exact ⟨[], clockForm r.hour r.minute seconds, by simp, by simp [clockForm],
        unblank_clockForm _ _ _ _ second⟩
    · exact ⟨clockForm r.hour r.minute seconds ++ gap, core, by simp, nonempty,
        unblank_of_isZone _ _ shifted⟩
  obtain ⟨first, middle, fronts, nonempty, unblank⟩ := start
  obtain ⟨middle', last, ends, nonempty', unblank'⟩ := final
  have whole : weekday ++ (day ++ (gap₁ ++ month ++ (gap₂ ++ year
      ++ (gap₃ ++ clockForm r.hour r.minute seconds ++ zone)))) =
      first ++ (middle ++ gap₁ ++ month ++ gap₂ ++ year ++ gap₃ ++ middle') ++ last := by
    calc
      _ = weekday ++ day ++ (gap₁ ++ month ++ gap₂ ++ year ++ gap₃)
          ++ (clockForm r.hour r.minute seconds ++ zone) := by simp
      _ = _ := by rw [fronts, ends]; simp
  rw [whole]
  exact Bytes.trim_between first _ last nonempty nonempty' unblank unblank'

/-- Whichever form it is written in, a reading is read as its instant, if it has one. -/
theorem read_eq_instant? (r : Reading) (s : Bytes) (form : IsNumericForm r s ∨ IsMailForm r s)
    (fits : r.Fits) : read s = r.instant? := by
  have zones (offset : Int) (s : Bytes) (zone : IsZone IsShift offset s) := zone
  have trimmed : Bytes.trim s = s :=
    form.elim (IsNumericForm.trim_eq r s) (IsMailForm.trim_eq r s)
  obtain ⟨writing, taken, -, text, same⟩ : ∃ writing : Writing, writing.IsTaken ∧
      writing.IsFormed IsWord (IsZone IsShift) (IsZone IsShift) ∧ writing.text = s ∧
      writing.reading = r :=
    form.elim (·.exists_isTaken zones r s fits)
      (·.exists_isTaken (fun _ word => word) zones r s fits)
  rw [writing.read_of_isTaken s taken (text.trans trimmed.symm), same]

/-- Clocks in a documented form are less than a day from UTC. -/
theorem natAbs_offset_lt_of_form (r : Reading) (s : Bytes)
    (form : IsNumericForm r s ∨ IsMailForm r s) : r.offset.natAbs < 86400 := by
  rcases form with numeric | mailed
  · cases numeric with
    | date midnight =>
      rw [midnight.2.2.2]
      decide
    | dateTime _ _ _ _ _ _ _ shifted => exact shifted.natAbs_lt
  · cases mailed with
    | mk _ _ _ _ _ _ _ _ _ _ _ _ _ _ _ _ _ shifted =>
      exact (shifted.isZone_trim fun _ _ zone => zone).natAbs_lt

/-- A clock shows every instant up to the end of the year 2261, wherever it is. -/
theorem Reading.isOnClock_instant (r : Reading) (valid : r.isValid = true)
    (last : r.date.year ≤ 2261) (near : r.offset.natAbs < 86400) : IsOnClock r.instant := by
  obtain ⟨years, day, hours, minutes, seconds⟩ := (Reading.isValid_iff r).1 valid
  have since := Date.dayNumber_lt_iff r.date day 1970
  have before := Date.dayNumber_lt_iff r.date day 2262
  have first : Date.dayNumber ⟨1970, 1, 1⟩ = 0 := by decide
  have final : Date.dayNumber ⟨2262, 1, 1⟩ = 106651 := by decide
  rw [IsOnClock, Reading.instant]
  omega

/-- Whichever documented form a date and a time of day are written in, the instant that is read is
the one that they denote, and a day behind the end of its month is not read. -/
theorem read_of_form (r : Reading) (s : Bytes) (form : IsNumericForm r s ∨ IsMailForm r s)
    (year : 1970 ≤ r.date.year ∧ r.date.year ≤ 2261)
    (month : 1 ≤ r.date.month ∧ r.date.month ≤ 12) (day : 1 ≤ r.date.day ∧ r.date.day ≤ 99)
    (hour : 0 ≤ r.hour ∧ r.hour ≤ 23) (minute : 0 ≤ r.minute ∧ r.minute ≤ 59)
    (second : 0 ≤ r.second ∧ r.second ≤ 60) :
    read s =
      if r.date.day ≤ daysInMonth r.date.year r.date.month then
        some (r.date.daysSinceEpoch * 86400 + 3600 * r.hour + 60 * r.minute + r.second - r.offset)
      else none := by
  have fits : r.Fits := by constructor <;> omega
  have counted := r.date.dayNumber_eq_daysSinceEpoch year.1 month.1 month.2
  have valid : r.isValid = decide (r.date.day ≤ daysInMonth r.date.year r.date.month) := by
    rw [Bool.eq_iff_iff, decide_eq_true_eq, Reading.isValid_iff, Date.isValid_iff]
    omega
  have near := natAbs_offset_lt_of_form r s form
  rw [read_eq_instant? r s form fits, Reading.instant?, valid]
  simp only [decide_eq_true_eq]
  split
  · next inside =>
    have shown := r.isOnClock_instant (valid.trans (decide_eq_true inside)) year.2 near
    rw [onClock_of_isOnClock _ shown, Reading.instant, counted]
    refine congrArg some (?_ : (_ : Int) = _)
    omega
  · rfl

/-- The last day of February of a leap year, in the evening of the Pacific coast. -/
def leapEvening : Reading := ⟨⟨2020, 2, 29⟩, 20, 30, 59, -28800⟩

theorem read_of_form_leapEvening :
    read (Bytes.ofString "2020-02-29t20:30:59.25-08:00") = some 1583037059 ∧
    read (Bytes.ofString "Sat, 29 FEB 20 20:30:59 Pst") = some 1583037059 := by
  have numeric : IsNumericForm leapEvening (Bytes.ofString "2020-02-29t20:30:59.25-08:00") :=
    .dateTime 't'.toUInt8 (Bytes.ofString ":59") (Bytes.ofString ".25") (Bytes.ofString "-08:00")
      (by decide) (.inl rfl) (.inr ⟨two 25, rfl, two_ne_nil 25, Numeral.isDigit_of_mem_padded 2 25⟩)
      (.west 28800 (Bytes.ofString "08:00") ⟨8, 0, by decide, by decide, rfl, .inr (.inl rfl)⟩)
  have gap : IsGap [Mark.space] := ⟨List.cons_ne_nil _ _, List.all_eq_true.1 rfl⟩
  have letters : ∀ b ∈ Bytes.ofString "Sat", Bytes.isLetter b = true := List.all_eq_true.1 rfl
  have mailed : IsMailForm leapEvening (Bytes.ofString "Sat, 29 FEB 20 20:30:59 Pst") :=
    .mk (Bytes.ofString "Sat, ") (Bytes.ofString "29") (Bytes.ofString "FEB") (Bytes.ofString "20")
      (Bytes.ofString ":59") (Bytes.ofString " Pst") [Mark.space] [Mark.space] [Mark.space]
      (.inr ⟨Bytes.ofString "Sat", [Mark.space], rfl, letters, gap.2⟩) (.inl rfl) gap
      (by decide +kernel) gap (.inr (.inr ⟨by decide, by decide, rfl⟩)) gap (.inl rfl)
      (.inr ⟨[Mark.space], Bytes.ofString "Pst", rfl, gap, List.cons_ne_nil _ _,
        .named _ _ (.standard (Bytes.ofString "p", 8) _ (by decide +kernel) rfl)⟩)
  constructor
  · rw [read_of_form leapEvening _ (.inl numeric) (by decide) (by decide) (by decide) (by decide)
      (by decide) (by decide)]
    decide
  · rw [read_of_form leapEvening _ (.inr mailed) (by decide) (by decide) (by decide) (by decide)
      (by decide) (by decide)]
    decide

end FeedIntake.Time
