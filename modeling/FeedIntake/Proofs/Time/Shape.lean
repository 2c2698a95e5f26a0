import FeedIntake.Proofs.Time.Form

/-!
What is let in as a date. Main statement: a text is read exactly if it can be taken apart as a
`Writing` whose numbers are in their ranges, and it can be taken apart in one way only. So it has a
documented shape exactly if every part of this writing is written as the form has it, and the
instant that is read is the one that the clock showed exactly if the nanoseconds of 64 bits reach
that far.
-/
namespace FeedIntake.Time

/-- The seconds that a clock shows without regard to its zone. -/
def Reading.localInstant (r : Reading) : Int :=
  r.date.dayNumber * 86400 + r.hour * 3600 + r.minute * 60 + r.second

/-- The days of the week by name. -/
def weekdays : List Bytes :=
  ["monday", "tuesday", "wednesday", "thursday", "friday", "saturday", "sunday"].map Bytes.ofString

/-- A day of the week in any case, by its name or by the first three letters of it. -/
def IsWeekday (s : Bytes) : Prop :=
  ∃ day ∈ weekdays, Bytes.lower s = day ∨ Bytes.lower s = day.take 3

/-- Hours and minutes of a day, two digits each; a colon may stand between them if it is `parted`.
-/
def IsFullShift (parted : Bool) (seconds : Int) (s : Bytes) : Prop :=
  ∃ hours minutes : Nat, hours ≤ 23 ∧ minutes ≤ 59 ∧
    seconds = (hours * 3600 + minutes * 60 : Nat) ∧
    (s = Numeral.padded 2 hours ++ Numeral.padded 2 minutes ∨
      parted = true ∧ s = Numeral.padded 2 hours ++ Mark.colon :: Numeral.padded 2 minutes)

/-- A zone of the numeric form: `Z` or a shift, or none. -/
def IsInternetZone (offset : Int) (s : Bytes) : Prop :=
  IsZone (IsFullShift true) offset s ∧
    ((∃ b ∈ s, Bytes.isLetter b = true) → Bytes.lower s = Bytes.ofString "z")

/-- A zone of the mail form: a name or a shift without a colon. -/
def IsPostalZone (offset : Int) (s : Bytes) : Prop := IsZone (IsFullShift false) offset s

/-- The documented shape of a text: one of the two forms, with its numbers in their ranges. -/
def HasShape (s : Bytes) : Prop :=
  ∃ r : Reading, r.isValid = true ∧
    (InNumericForm IsInternetZone r s ∨ InMailForm IsWeekday IsPostalZone r s)

/-- Whether every part of a writing is written as it is documented. -/
def Writing.IsDocumented (writing : Writing) : Prop :=
  writing.IsFormed IsWeekday IsInternetZone IsPostalZone

theorem IsWeekday.isWord (s : Bytes) (named : IsWeekday s) : IsWord s := by
  have letters : ∀ day ∈ weekdays, day.all Bytes.isLetter = true ∧
      (day.take 3).all Bytes.isLetter = true := by decide
  obtain ⟨day, known, same⟩ := named
  have lowered : (Bytes.lower s).all Bytes.isLetter = true :=
    same.elim (fun whole => whole ▸ (letters day known).1)
      fun short => short ▸ (letters day known).2
  intro b member
  have lower := List.all_eq_true.1 lowered (Bytes.lowerByte b) (List.mem_map_of_mem member)
  rwa [Bytes.isLetter_lowerByte] at lower

theorem IsFullShift.isShift (parted : Bool) (seconds : Int) (s : Bytes)
    (shift : IsFullShift parted seconds s) : IsShift seconds s := by
  obtain ⟨hours, minutes, hoursBound, minutesBound, same, together | ⟨-, apart⟩⟩ := shift
  · exact ⟨hours, minutes, hoursBound, minutesBound, same, .inl together⟩
  · exact ⟨hours, minutes, hoursBound, minutesBound, same, .inr (.inl apart)⟩

theorem IsZone.isShift (parted : Bool) (offset : Int) (s : Bytes)
    (zone : IsZone (IsFullShift parted) offset s) : IsZone IsShift offset s := by
  cases zone with
  | named _ _ name => exact .named offset s name
  | east _ body shift => exact .east offset body (shift.isShift _ _ _)
  | west seconds body shift => exact .west seconds body (shift.isShift _ _ _)

theorem IsInternetZone.isZone (offset : Int) (s : Bytes) (zone : IsInternetZone offset s) :
    IsZone IsShift offset s := zone.1.isShift

theorem IsPostalZone.isZone (offset : Int) (s : Bytes) (zone : IsPostalZone offset s) :
    IsZone IsShift offset s := IsZone.isShift false offset s zone

/-- However colons and digits are written, two digits of hours and two of minutes are no more than
four days and some hours. -/
theorem IsZone.natAbs_le_of_loose (offset : Int) (s : Bytes) (zone : IsZone IsLooseShift offset s) :
    offset.natAbs ≤ 362340 := by
  have loose (seconds : Int) (body : Bytes) (shift : IsLooseShift seconds body) :
      seconds.natAbs ≤ 362340 := by
    obtain ⟨hours, minutes, -, digital, two, none_or_two, rfl⟩ := shift
    have digits := List.forall_mem_append.1 digital
    have hoursBound := Numeral.value_lt hours digits.1
    have minutesBound : Numeral.value 10 minutes < 100 := by
      rcases none_or_two with rfl | alsoTwo
      · decide
      · have bound := Numeral.value_lt minutes digits.2
        rwa [alsoTwo] at bound
    rw [two] at hoursBound
    omega
  cases zone with
  | named _ _ name =>
    exact (IsZone.natAbs_lt offset s (.named offset s name)).le.trans (by decide)
  | east _ body shift => exact loose offset body shift
  | west seconds body shift =>
    rw [Int.natAbs_neg]
    exact loose seconds body shift

theorem Writing.natAbs_offset_le (writing : Writing) :
    writing.reading.offset.natAbs ≤ 362340 := by
  cases writing with
  | date => exact Nat.zero_le _
  | dateTime _ _ _ _ _ _ zone => exact zone.stands.natAbs_le_of_loose
  | mail _ _ _ _ _ zone => exact zone.stands.natAbs_le_of_loose

theorem Writing.IsDocumented.natAbs_offset_lt (writing : Writing)
    (documented : writing.IsDocumented) : writing.reading.offset.natAbs < 86400 := by
  cases writing with
  | date => exact Nat.zero_lt_succ _
  | dateTime => exact documented.2.2.2.isZone.natAbs_lt
  | mail => exact (documented.2.2.2.2.2.isZone_trim fun _ _ zone => zone.isZone).natAbs_lt

theorem Figure.value_of_sign {width : Nat} (figure : Figure width) (sign : figure.sign = .none) :
    figure.value = Numeral.value 10 figure.digits := by
  rw [value, sign]
  rfl

theorem Figure.padded_value {width : Nat} (figure : Figure width) (sign : figure.sign = .none) :
    Numeral.padded figure.digits.length figure.value.toNat = figure.digits := by
  rw [figure.value_of_sign sign, Int.toNat_natCast]
  exact Numeral.padded_value _ figure.digits_ne_nil figure.digits_isDigit

theorem Figure.text_of_sign {width : Nat} (figure : Figure width) (sign : figure.sign = .none) :
    figure.text = figure.gap ++ figure.digits := by
  rw [text, sign]
  rfl

theorem Figure.text_of_isFull {width : Nat} (figure : Figure width) (full : figure.IsFull) :
    figure.text = figure.gap ++ Numeral.padded width figure.value.toNat := by
  rw [figure.text_of_sign full.1, ← figure.padded_value full.1, full.2]

theorem Writing.dateText_of_isFullDate (year : Figure 4) (month day : Figure 2)
    (full : IsFullDate year month day) :
    dateText year month day = dateForm ⟨year.value, month.value, day.value⟩ := by
  obtain ⟨⟨yearGap, yearFull⟩, ⟨monthGap, monthFull⟩, dayGap, dayFull⟩ := full
  rw [dateText, year.text_of_isFull yearFull, month.text_of_isFull monthFull,
    day.text_of_isFull dayFull, yearGap, monthGap, dayGap]
  rfl

theorem Clock.exists_seconds (clock : Clock) (full : clock.IsFull) :
    ∃ seconds, IsSeconds clock.secondValue seconds ∧
      clock.text = clock.hour.gap ++ clockForm clock.hour.value clock.minute.value seconds := by
  obtain ⟨hourFull, ⟨minuteGap, minuteFull⟩, secondFull⟩ := full
  have hours := clock.hour.text_of_isFull hourFull
  have minutes := clock.minute.text_of_isFull minuteFull
  rw [minuteGap, List.nil_append] at minutes
  obtain ⟨hour, minute, second⟩ := clock
  cases second with
  | none => exact ⟨[], .inr ⟨rfl, rfl⟩, by simp [text, secondText, clockForm, two, hours, minutes]⟩
  | some second =>
    obtain ⟨gap, own⟩ := secondFull second rfl
    have seconds := second.text_of_isFull own
    rw [gap, List.nil_append] at seconds
    exact ⟨Mark.colon :: two second.value, .inl rfl,
      by simp [text, secondText, clockForm, two, hours, minutes, seconds]⟩

theorem Figure.isMailDay (day : Figure 2) (sign : day.sign = .none) :
    IsMailDay day.value day.digits := by
  have filled := day.padded_value sign
  have some := List.length_pos_iff.2 day.digits_ne_nil
  have fits : day.sign.text.length + day.digits.length ≤ 2 := day.fits
  rcases (by omega : day.digits.length = 2 ∨ day.digits.length = 1) with two | one
  · rw [two] at filled
    exact .inl filled.symm
  · refine .inr ?_
    rw [day.value_of_sign sign, Int.toNat_natCast,
      Numeral.decimal_value _ day.digits_ne_nil day.digits_isDigit fun _ => one]

theorem Figure.isMailYear (year : Figure 4) (written : year.IsYear) :
    IsMailYear (fullYear year.value) year.digits := by
  obtain ⟨sign, two | ⟨four, full⟩⟩ := written
  · have filled := year.padded_value sign
    have small := Numeral.value_lt year.digits year.digits_isDigit
    rw [two] at filled small
    rw [year.value_of_sign sign] at filled ⊢
    refine .inr ?_
    by_cases late : Numeral.value 10 year.digits < 70
    · refine .inr ⟨?_, ?_, ?_⟩ <;> simp only [fullYear, Time.two]
      all_goals grind
    · refine .inl ⟨?_, ?_, ?_⟩ <;> simp only [fullYear, Time.two]
      all_goals grind
  · have filled := year.padded_value sign
    rw [four] at filled
    have same : fullYear year.value = year.value := by
      rw [fullYear, if_neg (by omega), if_neg (by omega)]
    rw [same]
    exact .inl filled.symm

/-- What is written as a form has it is a text in that form. -/
theorem Writing.IsFormed.form {Weekday : Bytes → Prop} {Zone Postal : Int → Bytes → Prop}
    (writing : Writing) (formed : writing.IsFormed Weekday Zone Postal) :
    InNumericForm Zone writing.reading writing.text ∨
      InMailForm Weekday Postal writing.reading writing.text := by
  cases writing with
  | date year month day =>
    rw [text, dateText_of_isFullDate year month day formed]
    exact .inl (.date ⟨rfl, rfl, rfl, rfl⟩)
  | dateTime year month day separator clock fraction zone parts loose =>
    obtain ⟨dates, ⟨hourGap, clockFull⟩, skipped, shifted⟩ := formed
    obtain ⟨seconds, second, clocks⟩ := clock.exists_seconds clockFull
    rw [hourGap, List.nil_append] at clocks
    rw [text, dateText_of_isFullDate year month day dates, clocks]
    exact .inl (.dateTime separator seconds fraction zone.text parts second skipped shifted)
  | mail weekday day month year clock zone whole =>
    obtain ⟨⟨weekdays, joined⟩, daySign, monthGap, ⟨yearGap, isYear⟩, ⟨hourGap, clockFull⟩,
      shifted⟩ := formed
    obtain ⟨seconds, second, clocks⟩ := clock.exists_seconds clockFull
    have front : IsFront Weekday (weekdayText weekday ++ day.gap) := by
      cases weekday with
      | none => exact .inl (joined rfl)
      | some name =>
        exact .inr ⟨name, day.gap, by simp [weekdayText], weekdays name rfl, day.gap_blank⟩
    have form : InMailForm Weekday Postal _ _ := .mk _ day.digits month.name year.digits seconds
      zone.text month.gap year.gap clock.hour.gap front (day.isMailDay daySign)
      ⟨monthGap, month.gap_blank⟩ month.named ⟨yearGap, year.gap_blank⟩ (year.isMailYear isYear)
      ⟨hourGap, clock.hour.gap_blank⟩ second shifted
        (r := (mail weekday day month year clock zone whole).reading)
    have text : (mail weekday day month year clock zone whole).text =
        weekdayText weekday ++ day.gap ++ (day.digits ++ (month.gap ++ month.name ++
          (year.gap ++ year.digits ++ (clock.hour.gap ++
            clockForm clock.hour.value clock.minute.value seconds ++ zone.text)))) := by
      simp [text, mailText, day.text_of_sign daySign, MonthName.text,
        year.text_of_sign isYear.1, clocks]
    exact .inr (text ▸ form)

theorem Reading.fits_of_isValid (r : Reading) (valid : r.isValid = true) : r.Fits := by
  obtain ⟨years, day, hours, minutes, seconds⟩ := (Reading.isValid_iff r).1 valid
  have days := (Date.isValid_iff r.date).1 day
  have short := Date.daysInMonth_le r.date.year r.date.month
  constructor <;> omega

/-- A text has the documented shape exactly if the one writing that it is taken apart as is written
as it is documented. -/
theorem Writing.hasShape_iff (writing : Writing) (taken : writing.IsTaken)
    (valid : writing.reading.isValid = true) : HasShape writing.text ↔ writing.IsDocumented := by
  refine ⟨?_, fun documented => ⟨writing.reading, valid, documented.form⟩⟩
  rintro ⟨r, inside, form⟩
  obtain ⟨other, taken', documented, same, -⟩ : ∃ other : Writing, other.IsTaken ∧
      other.IsDocumented ∧ other.text = writing.text ∧ other.reading = r :=
    form.elim
      (·.exists_isTaken (fun _ _ zone => zone.isZone) r _ (r.fits_of_isValid inside))
      (·.exists_isTaken (fun _ named => named.isWord) (fun _ _ zone => zone.isZone) r _
        (r.fits_of_isValid inside))
  rwa [Writing.unique writing other taken taken' same.symm]

/-- What is read of a number of seconds is near what the clock showed exactly if the zone is less
than a day away and the nanoseconds fit. -/
theorem Writing.natAbs_onClock_sub_lt_iff (writing : Writing) :
    (onClock writing.reading.instant - writing.reading.localInstant).natAbs < 86400 ↔
      IsOnClock writing.reading.instant ∧ writing.reading.offset.natAbs < 86400 := by
  have near := writing.natAbs_offset_le
  have shift : writing.reading.instant =
      writing.reading.localInstant - writing.reading.offset := rfl
  by_cases shown : IsOnClock writing.reading.instant
  · rw [onClock_of_isOnClock _ shown]
    simp only [shown, true_and]
    omega
  · have turn := natAbs_onClock_sub _ shown
    simp only [shown, false_and, iff_false]
    omega

/-- What is read is a writing with its numbers in their ranges, and it is the instant that a clock
of 64-bit nanoseconds shows for them. A text is one writing only, so this one decides: the text has
the documented shape exactly if every part is written as it is documented, and the instant is less
than a day from what the clock showed exactly if the zone is and the nanoseconds fit; the documented
zones are all that near. -/
theorem read_eq_some_iff_isTaken (s : Bytes) (t : Instant) :
    (read s = some t ↔ ∃ writing : Writing, writing.IsTaken ∧ writing.text = Bytes.trim s ∧
      writing.reading.isValid = true ∧ onClock writing.reading.instant = t) ∧
    ∀ writing : Writing, writing.IsTaken → writing.text = Bytes.trim s → read s = some t →
      (HasShape (Bytes.trim s) ↔ writing.IsDocumented) ∧
      ((t - writing.reading.localInstant).natAbs < 86400 ↔
        IsOnClock writing.reading.instant ∧ writing.reading.offset.natAbs < 86400) ∧
      (writing.IsDocumented → writing.reading.offset.natAbs < 86400) := by
  have said (writing : Writing) (taken : writing.IsTaken) (written : writing.text = Bytes.trim s) :
      read s = some t ↔
        writing.reading.isValid = true ∧ onClock writing.reading.instant = t := by
    rw [writing.read_of_isTaken s taken written, Reading.instant?]
    split <;> simp_all
  refine ⟨⟨fun found => ?_, ?_⟩, fun writing taken written found => ?_⟩
  · obtain ⟨writing, taken, written⟩ := Writing.exists_isTaken s t found
    exact ⟨writing, taken, written, (said writing taken written).1 found⟩
  · rintro ⟨writing, taken, written, value⟩
    exact (said writing taken written).2 value
  · obtain ⟨valid, rfl⟩ := (said writing taken written).1 found
    exact ⟨written ▸ writing.hasShape_iff taken valid, writing.natAbs_onClock_sub_lt_iff,
      fun documented => documented.natAbs_offset_lt⟩

/-- A figure without blanks in front. -/
def Figure.ofDigits {width : Nat} (sign : Sign) (digits : Bytes)
    (digital : digits.all Bytes.isDigit = true) (nonempty : digits.isEmpty = false)
    (fits : sign.text.length + digits.length ≤ width) : Figure width where
  gap := []
  sign
  digits
  gap_blank := List.forall_mem_nil _
  digits_isDigit := List.all_eq_true.1 digital
  digits_ne_nil := List.isEmpty_eq_false_iff.1 nonempty
  fits

/-- January written as a sum. -/
def signedMonth : Writing :=
  .date (.ofDigits .none (Bytes.ofString "2020") rfl rfl (by decide))
    (.ofDigits .plus (Bytes.ofString "1") rfl rfl (by decide))
    (.ofDigits .none (Bytes.ofString "02") rfl rfl (by decide))

/-- A clock that is said to be four days from UTC. -/
def distantClock : Writing :=
  .dateTime (.ofDigits .none (Bytes.ofString "2020") rfl rfl (by decide))
    (.ofDigits .none (Bytes.ofString "01") rfl rfl (by decide))
    (.ofDigits .none (Bytes.ofString "02") rfl rfl (by decide))
    'T'.toUInt8
    ⟨.ofDigits .none (Bytes.ofString "03") rfl rfl (by decide),
      .ofDigits .none (Bytes.ofString "04") rfl rfl (by decide),
      some (.ofDigits .none (Bytes.ofString "05") rfl rfl (by decide))⟩
    []
    ⟨Bytes.ofString "+99:99", 362340, (zone?_eq_some_iff _ _).1 rfl⟩
    (by decide) (.inl rfl)

/-- A day behind the end of the clock. -/
def distantDay : Writing :=
  .date (.ofDigits .none (Bytes.ofString "2500") rfl rfl (by decide))
    (.ofDigits .none (Bytes.ofString "01") rfl rfl (by decide))
    (.ofDigits .none (Bytes.ofString "01") rfl rfl (by decide))

/-- A text of the documented shape is read as a day of 1915, since no clock shows the one it says.
-/
theorem read_eq_some_iff_isTaken_distantDay :
    read (Bytes.ofString "2500-01-01") = some (-1721518473) ∧
    HasShape (Bytes.ofString "2500-01-01") ∧
    ¬ (-1721518473 - distantDay.reading.localInstant).natAbs < 86400 := by
  have found : read (Bytes.ofString "2500-01-01") = some (-1721518473) := by decide +kernel
  have trimmed : distantDay.text = Bytes.trim (Bytes.ofString "2500-01-01") := by decide
  obtain ⟨shape, near, -⟩ := (read_eq_some_iff_isTaken _ _).2 distantDay rfl trimmed found
  rw [near]
  refine ⟨found, ?_, fun shown => absurd shown.1 (by decide)⟩
  exact shape.2 ⟨⟨rfl, rfl, rfl⟩, ⟨rfl, rfl, rfl⟩, rfl, rfl, rfl⟩

/-- A month with a sign is read, although it has no documented shape, and so is a shift of more than
a day. -/
theorem read_signed_month :
    read (Bytes.ofString "2020-+1-02") = some 1577923200 ∧
    ¬ HasShape (Bytes.ofString "2020-+1-02") ∧
    read (Bytes.ofString "2020-01-02T03:04:05+99:99") = some 1577571905 ∧
    ∀ writing : Writing, writing.IsTaken →
      writing.text = Bytes.ofString "2020-01-02T03:04:05+99:99" →
      86400 ≤ (1577571905 - writing.reading.localInstant).natAbs := by
  refine ⟨by decide +kernel, ?_, by decide +kernel, ?_⟩
  · have shape := signedMonth.hasShape_iff rfl rfl
    intro found
    exact absurd (shape.1 found).2.1.2.1 (by decide)
  · intro writing taken written
    rw [Writing.unique writing distantClock taken rfl written]
    decide

end FeedIntake.Time
