import FeedIntake.Proofs.Time.Form

/-!
Printed instants. Main statements: an instant that a clock of 64-bit nanoseconds can show is read
again from its printed form if it does not lie before 1970, and one that does is not; and what is
printed of an instant since 1970 is the date and the time of day that it counts from the beginning
of that year.
-/
namespace FeedIntake.Time

/-- What is printed of an instant, number by number. -/
def utcReading (t : Instant) : Reading :=
  let second := (t % 86400).toNat
  ⟨Date.ofDayNumber (t / 86400), (second / 3600 : Nat), (second / 60 % 60 : Nat),
    (second % 60 : Nat), 0⟩

theorem instant_utcReading (t : Instant) : (utcReading t).instant = t := by
  simp only [Reading.instant, utcReading, Date.dayNumber_ofDayNumber]
  omega

theorem isOnClock_of_nonneg (t : Int) (since : 0 ≤ t) (last : t ≤ 9223372036) : IsOnClock t := by
  constructor <;> omega

/-- A clock shows years of four digits. -/
theorem year_of_isOnClock (t : Instant) (shown : IsOnClock t) :
    1000 ≤ (Date.ofDayNumber (t / 86400)).year ∧ (Date.ofDayNumber (t / 86400)).year ≤ 9999 := by
  have valid := Date.isValid_ofDayNumber (t / 86400)
  have early := Date.dayNumber_lt_iff _ valid 1000
  have late := Date.dayNumber_lt_iff _ valid 10000
  have first : Date.dayNumber ⟨1000, 1, 1⟩ = -354285 := by decide
  have last : Date.dayNumber ⟨10000, 1, 1⟩ = 2932897 := by decide
  rw [Date.dayNumber_ofDayNumber] at early late
  obtain ⟨low, high⟩ := shown
  omega

theorem isValid_utcReading (t : Instant) (shown : IsOnClock t) :
    (utcReading t).isValid = decide (0 ≤ t) := by
  have valid := Date.isValid_ofDayNumber (t / 86400)
  have since := Date.dayNumber_lt_iff _ valid 1970
  have first : Date.dayNumber ⟨1970, 1, 1⟩ = 0 := by decide
  have years := year_of_isOnClock t shown
  rw [Date.dayNumber_ofDayNumber, first] at since
  rw [Bool.eq_iff_iff, decide_eq_true_eq, Reading.isValid_iff]
  simp only [utcReading, valid, true_and]
  change _ ↔ (0 : Int) ≤ t
  omega

theorem fits_utcReading (t : Instant) (shown : IsOnClock t) : (utcReading t).Fits := by
  have valid := (Date.isValid_iff _).1 (Date.isValid_ofDayNumber (t / 86400))
  have years := year_of_isOnClock t shown
  have days := Date.daysInMonth_le (Date.ofDayNumber (t / 86400)).year
    (Date.ofDayNumber (t / 86400)).month
  constructor <;> simp only [utcReading] <;> omega

theorem signed_eq_four (year : Int) (first : 1000 ≤ year) (last : year ≤ 9999) :
    Numeral.signed year = four year := by
  have long := Numeral.length_decimal_le_iff year.toNat 3 (by decide)
  have same : year.natAbs = year.toNat := by omega
  have full : 4 - (Numeral.decimal year.toNat).length = 0 := by omega
  rw [Numeral.signed, if_neg (by omega), same, four, Numeral.padded, full]
  rfl

theorem isNumericForm_render (t : Instant) (shown : IsOnClock t) :
    IsNumericForm (utcReading t) (render t) := by
  obtain ⟨first, last⟩ := year_of_isOnClock t shown
  have mark : Bytes.ofString "T" = ['T'.toUInt8] := by decide
  have form : IsNumericForm (utcReading t) _ := .dateTime 'T'.toUInt8
    (Mark.colon :: two (utcReading t).second) [] (Bytes.ofString "Z") (by decide) (.inl rfl)
    (.inl rfl) (.named 0 _ (.utc _ _ (by decide) rfl))
  have text : render t = dateForm (utcReading t).date ++ 'T'.toUInt8 ::
      (clockForm (utcReading t).hour (utcReading t).minute
        (Mark.colon :: two (utcReading t).second) ++ ([] ++ Bytes.ofString "Z")) := by
    simp only [render, mark, signed_eq_four _ first last, utcReading, dateForm, clockForm, two,
      Int.toNat_natCast, List.append_assoc, List.cons_append, List.nil_append]
  rwa [text]

/-- What is printed of an instant is read as the same instant, unless it lies before 1970. -/
theorem read_render (t : Instant) (shown : IsOnClock t) :
    read (render t) = if 0 ≤ t then some t else none := by
  rw [read_eq_instant? _ _ (.inl (isNumericForm_render t shown)) (fits_utcReading t shown),
    Reading.instant?, isValid_utcReading t shown, instant_utcReading, onClock_of_isOnClock t shown]
  simp only [decide_eq_true_eq]

/-- What is printed of an instant since 1970 and read again is that instant, and what stands in
between is the date and the time of day that it counts from the beginning of 1970. -/
theorem read_render_since_epoch (t : Instant) (since : 0 ≤ t) (last : t ≤ 9223372036) :
    read (render t) = some t ∧
      ∃ r : Reading, IsNumericForm r (render t) ∧ r.isValid = true ∧ r.offset = 0 ∧
        r.second ≤ 59 ∧
        r.date.daysSinceEpoch * 86400 + 3600 * r.hour + 60 * r.minute + r.second = t := by
  have shown := isOnClock_of_nonneg t since last
  have valid : (utcReading t).isValid = true := by
    rw [isValid_utcReading t shown]
    exact decide_eq_true since
  obtain ⟨⟨first, -⟩, day, -⟩ := (Reading.isValid_iff _).1 valid
  obtain ⟨january, december, -⟩ := (Date.isValid_iff _).1 day
  have counted := (utcReading t).date.dayNumber_eq_daysSinceEpoch first january december
  have instant := instant_utcReading t
  refine ⟨by rw [read_render t shown, if_pos since], utcReading t, isNumericForm_render t shown,
    valid, rfl, ?_, ?_⟩
  · simp only [utcReading]
    omega
  · rw [Reading.instant, counted] at instant
    change _ - (0 : Int) = t at instant
    omega

/-- The last second of a leap day. -/
theorem read_render_since_epoch_leapDay :
    render 951868799 = Bytes.ofString "2000-02-29T23:59:59Z" ∧
      read (Bytes.ofString "2000-02-29T23:59:59Z") = some 951868799 := by
  have printed : render 951868799 = Bytes.ofString "2000-02-29T23:59:59Z" := by decide +kernel
  refine ⟨printed, ?_⟩
  rw [← printed]
  exact (read_render_since_epoch 951868799 (by decide) (by decide)).1

end FeedIntake.Time
