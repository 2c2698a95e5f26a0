import FeedIntake.Proofs.Time.Part

/-!
What is read as a date. A `Writing` is a text by its parts, as loosely as the readers take them.
Main statements: a text is read only if it is taken apart as a writing, and then as what the numbers
in it say; and it is taken apart in one way at most.
-/
namespace FeedIntake.Time

/-- What parts a date from a time of day. -/
def IsSeparator (b : UInt8) : Prop := b = 'T'.toUInt8 ∨ b = 't'.toUInt8 ∨ b = Mark.space

instance : DecidablePred IsSeparator := fun b =>
  inferInstanceAs (Decidable (b = 'T'.toUInt8 ∨ b = 't'.toUInt8 ∨ b = Mark.space))

theorem isSeparator_iff (b : UInt8) :
    IsSeparator b ↔ (Bytes.lowerByte b != 't'.toUInt8 && b != Mark.space) = false := by
  revert b
  exact Bytes.forall_of_all _ (by decide +kernel)

/-- A written date by its parts: in the numeric form without or with a time of day, or in the mail
form. -/
inductive Writing where
  | date (year : Figure 4) (month day : Figure 2)
  | dateTime (year : Figure 4) (month day : Figure 2) (separator : UInt8) (clock : Clock)
      (fraction : Bytes) (zone : Zone) (parts : IsSeparator separator)
      (loose : IsLooseFraction fraction)
  | mail (weekday : Option Bytes) (day : Figure 2) (month : MonthName) (year : Figure 4)
      (clock : Clock) (zone : Zone) (whole : ∀ name ∈ weekday, Mark.comma ∉ name)

namespace Writing

def dateText (year : Figure 4) (month day : Figure 2) : Bytes :=
  year.text ++ Mark.hyphen :: (month.text ++ Mark.hyphen :: day.text)

def weekdayText : Option Bytes → Bytes
  | none => []
  | some name => name ++ [Mark.comma]

def mailText (day : Figure 2) (month : MonthName) (year : Figure 4) (clock : Clock) (zone : Zone) :
    Bytes :=
  day.text ++ (month.text ++ (year.text ++ (clock.text ++ zone.text)))

def text : Writing → Bytes
  | date year month day => dateText year month day
  | dateTime year month day separator clock fraction zone _ _ =>
    dateText year month day ++ separator :: (clock.text ++ (fraction ++ zone.text))
  | mail weekday day month year clock zone _ =>
    weekdayText weekday ++ mailText day month year clock zone

def reading : Writing → Reading
  | date year month day => ⟨⟨year.value, month.value, day.value⟩, 0, 0, 0, 0⟩
  | dateTime year month day _ clock _ zone _ _ =>
    ⟨⟨year.value, month.value, day.value⟩, clock.hour.value, clock.minute.value,
      clock.secondValue, zone.offset⟩
  | mail _ day month year clock zone _ =>
    ⟨⟨fullYear year.value, month.month, day.value⟩, clock.hour.value, clock.minute.value,
      clock.secondValue, zone.offset⟩

/-- Whether a text is taken apart like this: it looks numeric exactly if it is to be, and a year
that an hour follows at once has all the digits that it may take. -/
def IsTaken (writing : Writing) : Prop :=
  match writing with
  | date _ _ _ | dateTime _ _ _ _ _ _ _ _ _ => looksNumeric writing.text = true
  | mail _ _ _ year clock zone _ =>
    looksNumeric writing.text = false ∧ year.EndsBefore (clock.text ++ zone.text)

theorem hyphen_stops {width : Nat} (figure : Figure width) (rest : Bytes) :
    figure.EndsBefore (Mark.hyphen :: rest) :=
  .inr fun b first => Option.some.inj first ▸ by decide

theorem nil_stops {width : Nat} (figure : Figure width) : figure.EndsBefore [] :=
  .inr fun b first => absurd first (by simp)

theorem separator_stops {width : Nat} (figure : Figure width) (separator : UInt8) (rest : Bytes)
    (parts : IsSeparator separator) : figure.EndsBefore (separator :: rest) := by
  refine .inr fun b first => ?_
  obtain rfl := Option.some.inj first
  rcases parts with rfl | rfl | rfl <;> decide

/-- What the reader of the numeric form does behind a date. -/
def readTime (date : Date) : Bytes → Option Instant
  | [] => Reading.instant? ⟨date, 0, 0, 0, 0⟩
  | b :: s =>
    if Bytes.lowerByte b != 't'.toUInt8 && b != Mark.space then none
    else
      s |> Clock.read fun hour minute second s => do
        let offset ← zone? (skipFraction s)
        Reading.instant? ⟨date, hour, minute, second, offset⟩

theorem readNumeric_dateText_append (year : Figure 4) (month day : Figure 2) (rest : Bytes)
    (stop : day.EndsBefore rest) : readNumeric (dateText year month day ++ rest) =
      readTime ⟨year.value, month.value, day.value⟩ rest := by
  have years := year.number_text_append _
    (hyphen_stops year (month.text ++ Mark.hyphen :: (day.text ++ rest)))
  have months := month.number_text_append _ (hyphen_stops month (day.text ++ rest))
  have days := day.number_text_append rest stop
  simp only [dateText, List.append_assoc, List.cons_append]
  rw [readNumeric, years]
  simp only [Option.bind_eq_bind, Option.bind_some, Field.exactly, beq_self_eq_true, if_true,
    months, days]
  cases rest <;> rfl

theorem exists_dateText (s : Bytes) (t : Instant) (read : readNumeric s = some t) :
    ∃ (year : Figure 4) (month day : Figure 2) (rest : Bytes), s = dateText year month day ++ rest ∧
      readTime ⟨year.value, month.value, day.value⟩ rest = some t := by
  simp only [readNumeric, Option.bind_eq_bind, Option.bind_eq_some_iff, Prod.exists,
    Field.exactly_eq_some_iff] at read
  obtain ⟨_, _, years, _, rfl, _, _, months, _, rfl, _, rest, days, read⟩ := read
  obtain ⟨year, rfl, rfl, -⟩ := Figure.exists_of_number _ _ _ years
  obtain ⟨month, rfl, rfl, -⟩ := Figure.exists_of_number _ _ _ months
  obtain ⟨day, rfl, rfl, -⟩ := Figure.exists_of_number _ _ _ days
  refine ⟨year, month, day, rest, by simp [dateText], ?_⟩
  cases rest with
  | nil => exact read
  | cons b rest => exact read

/-- What the reader of the mail form does behind a weekday. -/
def readBehindWeekday (s : Bytes) : Option Instant := do
  let (day, s) ← Field.number 2 s
  let (name, s) ← Field.word 3 s
  let (year, s) ← Field.number 4 s
  s |> Clock.read fun hour minute second s => do
    let month ← month? name
    let offset ← zone? s
    Reading.instant? ⟨⟨fullYear year, month, day⟩, hour, minute, second, offset⟩

theorem readMail_eq (s : Bytes) : readMail s =
    readBehindWeekday (match Bytes.cut? Mark.comma s with
      | some (_, rest) => Bytes.trim rest
      | none => s) := by
  rw [readMail, readBehindWeekday]
  rfl

theorem readBehindWeekday_dropWhile (s : Bytes) :
    readBehindWeekday (s.dropWhile Bytes.isBlank) = readBehindWeekday s := by
  rw [readBehindWeekday, readBehindWeekday, Field.number_dropWhile]

theorem readBehindWeekday_mailText (day : Figure 2) (month : MonthName) (year : Figure 4)
    (clock : Clock) (zone : Zone) (stop : year.EndsBefore (clock.text ++ zone.text)) :
    readBehindWeekday (mailText day month year clock zone) =
      Reading.instant? ⟨⟨fullYear year.value, month.month, day.value⟩, clock.hour.value,
        clock.minute.value, clock.secondValue, zone.offset⟩ := by
  have days := day.number_text_append _ (.inr (month.isDigit_head?_text_append
    (year.text ++ (clock.text ++ zone.text))))
  have names := month.word_text_append (year.text ++ (clock.text ++ zone.text))
  have years := year.number_text_append _ stop
  have named := (month?_eq_some_iff _ _).2 month.named
  rw [mailText, readBehindWeekday, days]
  simp only [Option.bind_eq_bind, Option.bind_some, names, years]
  rw [Clock.read_text_append _ clock zone.text fun b first => (zone.ends b first).1, named,
    zone.zone?_text]
  rfl

theorem exists_mailText (s : Bytes) (t : Instant) (read : readBehindWeekday s = some t) :
    ∃ (day : Figure 2) (month : MonthName) (year : Figure 4) (clock : Clock) (zone : Zone),
      s = mailText day month year clock zone ∧ year.EndsBefore (clock.text ++ zone.text) := by
  simp only [readBehindWeekday, Option.bind_eq_bind, Option.bind_eq_some_iff, Prod.exists] at read
  obtain ⟨_, _, days, name, _, word, _, _, years, read⟩ := read
  obtain ⟨clock, zone, rfl, rest⟩ := Clock.exists_of_read _ _ _ read
  simp only [Option.bind_eq_some_iff] at rest
  obtain ⟨month, known, offset, shifted, -⟩ := rest
  obtain ⟨day, rfl, -⟩ := Figure.exists_of_number _ _ _ days
  obtain ⟨month, rfl, -⟩ := MonthName.exists_of_word _ _ _ _ word known
  obtain ⟨year, rfl, -, stop⟩ := Figure.exists_of_number _ _ _ years
  exact ⟨day, month, year, clock, ⟨zone, offset, (zone?_eq_some_iff _ _).1 shifted⟩, rfl, stop⟩

theorem readTime_text (date : Date) (separator : UInt8) (clock : Clock) (fraction : Bytes)
    (zone : Zone) (parts : IsSeparator separator) (loose : IsLooseFraction fraction) :
    readTime date (separator :: (clock.text ++ (fraction ++ zone.text))) =
      Reading.instant? ⟨date, clock.hour.value, clock.minute.value, clock.secondValue,
        zone.offset⟩ := by
  rw [readTime, (isSeparator_iff separator).1 parts,
    Clock.read_text_append _ clock _ (fraction_ends fraction zone loose),
    skipFraction_append fraction zone loose, zone.zone?_text]
  rfl

theorem exists_of_readTime (date : Date) (s : Bytes) (t : Instant) (nonempty : s ≠ [])
    (read : readTime date s = some t) :
    ∃ (separator : UInt8) (clock : Clock) (fraction : Bytes) (zone : Zone),
      s = separator :: (clock.text ++ (fraction ++ zone.text)) ∧ IsSeparator separator ∧
        IsLooseFraction fraction := by
  obtain ⟨separator, s, rfl⟩ := List.exists_cons_of_ne_nil nonempty
  rw [readTime] at read
  split at read
  · contradiction
  · next parts =>
    obtain ⟨clock, behind, rfl, rest⟩ := Clock.exists_of_read _ _ _ read
    simp only [Option.bind_eq_bind, Option.bind_eq_some_iff] at rest
    obtain ⟨offset, shifted, -⟩ := rest
    obtain ⟨fraction, whole, loose⟩ := exists_fraction behind
    refine ⟨separator, clock, fraction, ⟨_, offset, (zone?_eq_some_iff _ _).1 shifted⟩, ?_,
      (isSeparator_iff separator).2 (by simpa using parts), loose⟩
    rw [← whole]

theorem comma_not_mem_mailText (day : Figure 2) (month : MonthName) (year : Figure 4)
    (clock : Clock) (zone : Zone) : Mark.comma ∉ mailText day month year clock zone := by
  intro comma
  simp only [mailText, Clock.text, List.mem_append, List.mem_cons] at comma
  rcases comma with
    inside | inside | inside | (inside | same | inside | inside) | inside
  · exact day.comma_not_mem inside
  · exact month.comma_not_mem inside
  · exact year.comma_not_mem inside
  · exact clock.hour.comma_not_mem inside
  · exact absurd same (by decide)
  · exact clock.minute.comma_not_mem inside
  · exact Clock.comma_not_mem_secondText _ inside
  · exact zone.comma_not_mem inside

theorem mailText_ne_nil (day : Figure 2) (month : MonthName) (year : Figure 4) (clock : Clock)
    (zone : Zone) : mailText day month year clock zone ≠ [] := by
  simp [mailText, day.text_ne_nil]

theorem readMail_text (weekday : Option Bytes) (day : Figure 2) (month : MonthName)
    (year : Figure 4) (clock : Clock) (zone : Zone) (whole : ∀ name ∈ weekday, Mark.comma ∉ name)
    (last : ∀ b ∈ (mail weekday day month year clock zone whole).text.getLast?,
      Bytes.isBlank b = false) :
    readMail (mail weekday day month year clock zone whole).text =
      readBehindWeekday (mailText day month year clock zone) := by
  rw [readMail_eq]
  cases weekday with
  | none =>
    rw [text, weekdayText, List.nil_append, Bytes.cut?_of_not_mem Mark.comma _
      (comma_not_mem_mailText day month year clock zone)]
  | some name =>
    have cut := Bytes.cut?_append_cons Mark.comma name (mailText day month year clock zone)
      (whole name rfl)
    have ended : Bytes.trim (mailText day month year clock zone) =
        (mailText day month year clock zone).dropWhile Bytes.isBlank := by
      refine Bytes.trim_of_getLast? _ fun b final => last b ?_
      rw [text, List.getLast?_append_of_ne_nil _ (mailText_ne_nil day month year clock zone)]
      exact final
    rw [text, weekdayText, List.append_assoc, List.singleton_append, cut]
    simp only
    rw [ended, readBehindWeekday_dropWhile]

/-- Nothing at all is read as a text in the mail form would be. -/
theorem read_eq (s : Bytes) : read s =
    if looksNumeric (Bytes.trim s) then readNumeric (Bytes.trim s)
    else readMail (Bytes.trim s) := by
  rw [read]
  cases Bytes.trim s <;> rfl

/-- A text that is taken apart like this says what its parts say. -/
theorem read_of_isTaken (writing : Writing) (s : Bytes) (taken : writing.IsTaken)
    (written : writing.text = Bytes.trim s) : read s = writing.reading.instant? := by
  rw [read_eq, ← written]
  cases writing with
  | date year month day =>
    have numeric : looksNumeric (date year month day).text = true := taken
    have found := readNumeric_dateText_append year month day [] (nil_stops day)
    rw [List.append_nil] at found
    rw [if_pos numeric, text, found]
    rfl
  | dateTime year month day separator clock fraction zone parts loose =>
    have numeric : looksNumeric
      (dateTime year month day separator clock fraction zone parts loose).text = true := taken
    rw [if_pos numeric, text, readNumeric_dateText_append _ _ _ _ (separator_stops day _ _ parts),
      readTime_text _ _ _ _ _ parts loose]
    rfl
  | mail weekday day month year clock zone whole =>
    have last := Bytes.isBlank_getLast?_trim s
    rw [← written] at last
    rw [if_neg (by simp [taken.1]), readMail_text _ _ _ _ _ _ whole last,
      readBehindWeekday_mailText _ _ _ _ _ taken.2]
    rfl

/-- What is read is taken apart. -/
theorem exists_isTaken (s : Bytes) (t : Instant) (found : read s = some t) :
    ∃ writing : Writing, writing.IsTaken ∧ writing.text = Bytes.trim s := by
  rw [read_eq] at found
  split at found
  · next numeric =>
    obtain ⟨year, month, day, rest, whole, behind⟩ := exists_dateText _ _ found
    rw [whole] at numeric ⊢
    by_cases nothing : rest = []
    · rw [nothing, List.append_nil] at numeric ⊢
      exact ⟨date year month day, numeric, rfl⟩
    · obtain ⟨separator, clock, fraction, zone, rfl, parts, loose⟩ :=
        exists_of_readTime _ _ _ nothing behind
      exact ⟨dateTime year month day separator clock fraction zone parts loose, numeric, rfl⟩
  · next mailed =>
    rw [Bool.not_eq_true] at mailed
    rw [readMail_eq] at found
    by_cases comma : Mark.comma ∈ Bytes.trim s
    · obtain ⟨name, rest, whole, absent⟩ := List.eq_append_cons_of_mem comma
      have last := Bytes.isBlank_getLast?_trim s
      rw [whole] at found mailed last ⊢
      rw [Bytes.cut?_append_cons _ _ _ absent] at found
      have ended : Bytes.trim rest = rest.dropWhile Bytes.isBlank := by
        refine Bytes.trim_of_getLast? rest fun b final => last b ?_
        rw [List.getLast?_append, List.getLast?_cons, final]
        rfl
      simp only [ended, readBehindWeekday_dropWhile] at found
      obtain ⟨day, month, year, clock, zone, rfl, stop⟩ := exists_mailText _ _ found
      refine ⟨mail (some name) day month year clock zone ?_, ⟨?_, stop⟩, ?_⟩
      · exact fun other same => Option.some.inj same ▸ absent
      · simpa [text, weekdayText] using mailed
      · simp [text, weekdayText]
    · rw [Bytes.cut?_of_not_mem _ _ comma] at found
      obtain ⟨day, month, year, clock, zone, whole, stop⟩ := exists_mailText _ _ found
      change Bytes.trim s = _ at whole
      rw [whole] at mailed ⊢
      exact ⟨mail none day month year clock zone (by simp), ⟨mailed, stop⟩, rfl⟩

theorem dateText_unique (year year' : Figure 4) (month month' day day' : Figure 2)
    (rest behind : Bytes)
    (same : dateText year month day ++ rest = dateText year' month' day' ++ behind)
    (stop : day.EndsBefore rest) (stop' : day'.EndsBefore behind) :
    (year = year' ∧ month = month' ∧ day = day') ∧ rest = behind := by
  simp only [dateText, List.append_assoc, List.cons_append] at same
  obtain ⟨years, others⟩ := Figure.unique _ _ _ _ same (hyphen_stops _ _) (hyphen_stops _ _)
  obtain ⟨months, others⟩ := Figure.unique _ _ _ _ (List.cons.inj others).2
    (hyphen_stops _ _) (hyphen_stops _ _)
  obtain ⟨days, rests⟩ := Figure.unique _ _ _ _ (List.cons.inj others).2 stop stop'
  exact ⟨⟨years, months, days⟩, rests⟩

theorem timeText_unique (clock clock' : Clock) (fraction fraction' : Bytes) (zone zone' : Zone)
    (same : clock.text ++ (fraction ++ zone.text) = clock'.text ++ (fraction' ++ zone'.text))
    (loose : IsLooseFraction fraction) (loose' : IsLooseFraction fraction') :
    clock = clock' ∧ fraction = fraction' ∧ zone = zone' := by
  obtain ⟨clocks, ends⟩ := Clock.unique _ _ _ _ same (fraction_ends _ _ loose)
    (fraction_ends _ _ loose')
  -- Behind both fractions stands what is left when one has been skipped.
  have zones := congrArg skipFraction ends
  rw [skipFraction_append _ _ loose, skipFraction_append _ _ loose'] at zones
  obtain rfl := Zone.eq_of_text _ _ zones
  exact ⟨clocks, List.append_cancel_right ends, rfl⟩

theorem mailText_unique (day day' : Figure 2) (month month' : MonthName) (year year' : Figure 4)
    (clock clock' : Clock) (zone zone' : Zone)
    (same : mailText day month year clock zone = mailText day' month' year' clock' zone')
    (stop : year.EndsBefore (clock.text ++ zone.text))
    (stop' : year'.EndsBefore (clock'.text ++ zone'.text)) :
    day = day' ∧ month = month' ∧ year = year' ∧ clock = clock' ∧ zone = zone' := by
  simp only [mailText] at same
  obtain ⟨days, others⟩ := Figure.unique _ _ _ _ same
    (.inr (month.isDigit_head?_text_append _)) (.inr (month'.isDigit_head?_text_append _))
  obtain ⟨months, others⟩ := MonthName.unique _ _ _ _ others
  obtain ⟨years, others⟩ := Figure.unique _ _ _ _ others stop stop'
  obtain ⟨clocks, zones⟩ := Clock.unique _ _ _ _ others
    (fun b first => (zone.ends b first).1) fun b first => (zone'.ends b first).1
  exact ⟨days, months, years, clocks, Zone.eq_of_text _ _ zones⟩

theorem weekdayText_unique (weekday weekday' : Option Bytes) (rest behind : Bytes)
    (same : weekdayText weekday ++ rest = weekdayText weekday' ++ behind)
    (whole : ∀ name ∈ weekday, Mark.comma ∉ name) (whole' : ∀ name ∈ weekday', Mark.comma ∉ name)
    (absent : Mark.comma ∉ rest) (absent' : Mark.comma ∉ behind) :
    weekday = weekday' ∧ rest = behind := by
  have cut (weekday : Option Bytes) (rest : Bytes) (whole : ∀ name ∈ weekday, Mark.comma ∉ name)
      (absent : Mark.comma ∉ rest) : Bytes.cut? Mark.comma (weekdayText weekday ++ rest) =
        weekday.map fun name => (name, rest) := by
    cases weekday with
    | none => exact Bytes.cut?_of_not_mem _ rest absent
    | some name =>
      rw [weekdayText, List.append_assoc]
      exact Bytes.cut?_append_cons _ name rest (whole name rfl)
  have cuts := cut weekday rest whole absent
  rw [same, cut weekday' behind whole' absent'] at cuts
  obtain rfl : weekday = weekday' := by
    simpa [Option.map_map, Function.comp_def] using (congrArg (Option.map Prod.fst) cuts).symm
  exact ⟨rfl, List.append_cancel_left same⟩

/-- A text is taken apart in one way at most. -/
theorem unique (writing other : Writing) (taken : writing.IsTaken) (taken' : other.IsTaken)
    (same : writing.text = other.text) : writing = other := by
  have parted {numeric mailed : Writing} (looks : looksNumeric numeric.text = true)
      (other : looksNumeric mailed.text = false) (same : numeric.text = mailed.text) : False := by
    rw [same, other] at looks
    contradiction
  cases writing with
  | date year month day =>
    cases other with
    | date year' month' day' =>
      rw [text, text, ← List.append_nil (dateText year month day),
        ← List.append_nil (dateText year' _ _)] at same
      obtain ⟨⟨rfl, rfl, rfl⟩, -⟩ := dateText_unique _ _ _ _ _ _ _ _ same (nil_stops _)
        (nil_stops _)
      rfl
    | dateTime year' month' day' separator clock fraction zone parts loose =>
      rw [text, text, ← List.append_nil (dateText year month day)] at same
      obtain ⟨-, rests⟩ := dateText_unique _ _ _ _ _ _ _ _ same (nil_stops _)
        (separator_stops _ _ _ parts)
      contradiction
    | mail => exact (parted taken taken'.1 same).elim
  | dateTime year month day separator clock fraction zone parts loose =>
    cases other with
    | date year' month' day' =>
      rw [text, text, ← List.append_nil (dateText year' _ _)] at same
      obtain ⟨-, rests⟩ := dateText_unique _ _ _ _ _ _ _ _ same
        (separator_stops _ _ _ parts) (nil_stops _)
      contradiction
    | dateTime year' month' day' separator' clock' fraction' zone' parts' loose' =>
      rw [text, text] at same
      obtain ⟨⟨rfl, rfl, rfl⟩, rests⟩ := dateText_unique _ _ _ _ _ _ _ _ same
        (separator_stops _ _ _ parts) (separator_stops _ _ _ parts')
      obtain ⟨rfl, behind⟩ := List.cons.inj rests
      obtain ⟨rfl, rfl, rfl⟩ := timeText_unique _ _ _ _ _ _ behind loose loose'
      rfl
    | mail => exact (parted taken taken'.1 same).elim
  | mail weekday day month year clock zone whole =>
    cases other with
    | mail weekday' day' month' year' clock' zone' whole' =>
      rw [text, text] at same
      obtain ⟨rfl, bodies⟩ := weekdayText_unique _ _ _ _ same whole whole'
        (comma_not_mem_mailText _ _ _ _ _) (comma_not_mem_mailText _ _ _ _ _)
      obtain ⟨rfl, rfl, rfl, rfl, rfl⟩ := mailText_unique _ _ _ _ _ _ _ _ _ _ bodies taken.2
        taken'.2
      rfl
    | date => exact (parted taken' taken.1 same.symm).elim
    | dateTime => exact (parted taken' taken.1 same.symm).elim

end Writing

end FeedIntake.Time
