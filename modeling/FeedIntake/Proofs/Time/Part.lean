import FeedIntake.Proofs.Time.Figure
import FeedIntake.Proofs.Time.Zone

/-!
The parts of written dates behind their numbers: times of day, names of months, zones and fractions
of a second, each as loosely as the readers take it. For each part there is one lemma that it is
read from the front of a text, one that what is read from there is such a part, and one that no
other part stands there.
-/
namespace FeedIntake.Time

theorem Field.exactly_eq_some_iff (b : UInt8) (s rest : Bytes) :
    Field.exactly b s = some rest ↔ s = b :: rest := by
  cases s with
  | nil => simp [Field.exactly]
  | cons c s =>
    by_cases same : c = b <;> simp [Field.exactly, same]

/-- A time of day as it may be written; the seconds may be left out. -/
@[ext] structure Clock where
  hour : Figure 2
  minute : Figure 2
  second : Option (Figure 2)

namespace Clock

def secondText : Option (Figure 2) → Bytes
  | none => []
  | some second => Mark.colon :: second.text

def text (clock : Clock) : Bytes :=
  clock.hour.text ++ Mark.colon :: (clock.minute.text ++ secondText clock.second)

def secondValue (clock : Clock) : Int := (clock.second.map Figure.value).getD 0

/-- Whether no part of a time of day stands in front. -/
def Ends (rest : Bytes) : Prop := ∀ b ∈ rest.head?, Bytes.isDigit b = false ∧ b ≠ Mark.colon

theorem minute_endsBefore (clock : Clock) (rest : Bytes) (ends : Ends rest) :
    clock.minute.EndsBefore (secondText clock.second ++ rest) := by
  refine .inr ?_
  cases clock.second with
  | none => exact fun b first => (ends b first).1
  | some second =>
    rintro b ⟨rfl⟩
    decide

theorem hour_endsBefore (hour : Figure 2) (rest : Bytes) :
    hour.EndsBefore (Mark.colon :: rest) :=
  .inr fun b first => Option.some.inj first ▸ by decide

theorem seconds?_append (clock : Clock) (rest : Bytes) (ends : Ends rest) :
    Field.seconds? (secondText clock.second ++ rest) = some (clock.secondValue, rest) := by
  rw [secondValue]
  cases clock.second with
  | none =>
    cases rest with
    | nil => rfl
    | cons b rest =>
      have other := (ends b rfl).2
      simp only [secondText, List.nil_append, Option.map_none, Option.getD_none]
      unfold Field.seconds?
      split
      · simp_all
      · rfl
  | some second => exact second.number_text_append rest (.inr fun b first => (ends b first).1)

theorem exists_of_seconds? (s rest : Bytes) (n : Int) (read : Field.seconds? s = some (n, rest)) :
    ∃ second : Option (Figure 2),
      s = secondText second ++ rest ∧ (second.map Figure.value).getD 0 = n := by
  unfold Field.seconds? at read
  split at read
  · next behind =>
    obtain ⟨second, rfl, rfl, -⟩ := Figure.exists_of_number _ _ _ read
    exact ⟨some second, rfl, rfl⟩
  · obtain ⟨rfl, rfl⟩ := Prod.mk.inj (Option.some.inj read)
    exact ⟨none, rfl, rfl⟩

theorem comma_not_mem_secondText (second : Option (Figure 2)) :
    Mark.comma ∉ secondText second := by
  cases second with
  | none => exact List.not_mem_nil
  | some second => exact List.not_mem_cons_of_ne_of_not_mem (by decide) second.comma_not_mem

/-- A time of day from the front of a text; `next` goes on with its numbers and the rest. -/
def read {α : Type} (next : (hour minute second : Int) → Bytes → Option α) (s : Bytes) :
    Option α := do
  let (hour, s) ← Field.number 2 s
  let s ← Field.exactly Mark.colon s
  let (minute, s) ← Field.number 2 s
  let (second, s) ← Field.seconds? s
  next hour minute second s

variable {α : Type} (next : (hour minute second : Int) → Bytes → Option α)

theorem read_text_append (clock : Clock) (rest : Bytes) (ends : Ends rest) :
    read next (clock.text ++ rest) =
      next clock.hour.value clock.minute.value clock.secondValue rest := by
  have hour := clock.hour.number_text_append _
    (hour_endsBefore clock.hour (clock.minute.text ++ (secondText clock.second ++ rest)))
  have minute := clock.minute.number_text_append _ (clock.minute_endsBefore rest ends)
  have second := clock.seconds?_append rest ends
  simp only [read, text, List.append_assoc, List.cons_append, hour, Option.bind_eq_bind,
    Option.bind_some, Field.exactly, beq_self_eq_true, if_true, minute, second]

theorem exists_of_read (s : Bytes) (value : α) (found : read next s = some value) :
    ∃ (clock : Clock) (rest : Bytes), s = clock.text ++ rest ∧
      next clock.hour.value clock.minute.value clock.secondValue rest = some value := by
  simp only [read, Option.bind_eq_bind, Option.bind_eq_some_iff, Prod.exists,
    Field.exactly_eq_some_iff] at found
  obtain ⟨_, _, hours, _, rfl, _, _, minutes, _, rest, seconds, found⟩ := found
  obtain ⟨hour, rfl, rfl, -⟩ := Figure.exists_of_number _ _ _ hours
  obtain ⟨minute, rfl, rfl, -⟩ := Figure.exists_of_number _ _ _ minutes
  obtain ⟨second, rfl, rfl⟩ := exists_of_seconds? _ _ _ seconds
  exact ⟨⟨hour, minute, second⟩, rest, by simp [text], found⟩

theorem unique (clock other : Clock) (rest behind : Bytes)
    (same : clock.text ++ rest = other.text ++ behind) (ends : Ends rest) (ends' : Ends behind) :
    clock = other ∧ rest = behind := by
  simp only [text, List.append_assoc, List.cons_append] at same
  obtain ⟨hours, others⟩ := Figure.unique _ _ _ _ same (hour_endsBefore _ _) (hour_endsBefore _ _)
  obtain ⟨minutes, seconds⟩ := Figure.unique _ _ _ _ (List.cons.inj others).2
    (clock.minute_endsBefore rest ends) (other.minute_endsBefore behind ends')
  obtain ⟨hour, minute, second⟩ := clock
  obtain ⟨hour', minute', second'⟩ := other
  obtain rfl : hour = hour' := hours
  obtain rfl : minute = minute' := minutes
  cases second with
  | none =>
    cases second' with
    | none => exact ⟨rfl, seconds⟩
    | some second' => exact absurd rfl (ends Mark.colon (congrArg List.head? seconds)).2
  | some second =>
    cases second' with
    | none => exact absurd rfl (ends' Mark.colon (congrArg List.head? seconds.symm)).2
    | some second' =>
      obtain ⟨rfl, rests⟩ := Figure.unique _ _ _ _ (List.cons.inj seconds).2
        (.inr fun b first => (ends b first).1) (.inr fun b first => (ends' b first).1)
      exact ⟨rfl, rests⟩

end Clock

/-- The months by name. -/
def months : List (Bytes × Int) :=
  [("jan", 1), ("feb", 2), ("mar", 3), ("apr", 4), ("may", 5), ("jun", 6), ("jul", 7), ("aug", 8),
    ("sep", 9), ("oct", 10), ("nov", 11), ("dec", 12)].map
      fun (name, month) => (Bytes.ofString name, month)

theorem month?_eq_some_iff (name : Bytes) (month : Int) :
    month? name = some month ↔ (Bytes.lower name, month) ∈ months := by
  have listed : ∀ row ∈ months,
      (monthNames.idxOf? row.1).map (fun index => (index : Int) + 1) = some row.2 := by decide
  have known : ∀ index : Fin monthNames.length,
      (monthNames[index], (index : Int) + 1) ∈ months := by decide
  rw [month?]
  refine ⟨fun found => ?_, listed (Bytes.lower name, month)⟩
  obtain ⟨place, counted, rfl⟩ := Option.map_eq_some_iff.1 found
  obtain ⟨index, first, same⟩ := Option.bind_eq_some_iff.1 counted
  obtain rfl := Option.some.inj same
  obtain ⟨inside, here, -⟩ := List.idxOf?_eq_some_iff.1 first
  exact here ▸ known ⟨index, inside⟩

/-- The name of a month in any case, as it may be written behind blanks. -/
@[ext] structure MonthName where
  gap : Bytes
  name : Bytes
  month : Int
  gap_blank : ∀ b ∈ gap, Bytes.isBlank b = true
  named : (Bytes.lower name, month) ∈ months

namespace MonthName

def text (month : MonthName) : Bytes := month.gap ++ month.name

theorem length_name (month : MonthName) : month.name.length = 3 := by
  have all : ∀ row ∈ months, row.1.length = 3 := by decide
  simpa [Bytes.lower] using all _ month.named

theorem name_ne_nil (month : MonthName) : month.name ≠ [] :=
  List.ne_nil_of_length_pos (by rw [month.length_name]; decide)

theorem isLetter_of_mem_name (month : MonthName) :
    ∀ b ∈ month.name, Bytes.isLetter b = true := by
  have all : ∀ row ∈ months, row.1.all Bytes.isLetter = true := by decide
  intro b member
  have lowered := List.all_eq_true.1 (all _ month.named) _ (List.mem_map_of_mem member)
  rwa [Bytes.isLetter_lowerByte] at lowered

theorem comma_not_mem (month : MonthName) : Mark.comma ∉ month.text := by
  intro comma
  rcases List.mem_append.1 comma with blank | letter
  · exact absurd (month.gap_blank _ blank) (by decide)
  · exact absurd (month.isLetter_of_mem_name _ letter) (by decide)

theorem dropWhile_text_append (month : MonthName) (rest : Bytes) :
    (month.text ++ rest).dropWhile Bytes.isBlank = month.name ++ rest := by
  rw [text, List.append_assoc]
  refine Bytes.dropWhile_append_of_all _ _ _ month.gap_blank fun b first => ?_
  rw [List.head?_append_of_ne_nil _ month.name_ne_nil] at first
  exact Bytes.isBlank_of_isLetter b (month.isLetter_of_mem_name b (List.mem_of_head? first))

theorem isDigit_head?_text_append (month : MonthName) (rest : Bytes) :
    ∀ b ∈ (month.text ++ rest).head?, Bytes.isDigit b = false := by
  have apart : ∀ b : UInt8, Bytes.isBlank b = true ∨ Bytes.isLetter b = true →
      Bytes.isDigit b = false := Bytes.forall_of_all _ (by decide +kernel)
  intro b first
  refine apart b ?_
  have inside : b ∈ month.text := by
    rw [List.head?_append_of_ne_nil _ (by simp [text, month.name_ne_nil])] at first
    exact List.mem_of_head? first
  exact (List.mem_append.1 inside).imp (month.gap_blank b) (month.isLetter_of_mem_name b)

theorem word_text_append (month : MonthName) (rest : Bytes) :
    Field.word 3 (month.text ++ rest) = some (month.name, rest) := by
  have own : (month.name ++ rest).take 3 = month.name := List.take_left' month.length_name
  have whole : month.name.takeWhile (fun b => !Bytes.isBlank b && b != 0) = month.name := by
    have kept : ∀ b : UInt8, Bytes.isLetter b = true → (!Bytes.isBlank b && b != 0) = true :=
      Bytes.forall_of_all _ (by decide +kernel)
    exact List.takeWhile_eq_self_iff.2 fun b member => kept b (month.isLetter_of_mem_name b member)
  rw [Field.word, month.dropWhile_text_append]
  simp [own, whole, month.name_ne_nil]

theorem exists_of_word (s name rest : Bytes) (month : Int)
    (read : Field.word 3 s = some (name, rest)) (known : month? name = some month) :
    ∃ written : MonthName, s = written.text ++ rest ∧ written.month = month := by
  rw [Field.word] at read
  split at read
  · contradiction
  · obtain ⟨rfl, rfl⟩ := Prod.mk.inj (Option.some.inj read)
    refine ⟨⟨s.takeWhile Bytes.isBlank, _, month, List.all_eq_true.1 List.all_takeWhile,
      (month?_eq_some_iff _ _).1 known⟩, ?_, rfl⟩
    have start := List.prefix_iff_eq_append.1
      ((List.takeWhile_prefix (fun b => !Bytes.isBlank b && b != 0)).trans
        (List.take_prefix 3 (s.dropWhile Bytes.isBlank)))
    rw [text, List.append_assoc, start, List.takeWhile_append_dropWhile]

theorem unique (month other : MonthName) (rest behind : Bytes)
    (same : month.text ++ rest = other.text ++ behind) : month = other ∧ rest = behind := by
  have fronts := congrArg (List.dropWhile Bytes.isBlank) same
  rw [dropWhile_text_append, dropWhile_text_append] at fronts
  obtain ⟨names, rests⟩ := List.append_inj fronts (by rw [length_name, length_name])
  have numbers := (month?_eq_some_iff _ _).2 month.named
  rw [names, (month?_eq_some_iff _ _).2 other.named] at numbers
  have gaps : month.gap = other.gap := by
    rw [text, text, names, rests] at same
    exact List.append_cancel_right (List.append_cancel_right same)
  exact ⟨MonthName.ext gaps names (Option.some.inj numbers).symm, rests⟩

end MonthName

/-- A zone as it may be written, between blanks. -/
@[ext] structure Zone where
  text : Bytes
  offset : Int
  stands : IsZone IsLooseShift offset (Bytes.trim text)

namespace Zone

theorem zone?_text (zone : Zone) : zone? zone.text = some zone.offset :=
  (zone?_eq_some_iff _ _).2 zone.stands

theorem eq_of_text (zone other : Zone) (same : zone.text = other.text) : zone = other := by
  have offsets := zone.zone?_text
  rw [same, other.zone?_text] at offsets
  exact Zone.ext same (Option.some.inj offsets).symm

/-- What begins a zone belongs neither to a time of day nor to a fraction. -/
theorem ends (zone : Zone) : ∀ b ∈ zone.text.head?,
    (Bytes.isDigit b = false ∧ b ≠ Mark.colon) ∧ b ≠ Mark.dot ∧ b ≠ Mark.comma := by
  have apart : ∀ b : UInt8, (Bytes.isBlank b = true ∨ Bytes.isLetter b = true ∨ b = Mark.plus ∨
      b = Mark.hyphen) → (Bytes.isDigit b = false ∧ b ≠ Mark.colon) ∧ b ≠ Mark.dot ∧
        b ≠ Mark.comma := Bytes.forall_of_all _ (by decide +kernel)
  intro b first
  refine apart b ?_
  obtain ⟨before, after, whole, blankBefore, blankAfter⟩ := Bytes.exists_trim zone.text
  rw [whole, List.append_assoc] at first
  rcases before with - | ⟨blank, before⟩
  · cases core : Bytes.trim zone.text with
    | nil =>
      rw [core] at first
      exact .inl (blankAfter b (List.mem_of_head? first))
    | cons c core' =>
      refine .inr (zone.stands.head _ _ b ?_)
      rw [core] at first ⊢
      exact first
  · obtain rfl := Option.some.inj first
    exact .inl (blankBefore blank List.mem_cons_self)

theorem comma_not_mem (zone : Zone) : Mark.comma ∉ zone.text := by
  intro comma
  obtain ⟨before, after, whole, blankBefore, blankAfter⟩ := Bytes.exists_trim zone.text
  rw [whole] at comma
  rcases List.mem_append.1 comma with front | behind
  · rcases List.mem_append.1 front with early | core
    · exact absurd (blankBefore _ early) (by decide)
    · exact (zone.stands.plain_of_mem _ _ _ core).2 rfl
  · exact absurd (blankAfter _ behind) (by decide)

end Zone

/-- A mark with any digits behind it, or nothing. -/
def IsLooseFraction (s : Bytes) : Prop :=
  s = [] ∨ ∃ mark digits, s = mark :: digits ∧ (mark = Mark.dot ∨ mark = Mark.comma) ∧
    ∀ b ∈ digits, Bytes.isDigit b = true

theorem skipFraction_append (fraction : Bytes) (zone : Zone) (loose : IsLooseFraction fraction) :
    skipFraction (fraction ++ zone.text) = zone.text := by
  have ends := zone.ends
  rcases loose with rfl | ⟨mark, digits, rfl, known, digital⟩
  · cases text : zone.text with
    | nil => rfl
    | cons b rest =>
      obtain ⟨-, dot, comma⟩ := ends b (by rw [text]; rfl)
      simp [skipFraction, dot, comma]
  · have marked : (mark == Mark.dot || mark == Mark.comma) = true := by simpa using known
    rw [List.cons_append, skipFraction, if_pos marked]
    exact Bytes.dropWhile_append_of_all _ _ _ digital fun b first => (ends b first).1.1

theorem exists_fraction (s : Bytes) :
    ∃ fraction, s = fraction ++ skipFraction s ∧ IsLooseFraction fraction := by
  cases s with
  | nil => exact ⟨[], rfl, .inl rfl⟩
  | cons b rest =>
    rw [skipFraction]
    split
    · next marked =>
      exact ⟨b :: rest.takeWhile Bytes.isDigit, by simp,
        .inr ⟨b, _, rfl, by simpa using marked, List.all_eq_true.1 List.all_takeWhile⟩⟩
    · exact ⟨[], rfl, .inl rfl⟩

theorem fraction_ends (fraction : Bytes) (zone : Zone) (loose : IsLooseFraction fraction) :
    Clock.Ends (fraction ++ zone.text) := by
  rcases loose with rfl | ⟨mark, digits, rfl, rfl | rfl, -⟩
  · exact fun b first => (zone.ends b first).1
  all_goals
    rintro b ⟨rfl⟩
    decide

end FeedIntake.Time
