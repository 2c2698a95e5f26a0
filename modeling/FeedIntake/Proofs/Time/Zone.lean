import FeedIntake.Proofs.Bytes.Decimal
import FeedIntake.Time.Timestamp

/-!
The zones of written dates. Main statement: a zone is read exactly if it has a name, or hours and
perhaps minutes behind a sign, wherever colons stand between the digits and however large the
numbers are; `IsShift` tells which of these shifts are hours and minutes of a day.
-/
namespace FeedIntake

namespace Time

/-- The zones of the United States by their first letter: how many hours their standard time is
behind UTC. -/
def regions : List (Bytes × Int) :=
  [("e", 5), ("c", 6), ("m", 7), ("p", 8)].map fun (letter, hours) => (Bytes.ofString letter, hours)

/-- A zone by its name, in any case: UTC, which may go without one, and the zones of the United
States, where daylight saving time is one hour ahead of standard time. -/
inductive IsZoneName : Int → Bytes → Prop where
  | utc (name s : Bytes) (known : name ∈ ["", "z", "gmt", "ut", "utc"].map Bytes.ofString)
      (named : Bytes.lower s = name) : IsZoneName 0 s
  | standard (region : Bytes × Int) (s : Bytes) (known : region ∈ regions)
      (named : Bytes.lower s = region.1 ++ Bytes.ofString "st") : IsZoneName (-region.2 * 3600) s
  | daylight (region : Bytes × Int) (s : Bytes) (known : region ∈ regions)
      (named : Bytes.lower s = region.1 ++ Bytes.ofString "dt") :
      IsZoneName ((1 - region.2) * 3600) s

theorem isZoneName_iff (offset : Int) (s : Bytes) :
    IsZoneName offset s ↔ (namedZones.lookup (Bytes.lower s)).map (· * 3600) = some offset := by
  constructor
  · have utc : ∀ name ∈ ["", "z", "gmt", "ut", "utc"].map Bytes.ofString,
      (namedZones.lookup name).map (· * 3600) = some 0 := by decide
    have standard : ∀ region ∈ regions,
      (namedZones.lookup (region.1 ++ Bytes.ofString "st")).map (· * 3600) =
        some (-region.2 * 3600) := by decide
    have daylight : ∀ region ∈ regions,
      (namedZones.lookup (region.1 ++ Bytes.ofString "dt")).map (· * 3600) =
        some ((1 - region.2) * 3600) := by decide
    rintro (⟨name, s, known, named⟩ | ⟨region, s, known, named⟩ | ⟨region, s, known, named⟩)
    · exact named ▸ utc name known
    · exact named ▸ standard region known
    · exact named ▸ daylight region known
  · have rows : ∀ row ∈ namedZones,
      (row.1 ∈ ["", "z", "gmt", "ut", "utc"].map Bytes.ofString ∧ row.2 = 0) ∨
      ∃ region ∈ regions, (row.1 = region.1 ++ Bytes.ofString "st" ∧ row.2 = -region.2) ∨
        (row.1 = region.1 ++ Bytes.ofString "dt" ∧ row.2 = 1 - region.2) := by decide
    intro found
    obtain ⟨hours, listed, rfl⟩ := Option.map_eq_some_iff.1 found
    obtain ⟨front, behind, split, -⟩ := List.lookup_eq_some_iff.1 listed
    rcases rows (Bytes.lower s, hours) (by simp [split]) with
      ⟨known, rfl⟩ | ⟨region, known, ⟨named, rfl⟩ | ⟨named, rfl⟩⟩
    · exact .utc _ s known rfl
    · exact .standard region s known named
    · exact .daylight region s known named

theorem IsZoneName.isLetter (offset : Int) (s : Bytes) (name : IsZoneName offset s) :
    ∀ b ∈ s, Bytes.isLetter b = true := by
  have utc : ∀ name ∈ ["", "z", "gmt", "ut", "utc"].map Bytes.ofString,
    name.all Bytes.isLetter = true := by decide
  have us : ∀ region ∈ regions, (region.1 ++ Bytes.ofString "st").all Bytes.isLetter = true ∧
    (region.1 ++ Bytes.ofString "dt").all Bytes.isLetter = true := by decide
  have letters : (Bytes.lower s).all Bytes.isLetter = true := by
    rcases name with ⟨name, s, known, named⟩ | ⟨region, s, known, named⟩ | ⟨region, s, known, named⟩
    · exact named ▸ utc name known
    · exact named ▸ (us region known).1
    · exact named ▸ (us region known).2
  intro b member
  have lowered := List.all_eq_true.1 letters (Bytes.lowerByte b) (List.mem_map_of_mem member)
  rwa [Bytes.isLetter_lowerByte] at lowered

/-- Hours, and perhaps minutes, with two digits each and any colons: a shift of so many seconds. -/
def IsLooseShift (seconds : Int) (s : Bytes) : Prop :=
  ∃ hours minutes : Bytes, s.filter (· != Mark.colon) = hours ++ minutes ∧
    (∀ b ∈ hours ++ minutes, Bytes.isDigit b = true) ∧ hours.length = 2 ∧
    (minutes = [] ∨ minutes.length = 2) ∧
    seconds = Numeral.value 10 hours * 3600 + Numeral.value 10 minutes * 60

/-- Hours and minutes of a day, which a colon may part; no minutes may be left out. -/
def IsShift (seconds : Int) (s : Bytes) : Prop :=
  ∃ hours minutes : Nat, hours ≤ 23 ∧ minutes ≤ 59 ∧
    seconds = (hours * 3600 + minutes * 60 : Nat) ∧
    (s = Numeral.padded 2 hours ++ Numeral.padded 2 minutes ∨
      s = Numeral.padded 2 hours ++ Mark.colon :: Numeral.padded 2 minutes ∨
      minutes = 0 ∧ s = Numeral.padded 2 hours)

theorem numericZone?_eq_some_iff (s : Bytes) (seconds : Int) :
    numericZone? s = some seconds ↔ IsLooseShift seconds s := by
  rw [numericZone?, IsLooseShift]
  generalize s.filter (· != Mark.colon) = digits
  constructor
  · intro read
    split at read
    · contradiction
    · next digital =>
      have digital : ∀ b ∈ digits, Bytes.isDigit b = true := by simpa using digital
      split at read
      · next hours =>
        obtain rfl := Option.some.inj read
        exact ⟨digits, [], by simp, by simpa using digital, hours, .inl rfl,
          by simp [Numeral.value]⟩
      · split at read
        · next both =>
          obtain rfl := Option.some.inj read
          exact ⟨digits.take 2, digits.drop 2, by simp, by simpa using digital, by simp [both],
            .inr (by simp [both]), rfl⟩
        · contradiction
  · rintro ⟨hours, minutes, rfl, digital, two, rfl | alsoTwo, rfl⟩
    · have all : hours.all Bytes.isDigit = true := by simpa using digital
      simp [all, two, Numeral.value]
    · have all : (hours ++ minutes).all Bytes.isDigit = true := List.all_eq_true.2 digital
      rw [all, List.take_left' two, List.drop_left' two]
      simp [two, alsoTwo]

theorem IsLooseShift.isDigit_or_colon (seconds : Int) (s : Bytes)
    (shift : IsLooseShift seconds s) : ∀ b ∈ s, Bytes.isDigit b = true ∨ b = Mark.colon := by
  obtain ⟨hours, minutes, kept, digital, -⟩ := shift
  intro b member
  by_cases colon : b = Mark.colon
  · exact .inr colon
  · exact .inl (digital b (kept ▸ List.mem_filter.2 ⟨member, by simpa using colon⟩))

theorem isLooseShift_lower_iff (seconds : Int) (s : Bytes) :
    IsLooseShift seconds (Bytes.lower s) ↔ IsLooseShift seconds s := by
  have unlettered : ∀ b : UInt8, Bytes.isDigit b = true ∨ b = Mark.colon →
      Bytes.isLetter b = false := Bytes.forall_of_all _ (by decide +kernel)
  refine ⟨fun shift => ?_, fun shift => ?_⟩
  · rwa [Bytes.lower_of_not_isLetter s fun b member => ?_] at shift
    rw [← Bytes.isLetter_lowerByte]
    exact unlettered _ (shift.isDigit_or_colon _ _ _ (List.mem_map_of_mem member))
  · rwa [Bytes.lower_of_not_isLetter s fun b member =>
      unlettered b (shift.isDigit_or_colon _ _ b member)]

/-- A zone by its name, or by a shift to the east or to the west of UTC. -/
inductive IsZone (Shift : Int → Bytes → Prop) : Int → Bytes → Prop where
  | named (offset : Int) (s : Bytes) (name : IsZoneName offset s) : IsZone Shift offset s
  | east (seconds : Int) (s : Bytes) (shift : Shift seconds s) :
      IsZone Shift seconds (Mark.plus :: s)
  | west (seconds : Int) (s : Bytes) (shift : Shift seconds s) :
      IsZone Shift (-seconds) (Mark.hyphen :: s)

theorem isZone_plus_iff (Shift : Int → Bytes → Prop) (offset : Int) (s : Bytes) :
    IsZone Shift offset (Mark.plus :: s) ↔ Shift offset s := by
  refine ⟨fun zone => ?_, .east offset s⟩
  cases zone with
  | named _ _ name => exact absurd (name.isLetter _ _ _ List.mem_cons_self) (by decide)
  | east _ _ shift => exact shift

theorem isZone_hyphen_iff (Shift : Int → Bytes → Prop) (offset : Int) (s : Bytes) :
    IsZone Shift offset (Mark.hyphen :: s) ↔ ∃ seconds, Shift seconds s ∧ -seconds = offset := by
  refine ⟨fun zone => ?_, ?_⟩
  · cases zone with
    | named _ _ name => exact absurd (name.isLetter _ _ _ List.mem_cons_self) (by decide)
    | west seconds _ shift => exact ⟨seconds, shift, rfl⟩
  · rintro ⟨seconds, shift, rfl⟩
    exact .west seconds s shift

theorem zone?_eq_some_iff (s : Bytes) (offset : Int) :
    zone? s = some offset ↔ IsZone IsLooseShift offset (Bytes.trim s) := by
  have sign (mark b : UInt8) (unlettered : Bytes.isLetter mark = false)
      (lowered : Bytes.lowerByte b = mark) : b = mark := by
    rw [← lowered, Bytes.isLetter_lowerByte] at unlettered
    rwa [Bytes.lowerByte_of_not_isLetter b unlettered] at lowered
  rw [zone?]
  generalize Bytes.trim s = zone
  split
  · next rest lowered =>
    obtain ⟨b, body, rfl, plus, rfl⟩ := List.map_eq_cons_iff.1 lowered
    obtain rfl := sign Mark.plus b (by decide) plus
    rw [numericZone?_eq_some_iff, isZone_plus_iff]
    exact isLooseShift_lower_iff offset body
  · next rest lowered =>
    obtain ⟨b, body, rfl, hyphen, rfl⟩ := List.map_eq_cons_iff.1 lowered
    obtain rfl := sign Mark.hyphen b (by decide) hyphen
    simp only [Option.map_eq_some_iff, numericZone?_eq_some_iff, isZone_hyphen_iff]
    exact exists_congr fun seconds => and_congr_left fun _ => isLooseShift_lower_iff seconds body
  · next notPlus notHyphen =>
    rw [← isZoneName_iff]
    refine ⟨.named offset zone, fun read => ?_⟩
    cases read with
    | named _ _ name => exact name
    | east _ body _ => exact absurd rfl (notPlus (Bytes.lower body))
    | west _ body _ => exact absurd rfl (notHyphen (Bytes.lower body))

theorem IsShift.isLooseShift (seconds : Int) (s : Bytes) (shift : IsShift seconds s) :
    IsLooseShift seconds s := by
  obtain ⟨hours, minutes, hoursBound, minutesBound, rfl, form⟩ := shift
  have kept (n : Nat) : (Numeral.padded 2 n).filter (· != Mark.colon) = Numeral.padded 2 n := by
    refine List.filter_eq_self.2 fun b member => ?_
    have digit := Numeral.isDigit_of_mem_padded 2 n b member
    simpa using fun colon : b = Mark.colon => absurd (colon ▸ digit) (by decide)
  have digits : ∀ b ∈ Numeral.padded 2 hours ++ Numeral.padded 2 minutes,
      Bytes.isDigit b = true := List.forall_mem_append.2
    ⟨Numeral.isDigit_of_mem_padded 2 hours, Numeral.isDigit_of_mem_padded 2 minutes⟩
  have two (n : Nat) (small : n < 100) : (Numeral.padded 2 n).length = 2 :=
    Numeral.length_padded 2 n (by decide) small
  rcases form with rfl | rfl | ⟨rfl, rfl⟩
  · refine ⟨_, _, ?_, digits, two hours (by omega), .inr (two minutes (by omega)), ?_⟩
    · rw [List.filter_append, kept, kept]
    · simp [Numeral.value_padded]
  · refine ⟨_, _, ?_, digits, two hours (by omega), .inr (two minutes (by omega)), ?_⟩
    · rw [List.filter_append, List.filter_cons, kept, kept]
      rfl
    · simp [Numeral.value_padded]
  · refine ⟨_, [], ?_, ?_, two hours (by omega), .inl rfl, ?_⟩
    · rw [kept, List.append_nil]
    · exact fun b member => digits b (List.mem_append_left _ (by simpa using member))
    · have nothing : Numeral.value 10 [] = 0 := rfl
      rw [Numeral.value_padded, nothing]
      omega

theorem IsZone.isLoose (offset : Int) (s : Bytes) (zone : IsZone IsShift offset s) :
    IsZone IsLooseShift offset s := by
  cases zone with
  | named _ _ name => exact .named offset s name
  | east _ body shift => exact .east offset body (shift.isLooseShift _ _)
  | west seconds body shift => exact .west seconds body (shift.isLooseShift _ _)

/-- Clocks in a zone by its name, or by hours and minutes, are less than a day from UTC. -/
theorem IsZone.natAbs_lt (offset : Int) (s : Bytes) (zone : IsZone IsShift offset s) :
    offset.natAbs < 86400 := by
  have hours : ∀ region ∈ regions, 0 < region.2 ∧ region.2 < 24 := by decide
  have day (seconds : Int) (body : Bytes) (shift : IsShift seconds body) :
      seconds.natAbs < 86400 := by
    obtain ⟨hours, minutes, hoursBound, minutesBound, rfl, -⟩ := shift
    omega
  rcases zone with ⟨_, _, name⟩ | ⟨_, body, shift⟩ | ⟨seconds, body, shift⟩
  · rcases name with ⟨_, _, _, _⟩ | ⟨region, _, known, _⟩ | ⟨region, _, known, _⟩
    · decide
    all_goals
      have bounds := hours region known
      omega
  · exact day offset body shift
  · rw [Int.natAbs_neg]
    exact day seconds body shift

/-- A zone has no blanks in it, and no byte that parts a weekday from a date. -/
theorem IsZone.plain_of_mem (offset : Int) (s : Bytes) (zone : IsZone IsLooseShift offset s) :
    ∀ b ∈ s, Bytes.isBlank b = false ∧ b ≠ Mark.comma := by
  have known : ∀ b : UInt8, Bytes.isLetter b = true ∨ Bytes.isDigit b = true ∨
      b = Mark.colon ∨ b = Mark.plus ∨ b = Mark.hyphen →
      Bytes.isBlank b = false ∧ b ≠ Mark.comma := Bytes.forall_of_all _ (by decide +kernel)
  intro b member
  refine known b ?_
  rcases zone with ⟨_, _, name⟩ | ⟨_, body, shift⟩ | ⟨seconds, body, shift⟩
  · exact .inl (name.isLetter _ _ _ member)
  · rcases List.mem_cons.1 member with sign | behind
    · exact .inr (.inr (.inr (.inl sign)))
    · have kind := shift.isDigit_or_colon _ _ _ behind
      exact .inr (kind.imp_right .inl)
  · rcases List.mem_cons.1 member with sign | behind
    · exact .inr (.inr (.inr (.inr sign)))
    · have kind := shift.isDigit_or_colon _ _ _ behind
      exact .inr (kind.imp_right .inl)

/-- A zone begins with a letter or a sign. -/
theorem IsZone.head (offset : Int) (s : Bytes) (zone : IsZone IsLooseShift offset s) :
    ∀ b ∈ s.head?, Bytes.isLetter b = true ∨ b = Mark.plus ∨ b = Mark.hyphen := by
  intro b first
  rcases zone with ⟨_, _, name⟩ | ⟨_, body, shift⟩ | ⟨seconds, body, shift⟩
  · exact .inl (name.isLetter _ _ _ (List.mem_of_head? first))
  · exact .inr (.inl (Option.some.inj first).symm)
  · exact .inr (.inr (Option.some.inj first).symm)

end Time

end FeedIntake
