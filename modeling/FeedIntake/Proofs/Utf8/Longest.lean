import FeedIntake.Proofs.Utf8.Character

/-!
Cuts keep as much as they may. Main statement: a cut text is the longest beginning of the text that
has no more characters than the limit, whatever bytes it is made of; of a well-formed text it is the
first characters, as many as the limit says; and a shortened text is the text itself, or such a
beginning with the placeholder behind it that fills the width exactly where the placeholder fits in.
-/
namespace FeedIntake.Utf8

/-- The longest of the beginnings of a text that have at most so many characters. -/
structure IsLongest (limit : Nat) (s front : Bytes) : Prop where
  begins : front <+: s
  fits : length front ≤ limit
  longest : ∀ other, other <+: s → length other ≤ limit → other.length ≤ front.length

theorem length_le_of_prefix (front s : Bytes) (begins : front <+: s) : length front ≤ length s := by
  obtain ⟨rest, rfl⟩ := begins
  rw [length_append]
  exact Nat.le_add_right _ _

/-- Behind a cut stands the first byte of a character for which there is no room. -/
theorem isLongest_truncate (limit : Nat) (s : Bytes) : IsLongest limit s (truncate limit s) := by
  obtain ⟨rest, whole, cut⟩ := exists_truncate limit s
  have begins : truncate limit s <+: s := ⟨rest, whole.symm⟩
  have counted := length_truncate limit s
  refine ⟨begins, counted ▸ Nat.min_le_left _ _, fun other starts fits => ?_⟩
  rcases List.prefix_or_prefix_of_prefix starts begins with shorter | ⟨more, longer⟩
  · exact shorter.length_le
  · cases more with
    | nil => rw [← longer, List.append_nil]
    | cons b more =>
      have first : isContinuation b = false := by
        rw [whole, ← longer, List.prefix_append_right_inj] at starts
        obtain ⟨behind, same⟩ := starts
        exact cut b (by rw [← same]; rfl)
      have beyond := length_le_of_prefix other s starts
      rw [← longer, length_append, length_cons, first] at fits beyond
      simp only [Bool.false_eq_true, if_false] at fits beyond
      omega

/-- A character is a byte that begins one and bytes that continue it. -/
theorem IsCharacter.exists_lead (s : Bytes) (character : IsCharacter s) :
    ∃ lead tails, s = lead :: tails ∧ isContinuation lead = false ∧
      ∀ b ∈ tails, isContinuation b = true := by
  have first : ∀ lead state, State.start.step lead = some state → isContinuation lead = false := by
    intro lead state step
    refine Bool.eq_false_iff.2 fun continues => ?_
    rw [State.step_start_of_continuation lead continues] at step
    contradiction
  have tail : ∀ b, IsTail b → isContinuation b = true := fun b range =>
    isContinuation_of_mem_range b (UInt8.le_iff_toNat_le.2 range.1)
      (UInt8.le_iff_toNat_le.2 range.2)
  rcases (closes_of_isCharacter s character).shape with
    ⟨b, rfl, step⟩ | ⟨lead, second, tails, least, most, rfl, step, ⟨low, high⟩, plain⟩
  · exact ⟨b, [], rfl, first b _ step, nofun⟩
  · obtain ⟨floor, -, ceiling⟩ := State.range_of_step_start _ _ _ _ step
    refine ⟨lead, second :: tails, rfl, first lead _ step, List.forall_mem_cons.2 ⟨?_, ?_⟩⟩
    · exact tail second ⟨floor.trans low, high.trans ceiling⟩
    · exact fun b member => tail b (plain b member)

theorem truncate_append_of_continuation (limit : Nat) (tails rest : Bytes)
    (inside : ∀ b ∈ tails, isContinuation b = true) :
    truncate limit (tails ++ rest) = tails ++ truncate limit rest := by
  induction tails with
  | nil => rfl
  | cons b tails ih =>
    obtain ⟨first, others⟩ := List.forall_mem_cons.1 inside
    rw [List.cons_append, truncate_cons_of_continuation limit b _ first, ih others,
      List.cons_append]

theorem truncate_chars (limit : Nat) (chars : List Char) :
    truncate limit (chars.flatMap String.utf8EncodeChar) =
      (chars.take limit).flatMap String.utf8EncodeChar := by
  induction chars generalizing limit with
  | nil => simp
  | cons c chars ih =>
    obtain ⟨lead, tails, written, first, inside⟩ := IsCharacter.exists_lead _ ⟨c, rfl⟩
    rw [List.flatMap_cons, written, List.cons_append]
    cases limit with
    | zero => rw [truncate_zero_cons lead _ first, List.take_zero, List.flatMap_nil]
    | succ limit =>
      rw [truncate_succ_cons limit lead _ first, truncate_append_of_continuation limit _ _ inside,
        ih, List.take_succ_cons, List.flatMap_cons, written, List.cons_append]

theorem IsCharacter.length_eq (s : Bytes) (character : IsCharacter s) : length s = 1 := by
  obtain ⟨lead, tails, rfl, first, inside⟩ := character.exists_lead
  have none : length tails = 0 := List.countP_eq_zero.2 fun b member => by simp [inside b member]
  rw [length_cons, none, first]
  rfl

theorem length_chars (chars : List Char) :
    length (chars.flatMap String.utf8EncodeChar) = chars.length := by
  induction chars with
  | nil => rfl
  | cons c chars ih =>
    rw [List.flatMap_cons, length_append, IsCharacter.length_eq _ ⟨c, rfl⟩, ih, List.length_cons,
      Nat.add_comm]

/-- Cuts are exact, in characters. -/
theorem truncate_exact (s : Bytes) :
    (∀ limit, IsLongest limit s (truncate limit s) ∧
      length (truncate limit s) = min limit (length s)) ∧
    (isValid s = true → ∃ chars : List Char, s = chars.flatMap String.utf8EncodeChar ∧
      length s = chars.length ∧ ∀ limit, isValid (truncate limit s) = true ∧
        truncate limit s = (chars.take limit).flatMap String.utf8EncodeChar) ∧
    ∀ width placeholder,
      (length s ≤ width → shorten width placeholder s = s) ∧
      (width < length s → ∃ front, IsLongest (width - length placeholder) s front ∧
        shorten width placeholder s = front ++ placeholder ∧
        length (shorten width placeholder s) = max width (length placeholder)) := by
  refine ⟨fun limit => ⟨isLongest_truncate limit s, length_truncate limit s⟩, fun valid => ?_,
    fun width placeholder => ⟨fun short => if_pos short, fun long => ?_⟩⟩
  · obtain ⟨chars, rfl⟩ := (isValid_iff_exists_chars s).1 valid
    exact ⟨chars, rfl, length_chars chars, fun limit =>
      ⟨isValid_truncate limit _ valid, truncate_chars limit chars⟩⟩
  · obtain ⟨cut, filled⟩ := shorten_of_lt width placeholder s long
    exact ⟨_, isLongest_truncate _ s, cut, filled⟩

-- Bytes that continue no character go with what stands in front of them.
example : truncate 1 [0x80, 0xC3, 0xA9, 0xBF, 0x61] = [0x80, 0xC3, 0xA9, 0xBF] := by decide

end FeedIntake.Utf8
