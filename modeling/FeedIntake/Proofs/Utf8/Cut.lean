import FeedIntake.Utf8

/-!
Texts that are cut. Main statement: a cut keeps as many characters as there is room for, and a
shortened text has no more characters than it may have, whatever bytes it is made of.
-/
namespace FeedIntake.Utf8

/-- A continuation byte stays with the character in front of it. -/
theorem truncateOnto_cons_of_continuation (kept : Bytes) (room : Nat) (b : UInt8) (rest : Bytes)
    (inside : isContinuation b = true) :
    truncateOnto kept room (b :: rest) = truncateOnto (b :: kept) room rest := by
  cases room <;> simp [truncateOnto, inside]

theorem truncateOnto_eq (kept : Bytes) (room : Nat) (s : Bytes) :
    truncateOnto kept room s = kept.reverse ++ truncate room s := by
  induction s generalizing kept room with
  | nil => simp [truncateOnto, truncate]
  | cons b rest ih =>
    cases first : isContinuation b with
    | true =>
      rw [truncate, truncateOnto_cons_of_continuation _ _ _ _ first,
        truncateOnto_cons_of_continuation _ _ _ _ first, ih (b :: kept), ih [b]]
      simp
    | false =>
      cases room with
      | zero => simp [truncate, truncateOnto, first]
      | succ room =>
        have later := ih (b :: kept) room
        have alone := ih [b] room
        simp [truncate, truncateOnto, first, later, alone]

@[simp] theorem truncate_nil (limit : Nat) : truncate limit [] = [] := rfl

theorem truncate_cons_of_continuation (limit : Nat) (b : UInt8) (rest : Bytes)
    (inside : isContinuation b = true) :
    truncate limit (b :: rest) = b :: truncate limit rest := by
  rw [truncate, truncateOnto_cons_of_continuation _ _ _ _ inside, truncateOnto_eq]
  rfl

theorem truncate_zero_cons (b : UInt8) (rest : Bytes) (first : isContinuation b = false) :
    truncate 0 (b :: rest) = [] := by
  simp [truncate, truncateOnto, first]

theorem truncate_succ_cons (limit : Nat) (b : UInt8) (rest : Bytes)
    (first : isContinuation b = false) :
    truncate (limit + 1) (b :: rest) = b :: truncate limit rest := by
  simp [truncate, truncateOnto, first, truncateOnto_eq [b]]

@[simp] theorem length_nil : length [] = 0 := rfl

theorem length_cons (b : UInt8) (rest : Bytes) :
    length (b :: rest) = length rest + if isContinuation b then 0 else 1 := by
  rw [length, List.countP_cons]
  cases isContinuation b <;> rfl

theorem length_append (s t : Bytes) : length (s ++ t) = length s + length t :=
  List.countP_append

theorem length_truncate (limit : Nat) (s : Bytes) :
    length (truncate limit s) = min limit (length s) := by
  induction s generalizing limit with
  | nil => simp
  | cons b rest ih =>
    cases first : isContinuation b with
    | true => simp [truncate_cons_of_continuation, length_cons, first, ih]
    | false =>
      cases limit with
      | zero => simp [truncate_zero_cons, first]
      | succ limit =>
        rw [truncate_succ_cons limit b rest first, length_cons, length_cons, ih, first]
        simp only [Bool.false_eq_true, if_false]
        omega

/-- Nothing is left of a text only if nothing was there, as long as there is room for a character.
-/
theorem truncate_eq_nil_iff (limit : Nat) (s : Bytes) (room : 0 < limit) :
    truncate limit s = [] ↔ s = [] := by
  obtain ⟨limit, rfl⟩ := Nat.exists_eq_add_of_lt room
  cases s with
  | nil => simp
  | cons b rest =>
    cases first : isContinuation b with
    | true => simp [truncate_cons_of_continuation, first]
    | false => simp [truncate_succ_cons, first]

/-- A text that is too long is cut so that there is room for the placeholder. -/
theorem shorten_of_lt (width : Nat) (placeholder s : Bytes) (long : width < length s) :
    shorten width placeholder s = truncate (width - length placeholder) s ++ placeholder ∧
      length (shorten width placeholder s) = max width (length placeholder) := by
  have cut : shorten width placeholder s =
      truncate (width - length placeholder) s ++ placeholder := if_neg (Nat.not_le.2 long)
  refine ⟨cut, ?_⟩
  rw [cut, length_append, length_truncate]
  omega

theorem length_shorten_le (width : Nat) (placeholder s : Bytes) :
    length (shorten width placeholder s) ≤ max width (length placeholder) := by
  rcases Nat.lt_or_ge width (length s) with long | short
  · exact Nat.le_of_eq (shorten_of_lt width placeholder s long).2
  · rw [shorten, if_pos short]
    exact Nat.le_trans short (Nat.le_max_left _ _)

end FeedIntake.Utf8
