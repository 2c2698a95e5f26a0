import FeedIntake.Proofs.Bytes.Split

/-!
The first occurrence of a pattern in a text. What is found begins with the pattern and ends the
text, and text without the pattern's first byte is passed over.
-/
namespace FeedIntake.Bytes

theorem from?_cons (pattern : Bytes) (b : UInt8) (s : Bytes) :
    from? pattern (b :: s) = if pattern <+: b :: s then some (b :: s) else from? pattern s := by
  rw [from?]
  simp only [List.isPrefixOf_iff_prefix]

theorem eq_of_from? (pattern s rest : Bytes) (found : from? pattern s = some rest) :
    pattern <+: rest ∧ rest <:+ s := by
  induction s with
  | nil =>
    obtain ⟨empty, same⟩ := Option.ite_none_right_eq_some.1 found
    rw [List.isEmpty_iff.1 empty, ← Option.some.inj same]
    exact ⟨List.nil_prefix, List.suffix_refl _⟩
  | cons b s ih =>
    rw [from?_cons] at found
    split at found
    · next front =>
      obtain rfl := Option.some.inj found
      exact ⟨front, List.suffix_refl _⟩
    · obtain ⟨front, behind⟩ := ih found
      exact ⟨front, behind.trans (List.suffix_cons b s)⟩

theorem isInfix_of_from? (pattern s rest : Bytes) (found : from? pattern s = some rest) :
    pattern <:+: s := by
  obtain ⟨front, behind⟩ := eq_of_from? pattern s rest found
  exact front.isInfix.trans behind.isInfix

theorem from?_eq_none (pattern s : Bytes) (absent : ¬ pattern <:+: s) : from? pattern s = none :=
  Option.eq_none_iff_forall_ne_some.2 fun rest found =>
    absent (isInfix_of_from? pattern s rest found)

/-- A text is what stands in front of a pattern, the pattern, and what stands behind it. -/
theorem eq_of_breakOn? (pattern s front back : Bytes)
    (broken : breakOn? pattern s = some (front, back)) : s = front ++ pattern ++ back := by
  obtain ⟨rest, found, same⟩ := Option.map_eq_some_iff.1 broken
  obtain ⟨rfl, rfl⟩ := Prod.mk.inj same
  obtain ⟨⟨behind, rfl⟩, ⟨before, rfl⟩⟩ := eq_of_from? pattern s rest found
  simp

theorem breakOn?_eq_none_iff (pattern s : Bytes) :
    breakOn? pattern s = none ↔ from? pattern s = none := Option.map_eq_none_iff

theorem breakOn?_of_from? (pattern front back : Bytes)
    (found : from? pattern (front ++ pattern ++ back) = some (pattern ++ back)) :
    breakOn? pattern (front ++ pattern ++ back) = some (front, back) := by
  rw [breakOn?, found]
  simp

/-- A pattern does not begin where its first byte is missing. -/
theorem from?_append_of_not_mem (first : UInt8) (pattern front rest : Bytes)
    (absent : first ∉ front) :
    from? (first :: pattern) (front ++ rest) = from? (first :: pattern) rest := by
  induction front with
  | nil => rfl
  | cons b front ih =>
    have other : first ≠ b := List.ne_of_not_mem_cons absent
    rw [List.cons_append, from?_cons, if_neg (by simp [List.cons_prefix_cons, other]),
      ih (List.not_mem_of_not_mem_cons absent)]

end FeedIntake.Bytes
