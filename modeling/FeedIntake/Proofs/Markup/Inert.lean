import FeedIntake.Intake.Normalize
import FeedIntake.Proofs.Bytes.Blank
import FeedIntake.Proofs.Markup.Plain

/-!
Fragments without markup. A text is inert if no tag and no unknown reference begins in it: it shows
itself and nothing else, wherever it is put into a page. Main statements: what is escaped is inert
and shows the text it was made from; and content comes out inert exactly if it is short enough to be
kept as HTML, or if the text it shows is inert itself.
-/
namespace FeedIntake.Fragment

open Bytes

/-- There is no less-than sign in a text, and every ampersand begins one of the references. -/
def IsInert (s : Bytes) : Prop :=
  Mark.less ∉ s ∧ ∀ before after, s = before ++ Mark.ampersand :: after →
    ∃ reference ∈ references, reference.1 <+: after

theorem isInert_nil : IsInert [] := by
  refine ⟨List.not_mem_nil, fun before after empty => ?_⟩
  simp at empty

theorem isInert_cons (b : UInt8) (s : Bytes) :
    IsInert (b :: s) ↔ b ≠ Mark.less ∧
      (b = Mark.ampersand → ∃ reference ∈ references, reference.1 <+: s) ∧ IsInert s := by
  constructor
  · rintro ⟨untagged, referring⟩
    refine ⟨(List.ne_of_not_mem_cons untagged).symm, fun same => ?_,
      List.not_mem_of_not_mem_cons untagged, fun before after split => ?_⟩
    · exact referring [] s (by rw [same, List.nil_append])
    · exact referring (b :: before) after (by rw [split, List.cons_append])
  · rintro ⟨other, first, untagged, referring⟩
    refine ⟨List.not_mem_cons_of_ne_of_not_mem (Ne.symm other) untagged, ?_⟩
    intro before after split
    cases before with
    | nil =>
      obtain ⟨same, rfl⟩ := List.cons.inj split
      exact first same
    | cons front before => exact referring before after (List.cons.inj split).2

instance decideInert : (s : Bytes) → Decidable (IsInert s)
  | [] => isTrue isInert_nil
  | b :: s =>
    have := decideInert s
    decidable_of_iff _ (isInert_cons b s).symm

/-- References are written with letters and a semicolon. -/
theorem letters_of_mem_references (reference : Bytes × UInt8) (listed : reference ∈ references)
    (c : UInt8) (inside : c ∈ reference.1) :
    isBlank c = false ∧ c ≠ Mark.ampersand ∧ c ≠ Mark.less := by
  have table : references.all (fun reference => reference.1.all fun c =>
      !isBlank c && (c != Mark.ampersand && c != Mark.less)) = true := by decide
  have letter := List.all_eq_true.1 (List.all_eq_true.1 table reference listed) c inside
  simpa using letter

/-- A blank ends every reference, so that what stands before it and what stands behind it can be
looked at apart. -/
theorem isInert_append_cons (front rest : Bytes) (b : UInt8) (blank : isBlank b = true) :
    IsInert (front ++ b :: rest) ↔ IsInert front ∧ IsInert rest := by
  have unnamed : ∀ reference ∈ references, b ∉ reference.1 := by
    intro reference listed inside
    rw [(letters_of_mem_references reference listed b inside).1] at blank
    contradiction
  induction front with
  | nil =>
    have untagged : b ≠ Mark.less := by
      rintro rfl
      contradiction
    have plain : b ≠ Mark.ampersand := by
      rintro rfl
      contradiction
    simp [isInert_cons, isInert_nil, untagged, plain]
  | cons first front ih =>
    have same : (∃ reference ∈ references, reference.1 <+: front ++ b :: rest) ↔
        ∃ reference ∈ references, reference.1 <+: front := by
      refine exists_congr fun reference => and_congr_right fun listed => ?_
      exact prefix_append_cons_iff b _ front rest (unnamed reference listed)
    simp only [List.cons_append, isInert_cons, ih, same, and_assoc]

theorem isInert_blanks_append (blanks s : Bytes) (blank : ∀ b ∈ blanks, isBlank b = true) :
    IsInert (blanks ++ s) ↔ IsInert s := by
  induction blanks with
  | nil => rfl
  | cons b blanks ih =>
    have first := isInert_append_cons [] (blanks ++ s) b (blank b List.mem_cons_self)
    have later := ih fun c member => blank c (List.mem_cons_of_mem _ member)
    rw [List.cons_append, ← List.nil_append (b :: (blanks ++ s)), first, later]
    exact and_iff_right isInert_nil

theorem isInert_append_blanks (s blanks : Bytes) (blank : ∀ b ∈ blanks, isBlank b = true) :
    IsInert (s ++ blanks) ↔ IsInert s := by
  cases blanks with
  | nil => rw [List.append_nil]
  | cons b blanks =>
    have behind : IsInert blanks := by
      have alone := isInert_blanks_append blanks [] fun c member =>
        blank c (List.mem_cons_of_mem _ member)
      rw [List.append_nil] at alone
      exact alone.2 isInert_nil
    rw [isInert_append_cons s blanks b (blank b List.mem_cons_self)]
    exact and_iff_left behind

theorem isInert_trim (s : Bytes) : IsInert (trim s) ↔ IsInert s := by
  obtain ⟨before, after, whole, blankBefore, blankAfter⟩ := exists_trim s
  have same : IsInert s ↔ IsInert (before ++ trim s ++ after) := by rw [← whole]
  rw [same, isInert_append_blanks _ _ blankAfter, isInert_blanks_append _ _ blankBefore]

theorem isInert_join (sep : UInt8) (parts : List Bytes) (blank : isBlank sep = true) :
    IsInert (join sep parts) ↔ ∀ part ∈ parts, IsInert part := by
  induction parts with
  | nil => simp [isInert_nil]
  | cons part parts ih =>
    cases parts with
    | nil => simp
    | cons next parts =>
      rw [join_cons_cons, isInert_append_cons _ _ _ blank, ih]
      exact List.forall_mem_cons.symm

/-- A text is tidied without any change to the references in it. -/
theorem isInert_tidy (s : Bytes) : IsInert (Markup.tidy s) ↔ IsInert s := by
  have whole := isInert_join Mark.lineFeed (splitOn Mark.lineFeed s) rfl
  rw [join_splitOn] at whole
  rw [Markup.tidy_eq, isInert_join _ _ rfl, whole, Markup.tidyLines]
  constructor
  · intro tidied line member
    rw [← isInert_trim]
    by_cases gone : trim line = []
    · rw [gone]
      exact isInert_nil
    · refine tidied _ (List.mem_filter.2 ⟨List.mem_map_of_mem member, ?_⟩)
      simp [gone]
  · intro inert line member
    obtain ⟨raw, found, rfl⟩ := List.mem_map.1 (List.mem_filter.1 member).1
    exact (isInert_trim raw).2 (inert raw found)

/-- A byte that is no ampersand shows itself. -/
theorem decode_cons_of_ne (b : UInt8) (s : Bytes) (other : b ≠ Mark.ampersand) :
    decode (b :: s) = b :: decode s := by
  obtain ⟨part, parts, split, whole⟩ := splitOn_cons_ne Mark.ampersand b s other
  rw [decode, decode, whole, split]
  rfl

theorem decode_of_not_mem (s : Bytes) (absent : Mark.ampersand ∉ s) : decode s = s := by
  rw [decode, splitOn_of_not_mem _ s absent]
  simp

theorem decode_of_isAllBlank (s : Bytes) (blank : isAllBlank s = true) : decode s = s := by
  refine decode_of_not_mem s fun member => ?_
  have refuted := List.all_eq_true.1 blank _ member
  contradiction

/-- A reference shows its character. -/
theorem decode_reference (reference : Bytes × UInt8) (s : Bytes)
    (listed : reference ∈ references) :
    decode (Mark.ampersand :: (reference.1 ++ s)) = reference.2 :: decode s := by
  have absent : Mark.ampersand ∉ reference.1 := fun inside =>
    (letters_of_mem_references reference listed _ inside).2.1 rfl
  obtain ⟨part, parts, split⟩ : ∃ part parts, splitOn Mark.ampersand s = part :: parts := by
    cases split : splitOn Mark.ampersand s with
    | nil => exact absurd split (splitOn_ne_nil _ s)
    | cons part parts => exact ⟨part, parts, rfl⟩
  have whole := splitOn_append_of_not_mem Mark.ampersand reference.1 s part parts absent split
  have resolved : resolve (reference.1 ++ part) = reference.2 :: part := by
    have table : references = [([0x61, 0x6D, 0x70, 0x3B], Mark.ampersand),
        ([0x6C, 0x74, 0x3B], Mark.less), ([0x67, 0x74, 0x3B], Mark.greater)] := by decide
    rw [table] at listed
    simp only [List.mem_cons, List.not_mem_nil, or_false] at listed
    rcases listed with rfl | rfl | rfl <;> simp [resolve, table]
  rw [decode, splitOn_cons_self, whole, decode, split]
  simp [resolved]

/-- A byte is written as a reference, or as itself if it has none. -/
theorem escapeByte_cases (b : UInt8) :
    (∃ reference ∈ references, reference.2 = b ∧ escapeByte b = Mark.ampersand :: reference.1) ∨
      (b ≠ Mark.ampersand ∧ b ≠ Mark.less ∧ escapeByte b = [b]) := by
  rw [escapeByte]
  cases found : references.find? fun reference => reference.2 == b with
  | some reference =>
    have shown : reference.2 = b := by simpa using List.find?_some found
    exact .inl ⟨reference, List.mem_of_find?_eq_some found, shown, rfl⟩
  | none =>
    have missing : ∀ reference ∈ references, reference.2 ≠ b := by simpa using found
    have characters : ∃ named ∈ references, ∃ tagged ∈ references,
        named.2 = Mark.ampersand ∧ tagged.2 = Mark.less := by decide
    obtain ⟨named, inTable, tagged, alsoInTable, ampersand, less⟩ := characters
    refine .inr ⟨?_, ?_, rfl⟩
    · rw [← ampersand]
      exact (missing named inTable).symm
    · rw [← less]
      exact (missing tagged alsoInTable).symm

theorem escape_cons (b : UInt8) (s : Bytes) : escape (b :: s) = escapeByte b ++ escape s := rfl

theorem escape_append (s t : Bytes) : escape (s ++ t) = escape s ++ escape t :=
  List.flatMap_append

/-- What is escaped shows the text it was made from. -/
theorem decode_escape (s : Bytes) : decode (escape s) = s := by
  induction s with
  | nil => rfl
  | cons b s ih =>
    rw [escape_cons]
    rcases escapeByte_cases b with ⟨reference, listed, rfl, written⟩ | ⟨other, -, written⟩
    · rw [written, List.cons_append, decode_reference _ _ listed, ih]
    · rw [written, List.singleton_append, decode_cons_of_ne _ _ other, ih]

/-- What stands between ampersands does not have to be looked at if it has neither mark. -/
theorem isInert_append_of_not_mem (front s : Bytes) (untagged : Mark.less ∉ front)
    (unnamed : Mark.ampersand ∉ front) (inert : IsInert s) : IsInert (front ++ s) := by
  induction front with
  | nil => exact inert
  | cons b front ih =>
    refine (isInert_cons b _).2 ⟨(List.ne_of_not_mem_cons untagged).symm, fun same => ?_, ?_⟩
    · exact absurd same (List.ne_of_not_mem_cons unnamed).symm
    · exact ih (List.not_mem_of_not_mem_cons untagged) (List.not_mem_of_not_mem_cons unnamed)

theorem isInert_reference (reference : Bytes × UInt8) (listed : reference ∈ references)
    (s : Bytes) (inert : IsInert s) : IsInert (Mark.ampersand :: (reference.1 ++ s)) := by
  have untagged : Mark.less ∉ reference.1 := fun inside =>
    (letters_of_mem_references reference listed _ inside).2.2 rfl
  have unnamed : Mark.ampersand ∉ reference.1 := fun inside =>
    (letters_of_mem_references reference listed _ inside).2.1 rfl
  rw [isInert_cons]
  refine ⟨by decide, fun _ => ⟨reference, listed, List.prefix_append _ _⟩, ?_⟩
  exact isInert_append_of_not_mem _ _ untagged unnamed inert

/-- What is escaped is inert. -/
theorem isInert_escape (s : Bytes) : IsInert (escape s) := by
  induction s with
  | nil => exact isInert_nil
  | cons b s ih =>
    rw [escape_cons]
    rcases escapeByte_cases b with ⟨reference, listed, -, written⟩ | ⟨other, untagged, written⟩
    · rw [written]
      exact isInert_reference reference listed _ ih
    · rw [written, List.singleton_append, isInert_cons]
      exact ⟨untagged, fun same => absurd same other, ih⟩

theorem isInert_clean (fragment : Bytes) : IsInert (clean fragment) := by
  rw [clean_eq]
  split
  · exact isInert_nil
  · exact isInert_escape _

/-- The text of a blank fragment needs no rule of its own. -/
theorem text_eq (fragment : Bytes) : text fragment = Markup.tidy (decode fragment) := by
  cases blank : isAllBlank fragment with
  | true =>
    rw [text, Markup.Library.text, if_pos blank, decode_of_isAllBlank _ blank, Markup.tidy_eq,
      Markup.tidyLines_of_isAllBlank _ blank, join_nil]
  | false => exact text_eq_of_full fragment blank

/-- The text of a fragment, line by line, is inert exactly if the whole text is. -/
theorem isInert_text (fragment : Bytes) : IsInert (text fragment) ↔ IsInert (decode fragment) := by
  rw [text_eq, isInert_tidy]

/-- Content comes out inert if it is kept as HTML, and else if the text it shows is inert. -/
theorem isInert_content (fragment base : Bytes) :
    IsInert (html.content fragment base) ↔
      (clean fragment).length < Normalize.contentLimit ∨ IsInert (decode fragment) := by
  rw [Html.content, html_clean, html_text, html_withAbsoluteLinks]
  split
  · next long =>
    have full : isAllBlank fragment = false := by
      rw [Bool.eq_false_iff]
      intro blank
      have empty : clean fragment = [] := by rw [clean_eq, if_pos blank]
      rw [empty] at long
      contradiction
    have written : clean fragment = escape (decode fragment) := by
      rw [clean_eq, if_neg (by simp [full])]
    rw [isInert_text, written, decode_escape, ← written]
    exact (or_iff_right (Nat.not_lt.2 long)).symm
  · next short =>
    rw [withAbsoluteLinks_eq]
    exact iff_of_true (isInert_clean _) (.inl (Nat.lt_of_not_le short))

end FeedIntake.Fragment
