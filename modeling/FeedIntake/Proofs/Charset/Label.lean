import Mathlib.Tactic.ByContra
import FeedIntake.Charset.Detection
import FeedIntake.Proofs.Bytes.Blank

/-!
Normal forms of charset labels. Blanks, quotes and blanks again are taken away from the ends of a
label, once each. Main statement: what is left is in normal form exactly if there were no quotes
inside of quotes; and a label from a header is the one that is chosen for a body only then.
-/
namespace FeedIntake

open Bytes

namespace Label

/-- A label with quotes inside of quotes: between the outermost quotes, next to blanks, there are
others. -/
def IsNested (s : Bytes) : Prop :=
  ∃ opening inner closing, trim s = opening ++ inner ++ closing ∧
    (∀ b ∈ opening, isQuote b = true) ∧ (∀ b ∈ closing, isQuote b = true) ∧
    EndsWithout isQuote inner ∧ ¬ EndsWithout isQuote (trim inner)

theorem isQuote_lowerByte (b : UInt8) : isQuote (lowerByte b) = isQuote b := by
  simpa using holds_of_all (fun b => isQuote (lowerByte b) == isQuote b) (by decide +kernel) b

theorem isBlank_lowerByte (b : UInt8) : isBlank (lowerByte b) = isBlank b := by
  simpa using holds_of_all (fun b => isBlank (lowerByte b) == isBlank b) (by decide +kernel) b

theorem endsWithout_lower_iff (p : UInt8 → Bool) (s : Bytes)
    (same : ∀ b, p (lowerByte b) = p b) : EndsWithout p (lower s) ↔ EndsWithout p s := by
  constructor
  · rintro ⟨head, last⟩
    rw [lower, List.head?_map] at head
    rw [lower, List.getLast?_map] at last
    exact ⟨fun b first => same b ▸ head _ (Option.mem_map_of_mem _ first),
      fun b final => same b ▸ last _ (Option.mem_map_of_mem _ final)⟩
  · rintro ⟨head, last⟩
    constructor
    · rw [lower, List.head?_map]
      rintro _ mapped
      obtain ⟨b, first, rfl⟩ := Option.map_eq_some_iff.1 mapped
      exact (same b).trans (head b first)
    · rw [lower, List.getLast?_map]
      rintro _ mapped
      obtain ⟨b, final, rfl⟩ := Option.map_eq_some_iff.1 mapped
      exact (same b).trans (last b final)

/-- A label is stripped of blanks, of quotes and of blanks. -/
theorem bare_eq (s : Bytes) : bare s = lower (trim (strip isQuote (trim s))) := rfl

theorem isNested_iff (s : Bytes) : IsNested s ↔ ¬ EndsWithout isQuote (bare s) := by
  rw [bare_eq, endsWithout_lower_iff isQuote _ isQuote_lowerByte]
  constructor
  · rintro ⟨opening, inner, closing, whole, front, back, ends, nested⟩
    rwa [whole, strip_append isQuote opening inner closing front back ends]
  · intro nested
    obtain ⟨opening, closing, whole, front, back⟩ := exists_strip isQuote (trim s)
    exact ⟨opening, _, closing, whole, front, back, endsWithout_strip isQuote _, nested⟩

theorem endsWithout_isBlank_bare (s : Bytes) : EndsWithout isBlank (bare s) :=
  (endsWithout_lower_iff isBlank _ isBlank_lowerByte).2 (endsWithout_trim _)

/-- Where no quote is at an end, nothing is left to be taken away. -/
theorem bare_bare (s : Bytes) (ends : EndsWithout isQuote (bare s)) : bare (bare s) = bare s := by
  have trimmed := trim_of_endsWithout _ (endsWithout_isBlank_bare s)
  rw [bare_eq (bare s), trimmed, strip_of_endsWithout isQuote _ ends, trimmed, bare_eq, lower_lower]

/-- Where a quote is at an end, it is taken away the next time. -/
theorem length_bare_bare_lt (s : Bytes) (nested : ¬ EndsWithout isQuote (bare s)) :
    (bare (bare s)).length < (bare s).length := by
  have trimmed := trim_of_endsWithout _ (endsWithout_isBlank_bare s)
  have length (t : Bytes) : (lower t).length = t.length := List.length_map _
  calc (bare (bare s)).length
      = (trim (strip isQuote (bare s))).length := by rw [bare_eq, length, trimmed]
    _ ≤ (strip isQuote (bare s)).length := length_strip_le isBlank _
    _ < (bare s).length := length_strip_lt isQuote _ nested

/-- The labels of the table stand for themselves, and nothing in it has a quote or a blank at an
end. -/
theorem settled_of_mem_aliases (spelling label : Bytes) (listed : (spelling, label) ∈ aliases) :
    normalize label = label ∧ EndsWithout isQuote spelling ∧
      EndsWithout isQuote label ∧ EndsWithout isBlank label := by
  have table : ∀ entry ∈ aliases, normalize entry.2 = entry.2 ∧ EndsWithout isQuote entry.1 ∧
      EndsWithout isQuote entry.2 ∧ EndsWithout isBlank entry.2 := by decide +kernel
  exact table (spelling, label) listed

/-- A label is what is left of a text, or a label of the table for that. -/
theorem normalize_cases (s : Bytes) :
    (∃ label, (bare s, label) ∈ aliases ∧ normalize s = label) ∨
      (aliases.lookup (bare s) = none ∧ normalize s = bare s) := by
  rw [normalize]
  cases found : aliases.lookup (bare s) with
  | none => exact .inr ⟨rfl, rfl⟩
  | some label =>
    obtain ⟨before, after, table, -⟩ := List.lookup_eq_some_iff.1 found
    exact .inl ⟨label, table ▸ List.mem_append_right before List.mem_cons_self, rfl⟩

theorem endsWithout_isBlank_normalize (s : Bytes) : EndsWithout isBlank (normalize s) := by
  rcases normalize_cases s with ⟨label, listed, same⟩ | ⟨-, same⟩
  · rw [same]
    exact (settled_of_mem_aliases _ _ listed).2.2.2
  · rw [same]
    exact endsWithout_isBlank_bare s

theorem endsWithout_isQuote_normalize_iff (s : Bytes) :
    EndsWithout isQuote (normalize s) ↔ ¬ IsNested s := by
  rw [isNested_iff, Classical.not_not]
  rcases normalize_cases s with ⟨label, listed, same⟩ | ⟨-, same⟩
  · obtain ⟨-, spelling, ends, -⟩ := settled_of_mem_aliases _ _ listed
    rw [same]
    exact iff_of_true ends spelling
  · rw [same]

theorem normalize_normalize_iff (s : Bytes) :
    normalize (normalize s) = normalize s ↔ EndsWithout isQuote (normalize s) := by
  rcases normalize_cases s with ⟨label, listed, same⟩ | ⟨unlisted, same⟩
  · obtain ⟨settled, -, ends, -⟩ := settled_of_mem_aliases _ _ listed
    rw [same]
    exact iff_of_true settled ends
  · rw [same]
    constructor
    · intro settled
      by_contra nested
      rcases normalize_cases (bare s) with ⟨label, listed, again⟩ | ⟨-, again⟩
      · exact nested (settled ▸ again ▸ (settled_of_mem_aliases _ _ listed).2.2.1)
      · have shorter := length_bare_bare_lt s nested
        rw [← again, settled] at shorter
        exact Nat.lt_irrefl _ shorter
    · intro ends
      rw [normalize, bare_bare s ends, unlisted]
      rfl

/-- Where there are no quotes at all, there are none inside of others. -/
theorem not_isNested_of_not_isQuote (s : Bytes) (unquoted : ∀ b ∈ s, isQuote b = false) :
    ¬ IsNested s := by
  rintro ⟨opening, inner, closing, whole, -, -, -, nested⟩
  refine nested (endsWithout_of_all isQuote _ fun b member => unquoted b (mem_of_mem_trim s b ?_))
  rw [whole]
  exact List.mem_append_left _ (List.mem_append_right _ (mem_of_mem_trim inner b member))

theorem not_isQuote_of_mem_attributeValue (s : Bytes) :
    ∀ b ∈ attributeValue s, isQuote b = false := by
  intro b member
  have kept := List.all_eq_true.1 List.all_takeWhile b member
  rw [Bool.not_eq_true', endsValue] at kept
  simp only [Bool.or_eq_false_iff] at kept
  exact kept.1.1.1.1.1

/-- What a document says of itself has no quotes in it. -/
theorem endsWithout_isQuote_of_mem_ofDocument? (body label : Bytes)
    (found : ofDocument? body = some label) : EndsWithout isQuote label := by
  have value : ∃ s, normalize (attributeValue s) = label := by
    rw [ofDocument?, Option.orElse_eq_orElse, Option.orElse_eq_or, Option.or_eq_some_iff] at found
    rcases found with declaration | ⟨-, element⟩
    · simp only [ofXmlDeclaration?, Option.bind_eq_bind, Option.bind_eq_some_iff] at declaration
      obtain ⟨rest, -, named⟩ := declaration
      obtain ⟨s, -, kept⟩ := Option.bind_eq_some_iff.1 (Option.ite_none_right_eq_some.1 named).2
      exact ⟨s, Option.some.inj (Option.filter_eq_some_iff.1 kept).1⟩
    · simp only [ofMeta?, Option.bind_eq_bind, Option.bind_eq_some_iff] at element
      obtain ⟨rest, -, s, -, kept⟩ := element
      exact ⟨s, Option.some.inj (Option.filter_eq_some_iff.1 kept).1⟩
  obtain ⟨s, rfl⟩ := value
  exact (endsWithout_isQuote_normalize_iff _).2
    (not_isNested_of_not_isQuote _ (not_isQuote_of_mem_attributeValue s))

/-- A label from a header is the normal form of a text, and not empty. -/
theorem exists_normalize_of_ofContentType? (header label : Bytes)
    (found : ofContentType? header = some label) :
    label ≠ [] ∧ ∃ value, normalize value = label := by
  obtain ⟨parameter, -, named⟩ := List.exists_of_findSome?_eq_some found
  rw [ofParameter?] at named
  split at named
  · contradiction
  · next name value cut =>
    split at named
    · obtain ⟨same, full⟩ := Option.filter_eq_some_iff.1 named
      exact ⟨by simpa using full, value, Option.some.inj same⟩
    · contradiction

end Label

namespace Charset

open Label

section

variable [Library]

/-- What a library guesses is named without quotes. -/
theorem endsWithout_isQuote_of_mem_guess? (front label : Bytes)
    (found : guess? front = some label) : EndsWithout isQuote label := by
  have unquoted : ∀ b : UInt8,
      (isLetter b || isDigit b || b == Mark.hyphen || b == Mark.underscore) = true →
      isQuote b = false := forall_of_all _ (by decide +kernel)
  obtain ⟨name, guess, rfl⟩ := List.mem_map.1 (List.mem_of_find?_eq_some found)
  exact (endsWithout_isQuote_normalize_iff name).2 (not_isNested_of_not_isQuote name
    fun b member => unquoted b (Library.isPlain_of_mem_guesses front name guess b member))

theorem choose_of_normal (label body : Bytes) (full : label ≠ [])
    (normal : normalize label = label) :
    choose (some label) body =
      if decodesAs label (testLimit < body.length) (body.take testLimit) then ⟨label, .declared⟩
      else choose none body := by
  rw [choose, Option.map_some, normal]
  by_cases fits : decodesAs label (testLimit < body.length) (body.take testLimit) = true
  · simp [Option.filter, fits, full]
  · simp [Option.filter, fits, choose]

/-- A chosen label that was not declared has no quote at an end. -/
theorem choose_cases (declared : Option Bytes) (body : Bytes) :
    (∃ label ∈ declared, detect declared body = normalize label) ∨
      EndsWithout isQuote (detect declared body) := by
  have marks : ∀ label ∈ ofMark? (body.take testLimit), EndsWithout isQuote label := by
    intro label found
    rw [Option.mem_def, ofMark?] at found
    split at found
    · exact Option.some.inj found ▸ (by decide)
    split at found
    · exact Option.some.inj found ▸ (by decide)
    split at found
    · exact Option.some.inj found ▸ (by decide)
    · contradiction
  rw [detect, choose]
  split
  · next label kept =>
    obtain ⟨first, member, same⟩ := Option.map_eq_some_iff.1 (Option.filter_eq_some_iff.1 kept).1
    exact .inl ⟨first, member, same.symm⟩
  · refine .inr ?_
    split
    · next label found => exact marks label found
    · split
      · next label kept =>
        exact endsWithout_isQuote_of_mem_ofDocument? _ label (Option.filter_eq_some_iff.1 kept).1
      · have plain : EndsWithout isQuote usual := by decide
        split
        · exact plain
        · split
          · next label guess => exact endsWithout_isQuote_of_mem_guess? _ label guess
          · exact plain

/-- A normal form has no blank at an end. It has no quote there, and is its own normal form, exactly
if it was made from a label without quotes inside of quotes. And a label from a header that has no
quote at an end is tried for a body as it is, and chosen if the body decodes; any other label from a
header is chosen for no body. -/
theorem normalize_settles_iff (s header : Bytes) :
    (EndsWithout isBlank (normalize s) ∧
      (EndsWithout isQuote (normalize s) ↔ ¬ IsNested s) ∧
      (normalize (normalize s) = normalize s ↔ ¬ IsNested s)) ∧
    ∀ label, ofContentType? header = some label →
      (EndsWithout isQuote label → ∀ body, choose (some label) body =
        if decodesAs label (testLimit < body.length) (body.take testLimit) then ⟨label, .declared⟩
        else choose none body) ∧
      (¬ EndsWithout isQuote label → ∀ body, detect (some label) body ≠ label) := by
  refine ⟨?_, fun label reported => ?_⟩
  · have ends := endsWithout_isQuote_normalize_iff s
    exact ⟨endsWithout_isBlank_normalize s, ends, (normalize_normalize_iff s).trans ends⟩
  · obtain ⟨full, value, rfl⟩ := exists_normalize_of_ofContentType? header label reported
    have settled := normalize_normalize_iff value
    refine ⟨fun ends body => choose_of_normal _ body full (settled.2 ends), ?_⟩
    intro nested body chosen
    rcases choose_cases (some (normalize value)) body with ⟨label, declared, same⟩ | ends
    · obtain rfl := Option.some.inj declared
      exact nested (settled.1 (same.symm.trans chosen))
    · exact nested (chosen ▸ ends)

end

/-- Quotes of one kind, with blanks between them and quotes of the other. -/
def nestedLabel : Bytes :=
  [Mark.doubleQuote, Mark.space, Mark.singleQuote] ++ ofString "utf-8"
    ++ [Mark.singleQuote, Mark.space, Mark.doubleQuote]

/-- A label in quotes, with blanks inside of them, is chosen for a body that decodes; one in quotes
inside of quotes is chosen for none. -/
theorem normalize_settles_quoted :
    ofContentType? (ofString "text/html; Charset=\" UTF8 \"") = some (ofString "utf-8") ∧
      choose (some (ofString "utf-8")) [0xC3, 0xA9] = ⟨ofString "utf-8", .declared⟩ ∧
      ofContentType? (ofString "text/html; charset=" ++ nestedLabel) =
        some (normalize nestedLabel) ∧
      ∀ body, detect (some (normalize nestedLabel)) body ≠ normalize nestedLabel := by
  have plain : ofContentType? (ofString "text/html; Charset=\" UTF8 \"") =
      some (ofString "utf-8") := by decide +kernel
  have nested : ofContentType? (ofString "text/html; charset=" ++ nestedLabel) =
      some (normalize nestedLabel) := by decide +kernel
  have chosen := ((normalize_settles_iff nestedLabel _).2 _ plain).1 (by decide) [0xC3, 0xA9]
  exact ⟨plain, chosen.trans (if_pos (by decide +kernel)), nested,
    ((normalize_settles_iff nestedLabel _).2 _ nested).2 (by decide +kernel)⟩

/-- The inner quotes of a label stay at its ends. A header reports the label with them, and another
one is chosen. -/
theorem normalize_nestedLabel :
    normalize nestedLabel = Mark.singleQuote :: ofString "utf-8" ++ [Mark.singleQuote] ∧
      normalize (normalize nestedLabel) = ofString "utf-8" ∧
      ofContentType? (ofString "text/html; charset=" ++ nestedLabel) =
        some (normalize nestedLabel) ∧
      choose (some (normalize nestedLabel)) [0xC3, 0xA9] = ⟨ofString "utf-8", .declared⟩ := by
  decide +kernel

end Charset

end FeedIntake
