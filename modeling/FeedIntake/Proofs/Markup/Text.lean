import FeedIntake.Proofs.Markup.Inert
import FeedIntake.Proofs.Utf8.Valid

/-!
Well-formed text through HTML. Main statement: what is done with plain text fragments keeps texts
well-formed, and so does everything that is made of such functions for the fields of records.
-/
namespace FeedIntake

open Utf8 Bytes

/-- HTML that is handled so that well-formed text stays well-formed. -/
structure Html.KeepsText (html : Html) : Prop where
  clean : ∀ s, isValid s = true → isValid (html.clean s) = true
  text : ∀ s, isValid s = true → isValid (html.text s) = true
  links : ∀ base s, isValid s = true → isValid (html.withAbsoluteLinks base s) = true

namespace Fragment

theorem ascii_of_mem_references (reference : Bytes × UInt8) (listed : reference ∈ references) :
    (∀ c ∈ reference.1, c < 0x80) ∧ reference.2 < 0x80 := by
  have table : references.all (fun reference =>
      reference.1.all (· < 0x80) && reference.2 < 0x80) = true := by decide
  have plain := List.all_eq_true.1 table reference listed
  simpa using plain

theorem isValid_resolve (part : Bytes) (valid : isValid part = true) :
    isValid (resolve part) = true := by
  rw [resolve]
  split
  · next name character found =>
    have listed := List.mem_of_find?_eq_some found
    have begins : name <+: part := by
      have test := List.find?_some found
      simpa using test
    obtain ⟨plain, ascii⟩ := ascii_of_mem_references _ listed
    obtain ⟨rest, rfl⟩ := begins
    rw [isValid_append_iff _ _ (isValid_of_ascii name plain)] at valid
    rw [List.drop_left, isValid_cons_iff _ _ ascii]
    exact valid
  · exact (isValid_cons_iff _ _ (by decide)).2 valid

theorem isValid_decode (fragment : Bytes) (valid : isValid fragment = true) :
    isValid (decode fragment) = true := by
  have parts := isValid_of_mem_splitOn Mark.ampersand (by decide) fragment
  rw [decode]
  split
  · rfl
  · next first others split =>
    rw [split] at parts
    refine isValid_append _ _ (parts first valid List.mem_cons_self) ?_
    rw [List.flatMap_def]
    refine isValid_flatten _ fun part member => ?_
    obtain ⟨other, listed, rfl⟩ := List.mem_map.1 member
    exact isValid_resolve other (parts other valid (List.mem_cons_of_mem _ listed))

theorem isValid_escape_iff (s : Bytes) : isValid (escape s) = true ↔ isValid s = true := by
  have ascii : ∀ b : UInt8, b < 0x80 →
      escapeByte b ≠ [] ∧ (escapeByte b).all (· < 0x80) = true :=
    forall_of_all _ (by decide +kernel)
  have other : ∀ b : UInt8, ¬ b < 0x80 → escapeByte b = [b] := forall_of_all _ (by decide +kernel)
  exact isValid_flatMap_iff escapeByte s (fun b low => by simpa using ascii b low) other

theorem isValid_clean (fragment : Bytes) (valid : isValid fragment = true) :
    isValid (clean fragment) = true := by
  rw [clean_eq]
  split
  · rfl
  · exact (isValid_escape_iff _).2 (isValid_decode fragment valid)

theorem isValid_text (fragment : Bytes) (valid : isValid fragment = true) :
    isValid (text fragment) = true := by
  rw [text_eq, Markup.tidy_eq]
  refine (isValid_join_iff _ (by decide) _).2 fun line member => ?_
  obtain ⟨raw, found, rfl⟩ := List.mem_map.1 (List.mem_filter.1 member).1
  have whole := isValid_decode fragment valid
  exact isValid_trim raw (isValid_of_mem_splitOn _ (by decide) _ raw whole found)

theorem html_keepsText : html.KeepsText where
  clean := isValid_clean
  text := isValid_text
  links base fragment valid :=
    (congrArg isValid (withAbsoluteLinks_eq base fragment)).trans (isValid_clean fragment valid)

end Fragment

namespace Html.KeepsText

variable {html : Html} (keeps : html.KeepsText)

include keeps

theorem flat (fragment : Option Bytes) (valid : ∀ s ∈ fragment, isValid s = true) :
    isValid (html.flat fragment) = true := by
  cases fragment with
  | none => rfl
  | some s => exact isValid_collapse _ (keeps.text s (valid s rfl))

theorem line (limit : Nat) (fragment : Option Bytes) (valid : ∀ s ∈ fragment, isValid s = true) :
    isValid (html.line limit fragment) = true :=
  isValid_truncate limit _ (keeps.flat fragment valid)

theorem line? (limit : Nat) (fragment : Option Bytes) (valid : ∀ s ∈ fragment, isValid s = true) :
    ∀ s ∈ html.line? limit fragment, isValid s = true := by
  intro s member
  obtain ⟨same, -⟩ := Option.mem_filter_iff.1 member
  rw [← Option.mem_some.1 same]
  exact keeps.line limit fragment valid

theorem summary (s : Bytes) (valid : isValid s = true) : isValid (html.summary s) = true := by
  refine isValid_shorten _ _ _ (keeps.flat _ ?_) (by decide)
  rintro _ ⟨⟩
  exact keeps.clean s valid

theorem content (s base : Bytes) (valid : isValid s = true) :
    isValid (html.content s base) = true := by
  have cleaned := keeps.clean s valid
  rw [Html.content]
  split
  · exact keeps.text _ cleaned
  · exact keeps.links base _ cleaned

end Html.KeepsText

end FeedIntake
