import FeedIntake.Proofs.Markup.Inert

/-!
The text of a fragment, in words and in lines. `Denotes` says which text a plain text fragment
stands for, and `TakesPlainText` what is relied on of a library for HTML: it reads such a fragment
as one text node, and writes a text node as such a fragment. Main statement: the text of a fragment
is made of the lines that show anything; put in one line it is made of the words, with a single
space between neighbours; and a fragment that has been cleaned shows the same and is in its own
form.
-/
namespace FeedIntake

open Bytes

namespace Fragment

/-- A plain text fragment stands for a text: each of three references for its character, and every
other byte for itself. -/
inductive Denotes : Bytes → Bytes → Prop
  | nil : Denotes [] []
  | byte (b : UInt8) (fragment text : Bytes) (plain : b ≠ Mark.ampersand) (untagged : b ≠ Mark.less)
      (behind : Denotes fragment text) : Denotes (b :: fragment) (b :: text)
  | ampersand (fragment text : Bytes) (behind : Denotes fragment text) :
      Denotes (ofString "&amp;" ++ fragment) (Mark.ampersand :: text)
  | less (fragment text : Bytes) (behind : Denotes fragment text) :
      Denotes (ofString "&lt;" ++ fragment) (Mark.less :: text)
  | greater (fragment text : Bytes) (behind : Denotes fragment text) :
      Denotes (ofString "&gt;" ++ fragment) (Mark.greater :: text)

theorem Denotes.reference (reference : Bytes × UInt8) (listed : reference ∈ references)
    (fragment text : Bytes) (behind : Denotes fragment text) :
    Denotes (Mark.ampersand :: (reference.1 ++ fragment)) (reference.2 :: text) := by
  simp only [references, List.mem_cons, List.not_mem_nil, or_false] at listed
  rcases listed with rfl | rfl | rfl
  · exact .ampersand fragment text behind
  · exact .less fragment text behind
  · exact .greater fragment text behind

theorem isInert_of_append (front s : Bytes) (inert : IsInert (front ++ s)) : IsInert s := by
  induction front with
  | nil => exact inert
  | cons b front ih => exact ih ((isInert_cons b _).1 inert).2.2

theorem denotes_decode (fragment : Bytes) (inert : IsInert fragment) :
    Denotes fragment (decode fragment) := by
  match fragment with
  | [] => exact .nil
  | b :: rest =>
    obtain ⟨untagged, refers, behind⟩ := (isInert_cons b rest).1 inert
    by_cases same : b = Mark.ampersand
    · obtain ⟨reference, listed, after, rfl⟩ := refers same
      rw [same, decode_reference reference after listed]
      exact .reference reference listed after _
        (denotes_decode after (isInert_of_append reference.1 after behind))
    · rw [decode_cons_of_ne b rest same]
      exact .byte b rest _ same untagged (denotes_decode rest behind)
termination_by fragment.length

/-- Each plain text fragment stands for one text, and no other fragment does. -/
theorem denotes_iff (fragment text : Bytes) :
    Denotes fragment text ↔ IsInert fragment ∧ text = decode fragment := by
  constructor
  · intro denotes
    have step : ∀ reference ∈ references, ∀ fragment text,
        IsInert fragment ∧ text = decode fragment →
        IsInert (Mark.ampersand :: (reference.1 ++ fragment)) ∧
          reference.2 :: text = decode (Mark.ampersand :: (reference.1 ++ fragment)) := by
      rintro reference listed fragment _ ⟨inert, rfl⟩
      exact ⟨isInert_reference reference listed fragment inert,
        (decode_reference reference fragment listed).symm⟩
    induction denotes with
    | nil => exact ⟨isInert_nil, rfl⟩
    | byte b fragment text plain untagged _ ih =>
      refine ⟨(isInert_cons b fragment).2 ⟨untagged, fun same => absurd same plain, ih.1⟩, ?_⟩
      rw [decode_cons_of_ne b fragment plain, ih.2]
    | ampersand fragment text _ ih => exact step (ofString "amp;", _) (by decide) fragment text ih
    | less fragment text _ ih => exact step (ofString "lt;", _) (by decide) fragment text ih
    | greater fragment text _ ih => exact step (ofString "gt;", _) (by decide) fragment text ih
  · rintro ⟨inert, rfl⟩
    exact denotes_decode fragment inert

/-- References stand for characters that show something. -/
theorem Denotes.isAllBlank_eq (fragment text : Bytes) (denotes : Denotes fragment text) :
    isAllBlank fragment = isAllBlank text := by
  cases denotes with
  | nil => rfl
  | byte b fragment text _ _ behind =>
    exact congrArg (isBlank b && ·) (isAllBlank_eq fragment text behind)
  | ampersand => rfl
  | less => rfl
  | greater => rfl

end Fragment

namespace Markup.Library

open Fragment

variable {library : Library} {Known : Bytes → Prop}

/-- What is relied on of a library, for the texts that it is known to handle: a plain text fragment
is read as one text node, with its references decoded, and a text node is written as a plain text
fragment. -/
structure TakesPlainText (library : Library) (Known : Bytes → Prop) : Prop where
  reads : ∀ fragment text, Denotes fragment text → Known text → isAllBlank fragment = false →
    library.ReadsAs fragment text
  writes : ∀ text, Known text → Denotes (library.write (.text text)) text

namespace TakesPlainText

variable (takes : library.TakesPlainText Known) (fragment decoded : Bytes)
  (denotes : Denotes fragment decoded) (known : Known decoded)

include takes denotes known

/-- The text of a blank fragment needs no rule of its own. -/
theorem text_eq : library.text fragment = tidy decoded := by
  cases blank : isAllBlank fragment with
  | true =>
    have same := denotes.isAllBlank_eq
    rw [Library.text, if_pos blank, tidy_eq, tidyLines_of_isAllBlank _ (same ▸ blank), join_nil]
  | false => exact library.text_of_readsAs _ _ blank (takes.reads _ _ denotes known blank)

/-- What is written for the text of a fragment is a fragment in its own form. -/
theorem clean_cases : isAllBlank fragment = true ∧ library.clean fragment = [] ∨
    isAllBlank (library.clean fragment) = false ∧
      library.clean fragment = library.write (.text decoded) ∧
      library.ReadsAs (library.clean fragment) decoded := by
  cases blank : isAllBlank fragment with
  | true => exact .inl ⟨rfl, by rw [clean, if_pos blank]⟩
  | false =>
    have written := library.clean_of_readsAs _ _ blank (takes.reads _ _ denotes known blank)
    have own := takes.writes decoded known
    have full : isAllBlank (library.write (.text decoded)) = false := by
      rw [own.isAllBlank_eq, ← denotes.isAllBlank_eq, blank]
    rw [written]
    exact .inr ⟨full, rfl, takes.reads _ _ own known full⟩

theorem text_clean : library.text (library.clean fragment) = library.text fragment := by
  rw [takes.text_eq fragment decoded denotes known]
  rcases takes.clean_cases fragment decoded denotes known with ⟨blank, gone⟩ | ⟨full, -, reads⟩
  · have same := denotes.isAllBlank_eq
    rw [gone, tidy_eq, tidyLines_of_isAllBlank _ (same ▸ blank)]
    rfl
  · exact library.text_of_readsAs _ _ full reads

theorem clean_clean : library.clean (library.clean fragment) = library.clean fragment := by
  rcases takes.clean_cases fragment decoded denotes known with ⟨-, gone⟩ | ⟨full, written, reads⟩
  · rw [gone]
    rfl
  · rw [library.clean_of_readsAs _ _ full reads, written]

theorem withAbsoluteLinks_clean (base : Bytes) :
    library.withAbsoluteLinks base (library.clean fragment) = library.clean fragment := by
  rcases takes.clean_cases fragment decoded denotes known with ⟨-, gone⟩ | ⟨full, written, reads⟩
  · rw [gone]
    rfl
  · rw [library.withAbsoluteLinks_of_readsAs _ _ full reads, written]

end TakesPlainText

end Markup.Library

namespace Fragment

/-- Through any library that takes plain text: in one line the text of a fragment is made of the
words that the fragment shows, and line by line of what its lines show, as far as they show
anything. Cleaning changes neither, and what has been cleaned stays as it is when it is cleaned
again or its links are made absolute. -/
theorem text_in_words_and_lines (library : Markup.Library) (Known : Bytes → Prop)
    (takes : library.TakesPlainText Known) (fragment : Bytes) (plain : IsInert fragment)
    (known : ∀ text, Denotes fragment text → Known text) :
    ∃ decoded, (∀ text, Denotes fragment text ↔ text = decoded) ∧
      (∃ words, (∀ others, InWords others decoded ↔ others = words) ∧
        collapse (library.text fragment) = join Mark.space words) ∧
      (∀ s, collapse (collapse s) = collapse s) ∧
      (∃ shown, (∀ others, Markup.InLines others decoded ↔ others = shown) ∧
        library.text fragment = join Mark.lineFeed (shown.filter (!·.isEmpty))) ∧
      library.text (library.clean fragment) = library.text fragment ∧
      library.clean (library.clean fragment) = library.clean fragment ∧
      ∀ base, library.withAbsoluteLinks base (library.clean fragment) = library.clean fragment := by
  have denotes := denotes_decode fragment plain
  have handled := known _ denotes
  have text := takes.text_eq fragment _ denotes handled
  refine ⟨decode fragment, fun text => (denotes_iff fragment text).trans (and_iff_right plain),
    ⟨words (decode fragment), inWords_iff _, ?_⟩, collapse_collapse,
    ⟨_, Markup.inLines_iff _, by rw [text, Markup.tidy_eq, Markup.tidyLines]⟩,
    takes.text_clean fragment _ denotes handled, takes.clean_clean fragment _ denotes handled,
    takes.withAbsoluteLinks_clean fragment _ denotes handled⟩
  rw [collapse_eq, text, Markup.words_tidy]

/-- Two lines with references in them, blanks around them and an empty line between. -/
def twoLines : Bytes := ofString "  a &lt;b>\n \n &amp;c &gt; d\n"

theorem library_takesPlainText : library.TakesPlainText fun _ => True where
  reads fragment text denotes _ _ := by
    rw [((denotes_iff fragment text).1 denotes).2]
    exact readsAs_decode fragment
  writes text _ := by
    rw [denotes_iff]
    exact ⟨isInert_escape text, (decode_escape text).symm⟩

theorem text_in_words_and_lines_twoLines :
    Denotes twoLines (ofString "  a <b>\n \n &c > d\n") ∧
      library.text twoLines = ofString "a <b>\n&c > d" ∧
      library.text (library.clean twoLines) = library.text twoLines := by
  have plain : IsInert twoLines := by decide
  obtain ⟨decoded, own, -, -, ⟨shown, lines, text⟩, same, -, -⟩ := text_in_words_and_lines library
    (fun _ => True) library_takesPlainText twoLines plain fun _ _ => trivial
  refine ⟨(denotes_iff _ _).2 ⟨plain, by decide⟩, ?_, same⟩
  rw [text, ← (lines _).1 ((Markup.inLines_iff _ _).2 rfl), ← (own _).1 (denotes_decode _ plain)]
  decide

end Fragment

end FeedIntake
