import Mathlib.Data.List.Forall2
import FeedIntake.Markup.Processor
import FeedIntake.Proofs.Bytes.Split
import FeedIntake.Proofs.Bytes.Words

/-!
Texts in lines. `InLines` says how a text is written in lines that show something between blanks.
Main statements: every text is written so in exactly one way; and a text is tidied by joining what
its lines show, as far as they show anything, which leaves its words as they were.
-/
namespace FeedIntake.Markup

open Bytes

/-- A line shows what stands between the blanks at its ends. -/
structure Shows (line shown : Bytes) : Prop where
  ends : EndsWithout isBlank shown
  framed : ∃ before after, line = before ++ shown ++ after ∧
    (∀ b ∈ before, isBlank b = true) ∧ ∀ b ∈ after, isBlank b = true

theorem shows_iff (line shown : Bytes) : Shows line shown ↔ shown = trim line := by
  constructor
  · rintro ⟨ends, before, after, rfl, front, back⟩
    exact (strip_append isBlank before shown after front back ends).symm
  · rintro rfl
    exact ⟨endsWithout_trim line, exists_trim line⟩

/-- A text in lines that show these parts; a line of nothing but blanks shows the empty one. -/
def InLines (shown : List Bytes) (s : Bytes) : Prop :=
  ∃ lines, lines ≠ [] ∧ (∀ line ∈ lines, Mark.lineFeed ∉ line) ∧ join Mark.lineFeed lines = s ∧
    List.Forall₂ Shows lines shown

theorem forall₂_shows_iff (lines shown : List Bytes) :
    List.Forall₂ Shows lines shown ↔ shown = lines.map trim := by
  induction lines generalizing shown with
  | nil => simp
  | cons line lines ih => simp [List.forall₂_cons_left_iff, shows_iff, ih]

/-- A text is written in its lines and in no others. -/
theorem inLines_iff (s : Bytes) (shown : List Bytes) :
    InLines shown s ↔ shown = (splitOn Mark.lineFeed s).map trim := by
  constructor
  · rintro ⟨lines, some, unbroken, rfl, shows⟩
    rw [splitOn_join _ lines some unbroken]
    exact (forall₂_shows_iff lines shown).1 shows
  · intro own
    exact ⟨splitOn Mark.lineFeed s, splitOn_ne_nil _ s, not_mem_of_mem_splitOn _ s,
      join_splitOn _ s, (forall₂_shows_iff _ shown).2 own⟩

/-- The lines of a text that are not blank, without blanks at their ends. -/
def tidyLines (text : Bytes) : List Bytes :=
  ((splitOn Mark.lineFeed text).map trim).filter (!·.isEmpty)

/-- One more line comes behind the lines kept so far, if it shows anything. -/
theorem addLine_join (kept : List Bytes) (full : ∀ line ∈ kept, line ≠ []) (line : Bytes) :
    addLine (join Mark.lineFeed kept).reverse line =
      (join Mark.lineFeed (kept ++ [trim line].filter (!·.isEmpty))).reverse := by
  rw [addLine]
  cases shown : trim line with
  | nil => simp
  | cons b rest =>
    cases kept with
    | nil => simp
    | cons first kept =>
      have begun : join Mark.lineFeed (first :: kept) ≠ [] := by
        have nonempty := full first List.mem_cons_self
        cases kept <;> simp [join_cons_cons, nonempty]
      have joined : join Mark.lineFeed (first :: (kept ++ [b :: rest])) =
          join Mark.lineFeed (first :: kept) ++ Mark.lineFeed :: b :: rest :=
        join_concat _ (first :: kept) _ (List.cons_ne_nil _ _)
      simp [begun, joined]

theorem foldl_addLine (lines kept : List Bytes) (full : ∀ line ∈ kept, line ≠ []) :
    lines.foldl addLine (join Mark.lineFeed kept).reverse =
      (join Mark.lineFeed (kept ++ (lines.map trim).filter (!·.isEmpty))).reverse := by
  induction lines generalizing kept with
  | nil => simp
  | cons line lines ih =>
    have also : ∀ line' ∈ kept ++ [trim line].filter (!·.isEmpty), line' ≠ [] := by
      intro line' member
      rcases List.mem_append.1 member with before | last
      · exact full line' before
      · simpa using (List.mem_filter.1 last).2
    rw [List.foldl_cons, addLine_join kept full, ih _ also, List.append_assoc, List.map_cons,
      ← List.filter_append, List.singleton_append]

/-- A text is tidied by joining its lines again, without those that are blank. -/
theorem tidy_eq (text : Bytes) : tidy text = join Mark.lineFeed (tidyLines text) := by
  have added := foldl_addLine (splitOn Mark.lineFeed text) [] (by simp)
  rw [join_nil, List.reverse_nil, List.nil_append] at added
  rw [tidy, added, List.reverse_reverse, tidyLines]

theorem tidyLines_append_cons (s t : Bytes) :
    tidyLines (s ++ Mark.lineFeed :: t) = tidyLines s ++ tidyLines t := by
  simp [tidyLines, splitOn_append_cons]

theorem flatMap_words_filter (lines : List Bytes) :
    (lines.filter (!·.isEmpty)).flatMap words = lines.flatMap words := by
  induction lines with
  | nil => rfl
  | cons line lines ih =>
    cases line with
    | nil => simpa [words_nil] using ih
    | cons b line => simp [ih]

/-- The words of a text stay the same when it is tidied. -/
theorem words_tidy (s : Bytes) : words (tidy s) = words s :=
  calc words (tidy s)
      = (tidyLines s).flatMap words := by rw [tidy_eq, words_join _ rfl]
    _ = ((splitOn Mark.lineFeed s).map trim).flatMap words := flatMap_words_filter _
    _ = (splitOn Mark.lineFeed s).flatMap words := by simp only [List.flatMap_map, words_trim]
    _ = words (join Mark.lineFeed (splitOn Mark.lineFeed s)) := (words_join _ rfl _).symm
    _ = words s := by rw [join_splitOn]

theorem tidyLines_of_isAllBlank (s : Bytes) (blank : isAllBlank s = true) : tidyLines s = [] := by
  rw [tidyLines, List.filter_eq_nil_iff]
  intro shown member
  obtain ⟨line, found, rfl⟩ := List.mem_map.1 member
  have all : ∀ b ∈ line, isBlank b = true := by
    intro b inside
    by_cases ended : b = Mark.lineFeed
    · rw [ended]; rfl
    · exact List.all_eq_true.1 blank b ((mem_iff_of_splitOn _ b s ended).2 ⟨line, found, inside⟩)
  have gone : trim (line ++ []) = [] := trim_append_of_isBlank line [] all
  rw [List.append_nil] at gone
  simp [gone]

/-- A block shows the lines of what stands in it. -/
theorem tidyLines_framed (s : Bytes) :
    tidyLines (Mark.lineFeed :: s ++ [Mark.lineFeed]) = tidyLines s := by
  have front := tidyLines_append_cons [] (s ++ [Mark.lineFeed])
  rw [List.cons_append, ← List.nil_append (Mark.lineFeed :: _), front, tidyLines_append_cons,
    show tidyLines [] = [] from rfl, List.nil_append, List.append_nil]

/-- A text without blanks is one tidy line, if it is not empty. -/
theorem tidy_of_not_isBlank (s : Bytes) (unblank : ∀ b ∈ s, isBlank b = false) : tidy s = s := by
  have absent : Mark.lineFeed ∉ s := by
    intro member
    have refuted := unblank _ member
    contradiction
  rw [tidy_eq, tidyLines, splitOn_of_not_mem _ s absent, List.map_singleton,
    trim_of_not_isBlank s unblank]
  cases s with
  | nil => rfl
  | cons b s => simp

end FeedIntake.Markup
