import FeedIntake.Proofs.Intake.News
import FeedIntake.Proofs.Markup.Inert

/-!
The content of the stories that are taken from a document. Main statement: content that was a
fragment without markup is one again exactly if it is short enough to be kept as HTML, or if the
text it shows has no markup. Long content is not: it comes out with its references resolved.
-/
namespace FeedIntake

theorem RawStory.content_normalize (raw : RawStory) (feedUrl fragment : Bytes)
    (given : raw.content = some fragment) :
    ∃ base, (raw.normalize feedUrl).content = some (Fragment.html.content fragment base) := by
  refine ⟨(Url.web? (Url.normalize raw.place feedUrl)).getD feedUrl, ?_⟩
  simp only [normalize, normalizeBy, given, Option.map_some]

namespace Intake

/-- A result holds the normal forms of the stories that were sifted out, in their order. -/
theorem parse_ok (intake : Intake) (document : RawDocument) (result : FeedResult) (next : Intake)
    (parsed : intake.parse document = (.ok result, next)) :
    result = resultOf document.feed (intake.seen.sift document.stories).1 ∧
      next = { intake with seen := (intake.seen.sift document.stories).2 } := by
  obtain ⟨taken, behind, -⟩ :=
    (parseBy_eq_ok_iff Fragment.html intake next document result).1 parsed
  rw [Checksum.sift_fst, Checksum.sift_snd]
  exact ⟨taken, behind⟩

/-- Each story of a result comes from one of the document, in order, and where the content of that
one has no markup, that of the story has none exactly if the cleaned content is below the limit or
the text it shows has no markup either. -/
theorem parse_content_inert_iff (intake : Intake) (document : RawDocument) (result : FeedResult)
    (next : Intake) (parsed : intake.parse document = (.ok result, next)) :
    ∃ taken : List RawStory, taken.Sublist document.stories ∧
      result.stories = taken.map (·.normalize result.feed.url) ∧
      ∀ raw ∈ taken, ∀ fragment, raw.content = some fragment → Fragment.IsInert fragment →
        ∃ content, (raw.normalize result.feed.url).content = some content ∧
          (Fragment.IsInert content ↔
            (Fragment.clean fragment).length < Normalize.contentLimit ∨
              Fragment.IsInert (Fragment.decode fragment)) := by
  obtain ⟨rfl, -⟩ := intake.parse_ok document result next parsed
  refine ⟨_, intake.seen.sift_sublist document.stories, rfl, ?_⟩
  intro raw _ fragment given _
  obtain ⟨base, content⟩ := raw.content_normalize _ fragment given
  exact ⟨_, content, Fragment.isInert_content fragment base⟩

/-- A text that begins with a script, with letters behind it. -/
def scriptText (letters : Nat) : Bytes :=
  Bytes.ofString "<script>alert(1)</script>" ++ List.replicate letters 0x61

/-- A fragment without markup that shows this text. -/
def scriptFragment (letters : Nat) : Bytes :=
  Bytes.ofString "&lt;script&gt;alert(1)&lt;/script&gt;" ++ List.replicate letters 0x61

def scriptDocument (letters : Nat) : RawDocument where
  feed := {
    url := some (Bytes.ofString "http://example.com/feed")
    title := some (Bytes.ofString "Feed") }
  stories := [{
    ident := some (Bytes.ofString "http://example.com/1")
    title := some (Bytes.ofString "Story")
    content := some (scriptFragment letters) }]

theorem escape_scriptText (letters : Nat) :
    Fragment.escape (scriptText letters) = scriptFragment letters := by
  have script : Fragment.escape (Bytes.ofString "<script>alert(1)</script>") =
      Bytes.ofString "&lt;script&gt;alert(1)&lt;/script&gt;" := by decide
  have behind : Fragment.escape (List.replicate letters 0x61) = List.replicate letters 0x61 := by
    induction letters with
    | zero => rfl
    | succ letters ih =>
      rw [List.replicate_succ, Fragment.escape_cons, ih]
      rfl
  rw [scriptText, Fragment.escape_append, script, behind, scriptFragment]

theorem isInert_scriptFragment (letters : Nat) : Fragment.IsInert (scriptFragment letters) := by
  rw [← escape_scriptText]
  exact Fragment.isInert_escape _

theorem clean_scriptFragment (letters : Nat) :
    Fragment.clean (scriptFragment letters) = scriptFragment letters := by
  have full : Bytes.isAllBlank (scriptFragment letters) = false := rfl
  rw [Fragment.clean_eq, full, if_neg Bool.false_ne_true, ← escape_scriptText,
    Fragment.decode_escape]

/-- There is one line in the text, and no blank. -/
theorem text_scriptFragment (letters : Nat) :
    Fragment.text (scriptFragment letters) = scriptText letters := by
  have unblank : ∀ b ∈ scriptText letters, Bytes.isBlank b = false := by
    have script : (Bytes.ofString "<script>alert(1)</script>").all (!Bytes.isBlank ·) = true := by
      decide
    intro b member
    rcases List.mem_append.1 member with front | behind
    · simpa using List.all_eq_true.1 script b front
    · rw [(List.mem_replicate.1 behind).2]
      rfl
  rw [Fragment.text_eq, ← escape_scriptText, Fragment.decode_escape,
    Markup.tidy_of_not_isBlank _ unblank]

/-- Content of at least a mebibyte is kept as the text that it shows. -/
theorem content_scriptFragment (letters : Nat) (long : Normalize.contentLimit ≤ letters)
    (base : Bytes) : Fragment.html.content (scriptFragment letters) base = scriptText letters := by
  have longer : Normalize.contentLimit ≤ (scriptFragment letters).length := by
    rw [scriptFragment, List.length_append, List.length_replicate]
    exact Nat.le_trans long (Nat.le_add_left _ _)
  rw [Html.content, Fragment.html_clean, Fragment.html_text, clean_scriptFragment, if_pos longer,
    text_scriptFragment]

/-- A short script comes out as the references it came in as. -/
theorem parse_short_script_inert :
    ∃ result next content, parse ⟨.empty, false⟩ (scriptDocument 3) = (.ok result, next) ∧
      Fragment.IsInert (scriptFragment 3) ∧ result.stories.map (·.content) = [some content] ∧
      Fragment.IsInert content := by
  have parsed : parse ⟨.empty, false⟩ (scriptDocument 3) =
      (.ok (resultOf _ (scriptDocument 3).stories), _) := rfl
  obtain ⟨taken, whole, stories, inert⟩ := parse_content_inert_iff _ _ _ _ parsed
  have one : taken.length = 1 := by
    have lengths := congrArg List.length stories
    rw [List.length_map] at lengths
    exact lengths.symm
  have same : taken = (scriptDocument 3).stories := whole.eq_of_length one
  subst same
  obtain ⟨content, emitted, exactly⟩ := inert _ (List.mem_singleton_self _) _ rfl
    (isInert_scriptFragment 3)
  have short : (Fragment.clean (scriptFragment 3)).length < Normalize.contentLimit := by
    decide +kernel
  refine ⟨_, _, content, parsed, isInert_scriptFragment 3, ?_, exactly.2 (.inl short)⟩
  rw [stories]
  exact congrArg (fun kept => [kept]) emitted

/-- A script with a mebibyte behind it comes out as a script. -/
theorem parse_oversized_script :
    ∃ result next, parse ⟨.empty, false⟩ (scriptDocument 1048576) = (.ok result, next) ∧
      Fragment.IsInert (scriptFragment 1048576) ∧
      result.stories.map (·.content) = [some (scriptText 1048576)] ∧
      ¬ Fragment.IsInert (scriptText 1048576) := by
  refine ⟨_, _, rfl, isInert_scriptFragment _,
    congrArg (fun kept => [some kept]) (content_scriptFragment _ (Nat.le_refl _) _), ?_⟩
  intro inert
  exact inert.1 (List.mem_append_left _ (by decide))

end Intake

end FeedIntake
