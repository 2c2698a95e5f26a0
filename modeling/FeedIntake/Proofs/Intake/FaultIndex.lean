import Mathlib.Data.List.Induction
import FeedIntake.Proofs.Intake.News

/-!
The index in a refusal. It counts the stories that were taken, so it is the place of the story in
the document only if nothing in front of that was left out. Main statement: the story named is the
first with a fault among the news of the document, and the index is the number of the news in front
of it.
-/
namespace FeedIntake

variable (normalForm : RawStory → Story)

theorem storiesFault?_origin (index : Nat) (raws : List RawStory) (error : IntakeError)
    (found : storiesFault? index (raws.map normalForm) = some error) :
    ∃ front raw rest cause, raws = front ++ raw :: rest ∧
      (∀ earlier ∈ front, (normalForm earlier).fault? = none) ∧
      (normalForm raw).fault? = some cause ∧ error = ⟨some (index + front.length), cause⟩ := by
  induction raws generalizing index with
  | nil => simp [storiesFault?] at found
  | cons first others ih =>
    rw [List.map_cons, storiesFault?] at found
    cases fault : (normalForm first).fault? with
    | some cause =>
      simp only [fault, Option.some.injEq] at found
      exact ⟨[], first, others, cause, rfl, by simp, fault, found.symm⟩
    | none =>
      simp only [fault] at found
      obtain ⟨front, raw, rest, cause, rfl, clean, faulty, rfl⟩ := ih (index + 1) found
      refine ⟨first :: front, raw, rest, cause, rfl, ?_, faulty, ?_⟩
      · intro earlier member
        rcases List.mem_cons.1 member with rfl | member
        · exact fault
        · exact clean earlier member
      · rw [List.length_cons, Nat.add_assoc, Nat.add_comm 1]

theorem storiesFault?_complete (index : Nat) (front rest : List RawStory) (raw : RawStory)
    (cause : FieldError) (clean : ∀ earlier ∈ front, (normalForm earlier).fault? = none)
    (faulty : (normalForm raw).fault? = some cause) :
    storiesFault? index ((front ++ raw :: rest).map normalForm) =
      some ⟨some (index + front.length), cause⟩ := by
  induction front generalizing index with
  | nil => simp [storiesFault?, faulty]
  | cons first front ih =>
    obtain ⟨none, others⟩ := List.forall_mem_cons.1 clean
    have later := ih (index + 1) others
    simp only [List.cons_append, List.map_cons, storiesFault?, none, later, List.length_cons]
    congr 3
    omega

/-- The index of a story is that of the first with a fault; the feed has none then. -/
theorem fault?_resultBy_eq_some_iff (html : Html) (feed : RawFeed) (raws : List RawStory)
    (index : Nat) (cause : FieldError) :
    (Intake.resultBy html feed raws).fault? = some ⟨some index, cause⟩ ↔
      (feed.normalizeBy html).fault? = none ∧
      ∃ front raw rest, raws = front ++ raw :: rest ∧ front.length = index ∧
        (∀ earlier ∈ front,
          (earlier.normalizeBy html (feed.normalizeBy html).url).fault? = none) ∧
        (raw.normalizeBy html (feed.normalizeBy html).url).fault? = some cause := by
  rw [FeedResult.fault?, Intake.resultBy]
  cases faultless : (feed.normalizeBy html).fault? with
  | some cause => simp
  | none =>
    simp only [true_and]
    constructor
    · intro found
      obtain ⟨front, raw, rest, cause, whole, clean, faulty, same⟩ :=
        storiesFault?_origin _ 0 raws _ found
      obtain ⟨index, rfl⟩ := IntakeError.mk.inj same
      exact ⟨front, raw, rest, whole, by simpa using index.symm, clean, faulty⟩
    · rintro ⟨front, raw, rest, rfl, rfl, clean, faulty⟩
      simpa using storiesFault?_complete _ 0 front rest raw cause clean faulty

namespace Checksum

variable (checksum : Checksum)

theorem news_sublist (stories : List RawStory) : (checksum.news stories).Sublist stories := by
  rw [← sift_fst]
  exact checksum.sift_sublist stories

theorem news_append_singleton (stories : List RawStory) (raw : RawStory) :
    checksum.news (stories ++ [raw]) =
      checksum.news stories ++ if checksum.isNews stories raw then [raw] else [] := by
  have alone : (checksum.record (stories.map RawStory.sighting)).news [raw] =
      if checksum.isNews stories raw then [raw] else [] := by
    rw [← sift_fst, sift_cons, isNews, lastSeen?_eq]
    rfl
  rw [news_append, alone]

/-- What is taken stands in the document behind what was taken before it. -/
theorem news_origin (stories front rest : List RawStory) (raw : RawStory)
    (split : checksum.news stories = front ++ raw :: rest) :
    ∃ before after, stories = before ++ raw :: after ∧ checksum.news before = front ∧
      checksum.isNews before raw = true := by
  -- The last story is the one, or comes behind it and may have been taken or not.
  induction stories using List.reverseRecOn generalizing rest with
  | nil => simp [news] at split
  | append_singleton init last ih =>
    rw [news_append_singleton] at split
    by_cases taken : checksum.isNews init last = true
    · rw [if_pos taken] at split
      rcases List.eq_nil_or_concat rest with rfl | ⟨rest, final, rfl⟩
      · obtain ⟨same, one⟩ := List.append_inj' split rfl
        obtain rfl := List.singleton_inj.1 one
        exact ⟨init, [], rfl, same, taken⟩
      · have whole : front ++ raw :: (rest ++ [final]) = (front ++ raw :: rest) ++ [final] := by
          simp
        rw [List.concat_eq_append, whole] at split
        obtain ⟨same, -⟩ := List.append_inj' split rfl
        obtain ⟨before, after, rfl, news, isNews⟩ := ih rest same
        exact ⟨before, after ++ [last], by simp, news, isNews⟩
    · rw [if_neg taken, List.append_nil] at split
      obtain ⟨before, after, rfl, news, isNews⟩ := ih rest split
      exact ⟨before, after ++ [last], by simp, news, isNews⟩

theorem news_complete (before after : List RawStory) (raw : RawStory)
    (isNews : checksum.isNews before raw = true) :
    ∃ rest, checksum.news (before ++ raw :: after) = checksum.news before ++ raw :: rest := by
  have whole : before ++ raw :: after = (before ++ [raw]) ++ after := by simp
  rw [whole, news_append, news_append_singleton, if_pos isNews, List.append_assoc]
  exact ⟨_, rfl⟩

end Checksum

namespace Intake

variable (html : Html)

theorem exists_parseBy_eq_error_iff (intake : Intake) (document : RawDocument)
    (error : IntakeError) :
    (∃ next, intake.parseBy html document = (.error error, next)) ↔
      intake.validates = true ∧
      (resultBy html document.feed (intake.seen.news document.stories)).fault? = some error := by
  rw [← Checksum.sift_fst]
  simp only [parseBy, Prod.mk.injEq, exists_and_left, exists_eq', and_true]
  cases intake.validates with
  | false => simp
  | true =>
    cases fault : (resultBy html document.feed
        (intake.seen.sift document.stories).1).fault? with
    | none => simp
    | some cause => simp

/-- A document is refused for a story exactly if the story is the first of its news with a fault.
The index is the number of the news in front of the story, which is its place in the document only
if all stories in front of it are news. -/
theorem parseBy_fault_index_iff (intake : Intake) (document : RawDocument) :
    (∀ index cause,
      (∃ next, intake.parseBy html document = (.error ⟨some index, cause⟩, next)) ↔
      intake.validates = true ∧ (document.feed.normalizeBy html).fault? = none ∧
      ∃ before raw after, document.stories = before ++ raw :: after ∧
        intake.seen.isNews before raw = true ∧
        (intake.seen.news before).length = index ∧
        (∀ earlier ∈ intake.seen.news before,
          (earlier.normalizeBy html (document.feed.normalizeBy html).url).fault? = none) ∧
        (raw.normalizeBy html (document.feed.normalizeBy html).url).fault? = some cause) ∧
    ∀ before, (intake.seen.news before).length ≤ before.length ∧
      ((intake.seen.news before).length = before.length ↔ intake.seen.news before = before) := by
  constructor
  · intro index cause
    rw [exists_parseBy_eq_error_iff, fault?_resultBy_eq_some_iff]
    refine and_congr_right fun _ => and_congr_right fun _ => ?_
    constructor
    · rintro ⟨front, raw, rest, split, rfl, clean, faulty⟩
      obtain ⟨before, after, whole, rfl, isNews⟩ := intake.seen.news_origin _ _ _ _ split
      exact ⟨before, raw, after, whole, isNews, rfl, clean, faulty⟩
    · rintro ⟨before, raw, after, whole, isNews, rfl, clean, faulty⟩
      obtain ⟨rest, split⟩ := intake.seen.news_complete before after raw isNews
      exact ⟨_, raw, rest, whole ▸ split, rfl, clean, faulty⟩
  · intro before
    have kept := intake.seen.news_sublist before
    exact ⟨kept.length_le, kept.eq_of_length, congrArg List.length⟩

/-- A story, the same story again, and one without an identity. -/
def repeatedDocument : RawDocument where
  feed := {
    url := some (Bytes.ofString "http://example.com/feed")
    title := some (Bytes.ofString "Feed") }
  stories :=
    let story : RawStory := {
      ident := some (Bytes.ofString "http://example.com/1")
      title := some (Bytes.ofString "Story")
      content := some (Bytes.ofString "Text") }
    [story, story, {}]

/-- The document is refused for its third story with the index of its second, which has no fault.
-/
theorem parse_index_is_not_place :
    ∃ next, parse ⟨.empty, true⟩ repeatedDocument = (.error ⟨some 1, ⟨.ident, .missing⟩⟩, next) ∧
      ∃ raw, repeatedDocument.stories[1]? = some raw ∧
        (raw.normalize (repeatedDocument.feed.normalizeBy Fragment.html).url).fault? = none := by
  have once : Checksum.empty.news repeatedDocument.stories = [repeatedDocument.stories[0], {}] := by
    decide +kernel
  have refused := (exists_parseBy_eq_error_iff Fragment.html ⟨.empty, true⟩ repeatedDocument
    ⟨some 1, ⟨.ident, .missing⟩⟩).2 ⟨rfl, by rw [once]; decide +kernel⟩
  obtain ⟨next, parsed⟩ := refused
  exact ⟨next, parsed, _, rfl, by decide +kernel⟩

end Intake

end FeedIntake
