import FeedIntake.Proofs.Checksum.Log
import FeedIntake.Proofs.Intake.News

/-!
Documents that are refused. Main statement: what has been seen behind a refused document is what
would have been seen had it been taken, so that its stories are no news any more, although none of
them was given out.
-/
namespace FeedIntake.Intake

variable (html : Html)

/-- Behind a refused document all of its stories have been seen. This is no change exactly if what
is kept of them had been seen last before, in their order. A story of a later document is taken if
it would be news with the stories of the refused document in front. -/
theorem parseBy_refused (intake next : Intake) (document : RawDocument) (error : IntakeError)
    (refused : intake.parseBy html document = (.error error, next)) :
    next.seen.toList = Log.putAll intake.seen.toList (document.stories.map RawStory.sighting) ∧
    (next.seen.toList = intake.seen.toList ↔
      Log.onlyLast (document.stories.map RawStory.sighting) <:+ intake.seen.toList) ∧
    ∀ (later : RawDocument) (result : FeedResult) (last : Intake),
      next.parseBy html later = (.ok result, last) →
      result.stories = (later.stories.zipIdx.filter fun (story, place) =>
        intake.seen.isNews (document.stories ++ later.stories.take place) story).map fun entry =>
          entry.1.normalizeBy html result.feed.url := by
  have seen : next.seen = intake.seen.record (document.stories.map RawStory.sighting) := by
    have behind := parseBy_snd html intake document
    rw [refused] at behind
    exact congrArg Intake.seen behind
  have kept := intake.seen.toList_record (document.stories.map RawStory.sighting)
  rw [seen]
  refine ⟨kept, ?_, ?_⟩
  · rw [kept]
    exact Log.putAll_eq_self_iff _ _ intake.seen.toList_distinct
  · intro later result last parsed
    obtain ⟨rfl, -, -⟩ := (parseBy_eq_ok_iff html next last later result).1 parsed
    rw [seen]
    simp only [resultBy, Checksum.news, Checksum.isNews_record, List.map_map]
    rfl

/-- A feed under this title, if any, with one story. -/
def titledDocument (title : Option Bytes) : RawDocument where
  feed := { url := some (Bytes.ofString "http://example.com/feed"), title }
  stories := [{
    ident := some (Bytes.ofString "http://example.com/1")
    title := some (Bytes.ofString "Story")
    content := some (Bytes.ofString "Text") }]

/-- Without a title the document is refused, and its story has been seen. -/
theorem parseBy_refused_untitled :
    ∃ error next,
      parseBy Fragment.html ⟨.empty, true⟩ (titledDocument none) = (.error error, next) ∧
      next.seen.toList = (titledDocument none).stories.map RawStory.sighting ∧
      next.seen.toList ≠ Checksum.empty.toList := by
  have refused : parseBy Fragment.html ⟨.empty, true⟩ (titledDocument none) =
      (.error ⟨none, ⟨.title, .missing⟩⟩, _) := rfl
  obtain ⟨kept, -, -⟩ := parseBy_refused Fragment.html _ _ _ _ refused
  refine ⟨_, _, refused, kept, ?_⟩
  rw [kept]
  exact List.cons_ne_nil _ _

/-- A story that is new in a refused document does not come out of the same document with a title,
although it would have come out if that had come first. -/
theorem parse_refused_loses_story :
    ∃ next result last fresh after,
      parse ⟨.empty, true⟩ (titledDocument none) = (.error ⟨none, ⟨.title, .missing⟩⟩, next) ∧
      next.seen.toList ≠ Checksum.empty.toList ∧
      next.parse (titledDocument (some (Bytes.ofString "Feed"))) = (.ok result, last) ∧
      result.stories = [] ∧
      parse ⟨.empty, true⟩ (titledDocument (some (Bytes.ofString "Feed"))) = (.ok fresh, after) ∧
      fresh.stories ≠ [] := by
  let next := (parse ⟨.empty, true⟩ (titledDocument none)).2
  have silent : next.seen.news (titledDocument (some (Bytes.ofString "Feed"))).stories = [] := by
    rw [Checksum.news_eq_nil_iff]
    intro story only
    obtain rfl := List.mem_singleton.1 only
    exact (Checksum.empty.seen?_put _ _ _).trans (if_pos rfl)
  have again := (parseBy_eq_ok_iff Fragment.html next _
    (titledDocument (some (Bytes.ofString "Feed"))) _).2 ⟨rfl, rfl, fun _ => by
      rw [silent]
      decide +kernel⟩
  have first := (parseBy_eq_ok_iff Fragment.html ⟨.empty, true⟩ _
    (titledDocument (some (Bytes.ofString "Feed"))) _).2 ⟨rfl, rfl, fun _ => by
      decide +kernel⟩
  rw [silent] at again
  refine ⟨next, _, _, _, _, rfl, ?_, again, rfl, first, ?_⟩
  · exact List.cons_ne_nil _ _
  · exact List.cons_ne_nil _ _

end FeedIntake.Intake
