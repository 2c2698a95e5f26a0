import FeedIntake.Checksum.Lemmas
import FeedIntake.Intake.Basic

/-!
Which stories of a document are taken. A story is news if its content differs from what was last
seen under its identity, in the document in front of it or before the document. Main statements:
exactly the news is taken, in order, each story in its own normal form; and it makes no difference
whether stories come in one document or in two, one after the other.
-/
namespace FeedIntake

/-- The digests under which a story is recorded. -/
def RawStory.sighting (raw : RawStory) : Digest × Digest :=
  (Digest.ofText raw.identity, Digest.ofText raw.body)

namespace Checksum

variable (checksum : Checksum)

/-- What was last seen under an identity: in the stories in front, or else before them. -/
def lastSeen? (front : List RawStory) (ident : Digest) : Option Digest :=
  ((front.map RawStory.sighting).reverse.lookup ident).or (checksum.seen? ident)

/-- Whether the content of a story differs from what was last seen under its identity. -/
def isNews (front : List RawStory) (story : RawStory) : Bool :=
  checksum.lastSeen? front story.sighting.1 != some story.sighting.2

/-- The stories that are news where they stand. -/
def news (stories : List RawStory) : List RawStory :=
  (stories.zipIdx.filter fun (story, place) => checksum.isNews (stories.take place) story).map (·.1)

theorem lastSeen?_eq (front : List RawStory) (ident : Digest) :
    checksum.lastSeen? front ident =
      (checksum.record (front.map RawStory.sighting)).seen? ident :=
  (checksum.seen?_record _ ident).symm

/-- A story is recorded in any case, and taken if it differs from what was last seen. -/
theorem sift_cons (story : RawStory) (rest : List RawStory) :
    checksum.sift (story :: rest) =
      (if checksum.seen? story.sighting.1 != some story.sighting.2
        then story :: ((checksum.put story.sighting.1 story.sighting.2).sift rest).1
        else ((checksum.put story.sighting.1 story.sighting.2).sift rest).1,
      ((checksum.put story.sighting.1 story.sighting.2).sift rest).2) := rfl

/-- Every story is recorded, whether it is taken or not. -/
theorem sift_snd (stories : List RawStory) :
    (checksum.sift stories).2 = checksum.record (stories.map RawStory.sighting) := by
  induction stories generalizing checksum with
  | nil => rfl
  | cons story rest ih =>
    rw [sift_cons]
    exact ih _

theorem sift_append (front rest : List RawStory) :
    checksum.sift (front ++ rest) =
      ((checksum.sift front).1 ++ ((checksum.sift front).2.sift rest).1,
        ((checksum.sift front).2.sift rest).2) := by
  induction front generalizing checksum with
  | nil => rfl
  | cons story front ih =>
    have later := ih (checksum.put story.sighting.1 story.sighting.2)
    rw [List.cons_append, sift_cons, sift_cons, later]
    split <;> rfl

theorem sift_sublist (stories : List RawStory) :
    (checksum.sift stories).1.Sublist stories := by
  induction stories generalizing checksum with
  | nil => exact .refl _
  | cons story rest ih =>
    have later := ih (checksum.update story.identity story.body).2
    rw [sift]
    dsimp only
    split
    · exact later.cons_cons story
    · exact later.cons story

/-- Behind some stories of a document, what is taken of the others is the news among them. -/
theorem sift_record_fst (front rest : List RawStory) :
    ((checksum.record (front.map RawStory.sighting)).sift rest).1 =
      ((rest.zipIdx front.length).filter fun (story, place) =>
        checksum.isNews ((front ++ rest).take place) story).map (·.1) := by
  -- The first story moves to the front, so the induction on the others is for every front.
  induction rest generalizing front with
  | nil => rfl
  | cons story rest ih =>
    have later := ih (front ++ [story])
    have recorded : checksum.record ((front ++ [story]).map RawStory.sighting) =
        (checksum.record (front.map RawStory.sighting)).put story.sighting.1 story.sighting.2 := by
      simp [record]
    have whole : (front ++ [story]) ++ rest = front ++ story :: rest := by simp
    rw [recorded, whole, List.length_append, List.length_singleton] at later
    have first : checksum.isNews ((front ++ story :: rest).take front.length) story =
        ((checksum.record (front.map RawStory.sighting)).seen? story.sighting.1
          != some story.sighting.2) := by
      rw [List.take_left, isNews, lastSeen?_eq]
    simp only [sift_cons, List.zipIdx_cons, List.filter_cons, later, first]
    split <;> rfl

theorem sift_fst (stories : List RawStory) :
    (checksum.sift stories).1 = checksum.news stories :=
  checksum.sift_record_fst [] stories

theorem news_append (front rest : List RawStory) :
    checksum.news (front ++ rest) =
      checksum.news front ++ (checksum.record (front.map RawStory.sighting)).news rest := by
  rw [← sift_fst, sift_append, sift_snd, sift_fst, sift_fst]

/-- There is no news exactly if every story has been seen before as it is. -/
theorem news_eq_nil_iff (stories : List RawStory) :
    checksum.news stories = [] ↔
      ∀ story ∈ stories, checksum.seen? story.sighting.1 = some story.sighting.2 := by
  rw [← sift_fst]
  induction stories generalizing checksum with
  | nil => simp [sift]
  | cons story rest ih =>
    rw [sift_cons, List.forall_mem_cons]
    by_cases known : checksum.seen? story.sighting.1 = some story.sighting.2
    · -- To see a story again as it was changes nothing but its age.
      have same : ∀ ident, (checksum.put story.sighting.1 story.sighting.2).seen? ident =
          checksum.seen? ident := by
        intro ident
        rw [seen?_put]
        split
        · next again => rw [again, known]
        · rfl
      simp [known, ih, same]
    · simp [known]

/-- Behind recorded stories a story is news as it is behind them in one document. -/
theorem isNews_record (front behind : List RawStory) (story : RawStory) :
    (checksum.record (front.map RawStory.sighting)).isNews behind story =
      checksum.isNews (front ++ behind) story := by
  rw [isNews, isNews, lastSeen?_eq, lastSeen?_eq, List.map_append, record, record, record,
    List.foldl_append]

end Checksum

namespace Intake

variable (html : Html)

/-- What has been seen behind a document is the same whether it is refused or not. -/
theorem parseBy_snd (intake : Intake) (document : RawDocument) :
    (intake.parseBy html document).2 =
      { intake with seen := intake.seen.record (document.stories.map RawStory.sighting) } := by
  rw [← Checksum.sift_snd]
  rfl

/-- A result holds the news of the document and, if results are checked, has no fault. -/
theorem parseBy_eq_ok_iff (intake next : Intake) (document : RawDocument) (result : FeedResult) :
    intake.parseBy html document = (.ok result, next) ↔
      result = resultBy html document.feed (intake.seen.news document.stories) ∧
      next = { intake with seen := intake.seen.record (document.stories.map RawStory.sighting) } ∧
      (intake.validates = true → result.fault? = none) := by
  rw [← Checksum.sift_fst, ← Checksum.sift_snd]
  simp only [parseBy, Prod.mk.injEq]
  constructor
  · rintro ⟨outcome, behind⟩
    split at outcome
    · contradiction
    · next faultless =>
      obtain rfl := Except.ok.inj outcome
      refine ⟨rfl, behind.symm, fun checked => ?_⟩
      rwa [if_pos checked] at faultless
  · rintro ⟨rfl, behind, faultless⟩
    refine ⟨?_, behind.symm⟩
    cases checked : intake.validates with
    | false => simp
    | true => simp [faultless checked]

theorem parseBy_unchecked (seen : Checksum) (document : RawDocument) :
    parseBy html ⟨seen, false⟩ document =
      (.ok (resultBy html document.feed (seen.news document.stories)),
        ⟨seen.record (document.stories.map RawStory.sighting), false⟩) :=
  (parseBy_eq_ok_iff html ⟨seen, false⟩ _ document _).2 ⟨rfl, rfl, nofun⟩

/-- Without checks, exactly the news of a document is taken, in order, each story in its normal form
and under its own identity; and stories that come in two documents leave behind and bring out what
they do in one. -/
theorem parseBy_takes_news (seen : Checksum) :
    (∀ document, ∃ result next, parseBy html ⟨seen, false⟩ document = (.ok result, next) ∧
      result.feed = document.feed.normalizeBy html ∧
      result.stories = (seen.news document.stories).map (·.normalizeBy html result.feed.url) ∧
      result.stories.map (·.ident) =
        (seen.news document.stories).map fun raw => raw.ident.getD []) ∧
    ∀ (feed : RawFeed) (front rest : List RawStory), ∃ whole first second after between last,
      parseBy html ⟨seen, false⟩ ⟨feed, front ++ rest⟩ = (.ok whole, after) ∧
      parseBy html ⟨seen, false⟩ ⟨feed, front⟩ = (.ok first, between) ∧
      parseBy html between ⟨feed, rest⟩ = (.ok second, last) ∧
      whole.stories = first.stories ++ second.stories ∧
      ∀ limit, after.seen.dump limit = last.seen.dump limit := by
  constructor
  · intro document
    refine ⟨_, _, parseBy_unchecked html seen document, rfl, rfl, ?_⟩
    rw [resultBy, List.map_map]
    rfl
  · intro feed front rest
    refine ⟨_, _, _, _, _, _, parseBy_unchecked html seen _, parseBy_unchecked html seen _,
      parseBy_unchecked html _ _, ?_, ?_⟩
    · rw [Checksum.news_append]
      exact List.map_append
    · intro limit
      rw [List.map_append, Checksum.record, List.foldl_append]
      rfl

end Intake

end FeedIntake
