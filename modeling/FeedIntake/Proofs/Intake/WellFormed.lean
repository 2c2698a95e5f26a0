import Mathlib.Data.List.ReduceOption
import FeedIntake.Proofs.Intake.News
import FeedIntake.Proofs.Markup.Text
import FeedIntake.Proofs.Record.Text
import FeedIntake.Proofs.Url.Links

/-!
What becomes of well-formed documents. Main statement: the result for a document of well-formed
texts is one of well-formed texts, and can be written as JSON, exactly if every link that is
published leads to a URL that is written well-formed. Links in a document whose URL is well-formed
do so exactly if the host that they lead to is, which is decoded when it is read.
-/
namespace FeedIntake

open Utf8

/-- What is published of a link that was found in the document at `base` is well-formed. -/
def Url.PublishesText (link base : Bytes) : Prop :=
  ∀ url ∈ published? link base, isValid url.render = true

instance (link base : Bytes) : Decidable (Url.PublishesText link base) :=
  inferInstanceAs (Decidable (∀ url ∈ Url.published? link base, isValid url.render = true))

theorem Url.forall_publishesText_iff (links : List (Option Bytes)) (base : Bytes) :
    (∀ link ∈ links.reduceOption.map (·, base), PublishesText link.1 link.2) ↔
      ∀ link ∈ links, ∀ s ∈ link, PublishesText s base := by
  simp only [List.forall_mem_map, List.reduceOption_mem_iff]
  constructor
  · rintro all _ listed s rfl
    exact all s listed
  · exact fun all s listed => all (some s) listed s rfl

/-- The links of a raw feed with the URL of the document they are found in. -/
def RawFeed.links (raw : RawFeed) : List (Bytes × Bytes) :=
  [raw.homeUrl, raw.iconUrl, raw.authorUrl, raw.authorAvatarUrl].reduceOption.map
    (·, Bytes.trim (raw.url.getD []))

/-- The URL of the page of a story: its own, or that of its feed. -/
def RawStory.base (raw : RawStory) (feedUrl : Bytes) : Bytes :=
  (Url.web? (Url.normalize raw.place feedUrl)).getD feedUrl

/-- The links of a raw story with the URLs of the documents they are found in. -/
def RawStory.links (raw : RawStory) (feedUrl : Bytes) : List (Bytes × Bytes) :=
  (raw.place, feedUrl) ::
    [raw.imageUrl, raw.authorUrl, raw.authorAvatarUrl].reduceOption.map (·, raw.base feedUrl)

/-- The links of what is taken from a document. -/
def Intake.links (intake : Intake) (document : RawDocument) : List (Bytes × Bytes) :=
  document.feed.links ++ (intake.seen.news document.stories).flatMap
    (·.links (Bytes.trim (document.feed.url.getD [])))

theorem Normalize.isValid_link?_iff (link : Option Bytes) (base : Bytes)
    (valid : ∀ s ∈ link, isValid s = true) :
    (∀ s ∈ link? link base, isValid s = true) ↔ ∀ s ∈ link, Url.PublishesText s base := by
  cases link with
  | none => simp [link?]
  | some link =>
    have made := Url.isValid_web?_iff link base (valid link rfl)
    by_cases blank : Bytes.isAllBlank link = true
    · simp [link?, blank, Url.PublishesText, Url.published?, Url.target?_of_isAllBlank]
    · simpa [link?, blank, Url.PublishesText] using made

theorem isValid_getD (text : Option Bytes) (valid : ∀ s ∈ text, isValid s = true) :
    isValid (text.getD []) = true := by
  cases text with
  | none => rfl
  | some s => exact valid s rfl

theorem RawStory.isValid_place (raw : RawStory) (text : AreText raw.texts) :
    isValid raw.place = true := by
  simp only [texts, areText_cons_iff] at text
  obtain ⟨ident, -, url, -⟩ := text
  rw [place]
  cases given : raw.url.filter (!Bytes.isAllBlank ·) with
  | none => exact isValid_getD _ ident
  | some s => exact url s (Option.mem_filter_iff.1 given).1

theorem Intake.mem_of_mem_news (intake : Intake) (document : RawDocument) (raw : RawStory)
    (taken : raw ∈ intake.seen.news document.stories) : raw ∈ document.stories := by
  rw [← Checksum.sift_fst] at taken
  exact (intake.seen.sift_sublist document.stories).subset taken

/-- The links of a document of well-formed texts are well-formed. -/
theorem Intake.isValid_of_mem_links (intake : Intake) (document : RawDocument)
    (text : document.IsText) : ∀ link ∈ intake.links document, isValid link.1 = true := by
  have among : ∀ (links texts : List (Option Bytes)) (base : Bytes), links ⊆ texts →
      AreText texts → ∀ link ∈ links.reduceOption.map (·, base), isValid link.1 = true := by
    intro links texts base listed text link member
    obtain ⟨s, inside, rfl⟩ := List.mem_map.1 member
    exact text (some s) (listed (List.reduceOption_mem_iff.1 inside)) s rfl
  intro link member
  rcases List.mem_append.1 member with feed | story
  · refine among _ _ _ ?_ text.1 link feed
    simp [RawFeed.texts]
  · obtain ⟨raw, taken, inside⟩ := List.mem_flatMap.1 story
    have text := text.2 raw (intake.mem_of_mem_news document raw taken)
    rcases List.mem_cons.1 inside with rfl | inside
    · exact raw.isValid_place text
    · refine among _ _ _ ?_ text link inside
      simp [RawStory.texts]

section Records

variable (html : Html) (keeps : html.KeepsText)

include keeps

theorem RawFeed.areText_normalizeBy_iff (raw : RawFeed) (text : AreText raw.texts) :
    AreText (raw.normalizeBy html).texts ↔ ∀ link ∈ raw.links, Url.PublishesText link.1 link.2 := by
  simp only [texts, areText_cons_iff, areText_nil, and_true] at text
  obtain ⟨version, title, url, homeUrl, iconUrl, description, -, authorName, authorUrl,
    authorAvatarUrl⟩ := text
  have version := isValid_trim _ (isValid_getD _ version)
  have url := isValid_trim _ (isValid_getD _ url)
  have title := keeps.line Limit.title _ title
  have description := keeps.line Limit.description _ description
  have authorName := keeps.line? Limit.authorName _ authorName
  have link := fun link => Normalize.isValid_link?_iff link (Bytes.trim (raw.url.getD []))
  simp only [Feed.texts, normalizeBy, areText_cons_iff, areText_nil, iff_true_intro authorName,
    link _ homeUrl, link _ iconUrl, link _ authorUrl, link _ authorAvatarUrl, links,
    Url.forall_publishesText_iff, List.forall_mem_cons]
  simp [version, url, title, description]

theorem RawStory.isValid_summaryBy (raw : RawStory) (text : AreText raw.texts) :
    isValid (raw.summaryBy html) = true := by
  simp only [texts, areText_cons_iff] at text
  obtain ⟨-, -, -, content, summary, -⟩ := text
  rw [summaryBy]
  split
  · next own given => exact keeps.summary own (summary own (Option.mem_filter_iff.1 given).1)
  · refine isValid_getD _ fun s member => ?_
    obtain ⟨fragment, given, rfl⟩ := Option.mem_map.1 member
    exact keeps.summary fragment (content fragment given)

theorem RawStory.areText_normalizeBy_iff (raw : RawStory) (feedUrl : Bytes)
    (text : AreText raw.texts) :
    AreText (raw.normalizeBy html feedUrl).texts ↔
      ∀ link ∈ raw.links feedUrl, Url.PublishesText link.1 link.2 := by
  have summary := raw.isValid_summaryBy html keeps text
  have place := raw.isValid_place text
  simp only [texts, areText_cons_iff, areText_nil, and_true] at text
  obtain ⟨ident, title, -, content, -, imageUrl, -, -, authorName, authorUrl, authorAvatarUrl⟩ :=
    text
  have ident := isValid_getD _ ident
  have title := keeps.line Limit.title _ title
  have authorName := keeps.line? Limit.authorName _ authorName
  have content : ∀ s ∈ raw.content.map fun fragment => html.content fragment (raw.base feedUrl),
      isValid s = true := by
    intro s member
    obtain ⟨fragment, given, rfl⟩ := Option.mem_map.1 member
    exact keeps.content fragment _ (content fragment given)
  have url := Url.isValid_web?_iff raw.place feedUrl place
  have link := fun link => Normalize.isValid_link?_iff link (raw.base feedUrl)
  simp only [base] at content link
  simp only [Story.texts, normalizeBy, areText_cons_iff, areText_nil, iff_true_intro authorName,
    iff_true_intro content, url, link _ imageUrl, link _ authorUrl, link _ authorAvatarUrl, links,
    base, List.forall_mem_cons, Url.forall_publishesText_iff]
  simp [RawStory.identity, ident, title, summary, Url.PublishesText]

/-- A result is one of well-formed texts exactly if every link that is published is well-formed. -/
theorem Intake.isText_iff_of_parseBy (intake next : Intake) (document : RawDocument)
    (result : FeedResult) (text : document.IsText)
    (parsed : intake.parseBy html document = (.ok result, next)) :
    result.IsText ↔ ∀ link ∈ intake.links document, Url.PublishesText link.1 link.2 := by
  obtain ⟨rfl, -⟩ := (parseBy_eq_ok_iff html intake next document result).1 parsed
  have feed := document.feed.areText_normalizeBy_iff html keeps text.1
  have stories : (∀ story ∈ (resultBy html document.feed
      (intake.seen.news document.stories)).stories, AreText story.texts) ↔
      ∀ raw ∈ intake.seen.news document.stories,
        ∀ link ∈ raw.links (document.feed.normalizeBy html).url,
          Url.PublishesText link.1 link.2 := by
    rw [resultBy, List.forall_mem_map]
    refine forall₂_congr fun raw taken => raw.areText_normalizeBy_iff html keeps _ ?_
    exact text.2 raw (intake.mem_of_mem_news document raw taken)
  rw [FeedResult.IsText, stories, links, List.forall_mem_append, List.forall_mem_flatMap]
  exact and_congr feed Iff.rfl

end Records

namespace Intake

/-- The result for a document of well-formed texts is one of well-formed texts, and can be written
as JSON, exactly if every link that is published leads to a URL that is written well-formed; which,
if the URL of the document that a link was found in is, is for the host of that URL to decide. -/
theorem parse_isText_iff (intake next : Intake) (document : RawDocument) (result : FeedResult)
    (text : document.IsText) (parsed : intake.parse document = (.ok result, next)) :
    (result.IsText ↔ ∀ link ∈ intake.links document, Url.PublishesText link.1 link.2) ∧
    (∀ link ∈ intake.links document,
      (∀ source, Url.ofText? link.2 = some source → isValid source.render = true) →
      (Url.PublishesText link.1 link.2 ↔
        ∀ url ∈ Url.published? link.1 link.2, url.HasTextHost)) ∧
    ∀ layout, (∃ written, result.toJson.renderStrict layout = .ok written) ↔ result.IsText := by
  refine ⟨?_, ?_, ?_⟩
  · exact intake.isText_iff_of_parseBy _ Fragment.html_keepsText next document result text parsed
  · intro link member whole
    have valid := intake.isValid_of_mem_links document text link member
    exact forall₂_congr fun url published =>
      Url.isValid_render_published?_iff link.1 link.2 url published valid whole
  · intro layout
    rw [Json.exists_renderStrict_iff, result.isText_toJson_iff]

/-- A feed with a home page, and no stories. -/
def homeDocument (homeUrl : String) : RawDocument where
  feed := {
    url := some (Bytes.ofString "http://example.com/feed")
    title := some (Bytes.ofString "Feed")
    homeUrl := some (Bytes.ofString homeUrl) }
  stories := []

/-- A host that decodes to a letter beyond ASCII comes out as that letter. -/
theorem parse_isText_decoded_letter :
    ∃ result next, parse ⟨.empty, true⟩ (homeDocument "http://%c3%a9/") = (.ok result, next) ∧
      (homeDocument "http://%c3%a9/").IsText ∧
      result.feed.homeUrl = some (Bytes.ofString "http://é/") ∧ result.IsText := by
  have parsed : parse ⟨.empty, true⟩ (homeDocument "http://%c3%a9/") =
      (.ok (resultOf (homeDocument "http://%c3%a9/").feed []), _) :=
    (parseBy_eq_ok_iff Fragment.html _ _ _ _).2 ⟨rfl, rfl, fun _ => by decide +kernel⟩
  have text : (homeDocument "http://%c3%a9/").IsText := by decide +kernel
  refine ⟨_, _, parsed, text, by decide +kernel, ?_⟩
  exact (parse_isText_iff _ _ _ _ text parsed).1.2 (by decide +kernel)

/-- A document of well-formed texts whose home page has a host that decodes to no letter at all is
published, but its result cannot be written. -/
theorem parse_decoded_host_illFormed :
    ∃ result next, parse ⟨.empty, true⟩ (homeDocument "http://%ff/") = (.ok result, next) ∧
      (homeDocument "http://%ff/").IsText ∧ ¬ result.IsText ∧
      ∃ fault, result.toJson.renderStrict .indented = .error fault := by
  have parsed : parse ⟨.empty, true⟩ (homeDocument "http://%ff/") =
      (.ok (resultOf (homeDocument "http://%ff/").feed []), _) :=
    (parseBy_eq_ok_iff Fragment.html _ _ _ _).2 ⟨rfl, rfl, fun _ => by decide +kernel⟩
  refine ⟨_, _, parsed, by decide +kernel, by decide +kernel, .invalidByte 7 0xFF, ?_⟩
  have fault : (resultOf (homeDocument "http://%ff/").feed []).toJson.fault? =
      some (.invalidByte 7 0xFF) := by decide +kernel
  rw [Json.renderStrict, fault]

end Intake

end FeedIntake
