import Mathlib.Data.Option.Basic
import FeedIntake.Proofs.Intake.News
import FeedIntake.Proofs.Utf8.Cut

/-!
What can be wrong with a document. Normal forms are tidy: whatever is made of HTML, their texts keep
their limits and their optional links can be published. Main statement: with checks on, a result is
given exactly if what is required is there and what is never cut, version and identities, is short
enough.
-/
namespace FeedIntake

namespace Field

variable (field : Field)

theorem required_eq_none_iff (text : Bytes) : field.required text = none ↔ text ≠ [] := by
  cases text <;> simp [required]

theorem limited_eq_none_iff (limit : Nat) (text : Bytes) :
    field.limited limit text = none ↔ Utf8.length text ≤ limit := by
  simp [limited]

theorem web_eq_none_iff (text : Bytes) : field.web text = none ↔ Url.isWeb text = true := by
  simp [web]

theorem bind_limited_eq_none (limit : Nat) (text : Option Bytes)
    (short : ∀ given ∈ text, Utf8.length given ≤ limit) :
    text.bind (field.limited limit) = none :=
  Option.bind_eq_none_iff.2 fun given present =>
    (field.limited_eq_none_iff limit given).2 (short given present)

theorem bind_web_eq_none (link : Option Bytes) (web : ∀ url ∈ link, Url.isWeb url = true) :
    link.bind field.web = none :=
  Option.bind_eq_none_iff.2 fun url present => (field.web_eq_none_iff url).2 (web url present)

end Field

/-- The texts that are cut keep their limits, and the links that may be missing can be published. -/
structure Feed.IsTidy (feed : Feed) : Prop where
  title : Utf8.length feed.title ≤ Limit.title
  description : Utf8.length feed.description ≤ Limit.description
  authorName : ∀ name ∈ feed.authorName, Utf8.length name ≤ Limit.authorName
  homeUrl : ∀ url ∈ feed.homeUrl, Url.isWeb url = true
  iconUrl : ∀ url ∈ feed.iconUrl, Url.isWeb url = true
  authorUrl : ∀ url ∈ feed.authorUrl, Url.isWeb url = true
  authorAvatarUrl : ∀ url ∈ feed.authorAvatarUrl, Url.isWeb url = true

structure Story.IsTidy (story : Story) : Prop where
  title : Utf8.length story.title ≤ Limit.title
  summary : Utf8.length story.summary ≤ Limit.summary
  authorName : ∀ name ∈ story.authorName, Utf8.length name ≤ Limit.authorName
  url : ∀ url ∈ story.url, Url.isWeb url = true
  imageUrl : ∀ url ∈ story.imageUrl, Url.isWeb url = true
  authorUrl : ∀ url ∈ story.authorUrl, Url.isWeb url = true
  authorAvatarUrl : ∀ url ∈ story.authorAvatarUrl, Url.isWeb url = true

/-- Of a tidy feed only what is required and what is not cut has to be checked. -/
theorem Feed.IsTidy.fault?_eq {feed : Feed} (tidy : feed.IsTidy) :
    feed.fault? =
      (Field.version.limited Limit.version feed.version
        <|> Field.title.required feed.title
        <|> Field.url.required feed.url
        <|> Field.url.web feed.url) := by
  have title := (Field.title.limited_eq_none_iff _ _).2 tidy.title
  have description := (Field.description.limited_eq_none_iff _ _).2 tidy.description
  have authorName := Field.authorName.bind_limited_eq_none _ _ tidy.authorName
  have homeUrl := Field.homeUrl.bind_web_eq_none _ tidy.homeUrl
  have iconUrl := Field.iconUrl.bind_web_eq_none _ tidy.iconUrl
  have authorUrl := Field.authorUrl.bind_web_eq_none _ tidy.authorUrl
  have authorAvatarUrl := Field.authorAvatarUrl.bind_web_eq_none _ tidy.authorAvatarUrl
  simp [fault?, title, description, authorName, homeUrl, iconUrl, authorUrl, authorAvatarUrl]

theorem Story.IsTidy.fault?_eq {story : Story} (tidy : story.IsTidy) :
    story.fault? =
      (Field.ident.required story.ident
        <|> Field.ident.limited Limit.ident story.ident
        <|> Field.title.required story.title) := by
  have title := (Field.title.limited_eq_none_iff _ _).2 tidy.title
  have summary := (Field.summary.limited_eq_none_iff _ _).2 tidy.summary
  have authorName := Field.authorName.bind_limited_eq_none _ _ tidy.authorName
  have url := Field.url.bind_web_eq_none _ tidy.url
  have imageUrl := Field.imageUrl.bind_web_eq_none _ tidy.imageUrl
  have authorUrl := Field.authorUrl.bind_web_eq_none _ tidy.authorUrl
  have authorAvatarUrl := Field.authorAvatarUrl.bind_web_eq_none _ tidy.authorAvatarUrl
  simp [fault?, title, summary, authorName, url, imageUrl, authorUrl, authorAvatarUrl]

theorem Url.isWeb_of_mem_web? (s url : Bytes) (given : url ∈ web? s) : isWeb url = true := by
  rw [web?] at given
  split at given
  · next web =>
    obtain rfl := Option.some.inj given
    exact web
  · contradiction

theorem Normalize.isWeb_of_mem_link? (link : Option Bytes) (base url : Bytes)
    (given : url ∈ link? link base) : Url.isWeb url = true := by
  cases link with
  | none => contradiction
  | some link =>
    rw [link?] at given
    split at given
    · contradiction
    · exact Url.isWeb_of_mem_web? _ url given

namespace Html

variable (html : Html)

theorem length_line_le (limit : Nat) (fragment : Option Bytes) :
    Utf8.length (html.line limit fragment) ≤ limit := by
  rw [line, Utf8.length_truncate]
  exact Nat.min_le_left _ _

theorem length_le_of_mem_line? (limit : Nat) (fragment : Option Bytes) (text : Bytes)
    (given : text ∈ html.line? limit fragment) : Utf8.length text ≤ limit := by
  obtain ⟨same, -⟩ := Option.filter_eq_some_iff.1 given
  obtain rfl := Option.some.inj same
  exact html.length_line_le limit fragment

/-- The dots at the end of a summary have room in it. -/
theorem length_summary_le (content : Bytes) :
    Utf8.length (html.summary content) ≤ Limit.summary :=
  Utf8.length_shorten_le Limit.summary Utf8.ellipsis _

end Html

variable (html : Html)

theorem RawStory.length_summaryBy_le (raw : RawStory) :
    Utf8.length (raw.summaryBy html) ≤ Limit.summary := by
  rw [summaryBy]
  split
  · exact html.length_summary_le _
  · cases raw.content with
    | none => exact Nat.zero_le _
    | some content => exact html.length_summary_le content

theorem RawFeed.isTidy_normalizeBy (raw : RawFeed) : (raw.normalizeBy html).IsTidy where
  title := html.length_line_le _ _
  description := html.length_line_le _ _
  authorName := html.length_le_of_mem_line? _ _
  homeUrl := Normalize.isWeb_of_mem_link? _ _
  iconUrl := Normalize.isWeb_of_mem_link? _ _
  authorUrl := Normalize.isWeb_of_mem_link? _ _
  authorAvatarUrl := Normalize.isWeb_of_mem_link? _ _

theorem RawStory.isTidy_normalizeBy (raw : RawStory) (feedUrl : Bytes) :
    (raw.normalizeBy html feedUrl).IsTidy where
  title := html.length_line_le _ _
  summary := raw.length_summaryBy_le html
  authorName := html.length_le_of_mem_line? _ _
  url := Url.isWeb_of_mem_web? _
  imageUrl := Normalize.isWeb_of_mem_link? _ _
  authorUrl := Normalize.isWeb_of_mem_link? _ _
  authorAvatarUrl := Normalize.isWeb_of_mem_link? _ _

/-- A line is empty only if the text is, since there is room for more than nothing. -/
theorem Html.line_title_ne_nil_iff (fragment : Option Bytes) :
    html.line Limit.title fragment ≠ [] ↔ html.flat fragment ≠ [] :=
  not_congr (Utf8.truncate_eq_nil_iff _ _ (by decide))

/-- Faults of the feed itself: a version that is too long, no title, or no URL of a page or feed. -/
theorem RawFeed.fault?_normalizeBy_eq_none_iff (raw : RawFeed) :
    (raw.normalizeBy html).fault? = none ↔
      Utf8.length (Bytes.trim (raw.version.getD [])) ≤ Limit.version ∧
      html.flat raw.title ≠ [] ∧ Url.isWeb (Bytes.trim (raw.url.getD [])) = true := by
  have present : ∀ url, Url.isWeb url = true → url ≠ [] := by
    rintro _ web rfl
    contradiction
  rw [(raw.isTidy_normalizeBy html).fault?_eq]
  simp only [Option.orElse_eq_none, Field.limited_eq_none_iff, Field.required_eq_none_iff,
    Field.web_eq_none_iff, normalizeBy, html.line_title_ne_nil_iff]
  have url := and_iff_right_of_imp (present (Bytes.trim (raw.url.getD [])))
  rw [url]

theorem RawStory.fault?_normalizeBy_eq_none_iff (raw : RawStory) (feedUrl : Bytes) :
    (raw.normalizeBy html feedUrl).fault? = none ↔
      raw.identity ≠ [] ∧ Utf8.length raw.identity ≤ Limit.ident ∧ html.flat raw.title ≠ [] := by
  rw [(raw.isTidy_normalizeBy html feedUrl).fault?_eq]
  simp only [Option.orElse_eq_none, Field.limited_eq_none_iff, Field.required_eq_none_iff,
    normalizeBy, html.line_title_ne_nil_iff]

/-- Nothing is wrong with some stories exactly if nothing is with any of them, wherever they stand.
-/
theorem storiesFault?_eq_none_iff (index : Nat) (stories : List Story) :
    storiesFault? index stories = none ↔ ∀ story ∈ stories, story.fault? = none := by
  induction stories generalizing index with
  | nil => simp [storiesFault?]
  | cons story rest ih =>
    rw [storiesFault?, List.forall_mem_cons]
    cases fault : story.fault? with
    | none => simp [ih]
    | some cause => simp

theorem FeedResult.fault?_eq_none_iff (result : FeedResult) :
    result.fault? = none ↔
      result.feed.fault? = none ∧ ∀ story ∈ result.stories, story.fault? = none := by
  rw [fault?]
  cases fault : result.feed.fault? with
  | none => simp [storiesFault?_eq_none_iff]
  | some cause => simp

namespace Intake

theorem exists_parseBy_eq_ok_iff (seen : Checksum) (document : RawDocument) :
    (∃ result next, parseBy html ⟨seen, true⟩ document = (.ok result, next)) ↔
      (resultBy html document.feed (seen.news document.stories)).fault? = none := by
  constructor
  · rintro ⟨result, next, parsed⟩
    obtain ⟨rfl, -, faultless⟩ := (parseBy_eq_ok_iff html _ next document result).1 parsed
    exact faultless rfl
  · intro faultless
    exact ⟨_, _, (parseBy_eq_ok_iff html _ _ document _).2 ⟨rfl, rfl, fun _ => faultless⟩⟩

/-- With checks on, a result is given exactly if the version is short enough, the feed has a title
and a URL, and all news has a title and an identity that is short enough. No other check finds
anything in a normal form, whatever is made of HTML. -/
theorem parseBy_succeeds_iff (seen : Checksum) (document : RawDocument) :
    ((∃ result next, parseBy html ⟨seen, true⟩ document = (.ok result, next)) ↔
      Utf8.length (Bytes.trim (document.feed.version.getD [])) ≤ 200 ∧
      html.flat document.feed.title ≠ [] ∧
      Url.isWeb (Bytes.trim (document.feed.url.getD [])) = true ∧
      ∀ raw ∈ seen.news document.stories,
        raw.identity ≠ [] ∧ Utf8.length raw.identity ≤ 200 ∧ html.flat raw.title ≠ []) ∧
    (∀ raw : RawFeed, (raw.normalizeBy html).IsTidy ∧
      (raw.normalizeBy html).fault? =
        (Field.version.limited 200 (raw.normalizeBy html).version
          <|> Field.title.required (raw.normalizeBy html).title
          <|> Field.url.required (raw.normalizeBy html).url
          <|> Field.url.web (raw.normalizeBy html).url)) ∧
    ∀ (raw : RawStory) (feedUrl : Bytes), (raw.normalizeBy html feedUrl).IsTidy ∧
      (raw.normalizeBy html feedUrl).fault? =
        (Field.ident.required (raw.normalizeBy html feedUrl).ident
          <|> Field.ident.limited 200 (raw.normalizeBy html feedUrl).ident
          <|> Field.title.required (raw.normalizeBy html feedUrl).title) := by
  refine ⟨?_, ?_, ?_⟩
  · rw [exists_parseBy_eq_ok_iff, FeedResult.fault?_eq_none_iff]
    simp only [resultBy, List.forall_mem_map, RawFeed.fault?_normalizeBy_eq_none_iff,
      RawStory.fault?_normalizeBy_eq_none_iff, and_assoc]
    rfl
  · intro raw
    have tidy := raw.isTidy_normalizeBy html
    exact ⟨tidy, tidy.fault?_eq⟩
  · intro raw feedUrl
    have tidy := raw.isTidy_normalizeBy html feedUrl
    exact ⟨tidy, tidy.fault?_eq⟩

end Intake

end FeedIntake
