import FeedIntake.Intake.Basic
import FeedIntake.Proofs.Json.Members
import FeedIntake.Proofs.Time.Render

/-!
Published records read back. Main statement: the JSON of a result is a raw document again, field by
field as it was published; and the instants in it are read as they were, unless they lie before
1970.
-/
namespace FeedIntake

/-- A feed as it is found where it was published. -/
def Feed.toRaw (feed : Feed) : RawFeed where
  version := some feed.version
  title := some feed.title
  url := some feed.url
  homeUrl := feed.homeUrl
  iconUrl := feed.iconUrl
  description := some feed.description
  updated := feed.updated.map Time.render
  authorName := feed.authorName
  authorUrl := feed.authorUrl
  authorAvatarUrl := feed.authorAvatarUrl

/-- A story as it is found where it was published. -/
def Story.toRaw (story : Story) : RawStory where
  ident := some story.ident
  title := some story.title
  url := story.url
  content := story.content
  summary := some story.summary
  imageUrl := story.imageUrl
  published := story.published.map Time.render
  updated := story.updated.map Time.render
  authorName := story.authorName
  authorUrl := story.authorUrl
  authorAvatarUrl := story.authorAvatarUrl

def FeedResult.toRaw (result : FeedResult) : RawDocument :=
  ⟨result.feed.toRaw, result.stories.map Story.toRaw⟩

theorem Field.name_injective (field other : Field) (same : field.name = other.name) :
    field = other := by
  cases field <;> cases other <;> first | rfl | exact absurd same (by decide)

/-- An object by its fields. -/
def Json.record (fields : List (Field × Json)) : Json :=
  ofMembers (fields.map fun (field, value) => (field.name, value))

theorem Json.member?_record (fields : List (Field × Json)) (field : Field) :
    (record fields).member? field.name = fields.reverse.lookup field := by
  rw [record, member?_ofMembers, ← List.map_reverse]
  induction fields.reverse with
  | nil => rfl
  | cons first rest ih =>
    have keys : (field.name == first.1.name) = (field == first.1) := by
      rw [Bool.eq_iff_iff, beq_iff_eq, beq_iff_eq]
      exact ⟨field.name_injective first.1, congrArg Field.name⟩
    rw [List.map_cons, List.lookup_cons, List.lookup_cons, keys, ih]

/-- A text that stands in a field, or null in place of none, is found there. -/
theorem Json.text?_record (fields : List (Field × Json)) (field : Field) (text : Option Bytes)
    (here : fields.reverse.lookup field = some (ofOption text)) :
    field.text? (record fields) = .ok text := by
  rw [Field.text?, member?_record, here]
  cases text <;> rfl

def Feed.fields (feed : Feed) : List (Field × Json) := [
  (.version, .string feed.version), (.title, .string feed.title), (.url, .string feed.url),
  (.homeUrl, .ofOption feed.homeUrl), (.iconUrl, .ofOption feed.iconUrl),
  (.description, .string feed.description), (.updated, instantJson feed.updated),
  (.authorName, .ofOption feed.authorName), (.authorUrl, .ofOption feed.authorUrl),
  (.authorAvatarUrl, .ofOption feed.authorAvatarUrl)]

def Story.fields (story : Story) : List (Field × Json) := [
  (.ident, .string story.ident), (.title, .string story.title), (.url, .ofOption story.url),
  (.content, .ofOption story.content), (.summary, .string story.summary),
  (.hasMathjax, .bool story.hasMathjax), (.imageUrl, .ofOption story.imageUrl),
  (.published, instantJson story.published), (.updated, instantJson story.updated),
  (.authorName, .ofOption story.authorName), (.authorUrl, .ofOption story.authorUrl),
  (.authorAvatarUrl, .ofOption story.authorAvatarUrl)]

theorem RawFeed.ofJson_toJson (feed : Feed) : RawFeed.ofJson feed.toJson = .ok feed.toRaw := by
  have text (field : Field) (text : Option Bytes)
      (here : feed.fields.reverse.lookup field = some (.ofOption text)) :
      field.text? feed.toJson = .ok text := Json.text?_record feed.fields field text here
  rw [RawFeed.ofJson, text .version feed.toRaw.version rfl, text .title feed.toRaw.title rfl,
    text .url feed.toRaw.url rfl, text .homeUrl feed.toRaw.homeUrl rfl,
    text .iconUrl feed.toRaw.iconUrl rfl, text .description feed.toRaw.description rfl,
    text .updated feed.toRaw.updated rfl, text .authorName feed.toRaw.authorName rfl,
    text .authorUrl feed.toRaw.authorUrl rfl,
    text .authorAvatarUrl feed.toRaw.authorAvatarUrl rfl]
  rfl

theorem RawStory.ofJson_toJson (story : Story) :
    RawStory.ofJson story.toJson = .ok story.toRaw := by
  have text (field : Field) (text : Option Bytes)
      (here : story.fields.reverse.lookup field = some (.ofOption text)) :
      field.text? story.toJson = .ok text := Json.text?_record story.fields field text here
  rw [RawStory.ofJson, text .ident story.toRaw.ident rfl, text .title story.toRaw.title rfl,
    text .url story.toRaw.url rfl, text .content story.toRaw.content rfl,
    text .summary story.toRaw.summary rfl, text .imageUrl story.toRaw.imageUrl rfl,
    text .published story.toRaw.published rfl, text .updated story.toRaw.updated rfl,
    text .authorName story.toRaw.authorName rfl, text .authorUrl story.toRaw.authorUrl rfl,
    text .authorAvatarUrl story.toRaw.authorAvatarUrl rfl]
  rfl

theorem RawStory.mapM_ofJson_toJson (stories : List Story) :
    (stories.map Story.toJson).mapM RawStory.ofJson = .ok (stories.map Story.toRaw) := by
  induction stories with
  | nil => rfl
  | cons story stories ih =>
    rw [List.map_cons, List.mapM_cons, RawStory.ofJson_toJson, ih]
    rfl

theorem RawDocument.ofJson_toJson (result : FeedResult) :
    RawDocument.ofJson result.toJson = .ok result.toRaw := by
  let fields : List (Field × Json) :=
    [(.feed, result.feed.toJson), (.storys, .array (result.stories.map Story.toJson))]
  have feed : result.toJson.member? Field.feed.name = some result.feed.toJson :=
    Json.member?_record fields .feed
  have stories : result.toJson.member? Field.storys.name =
    some (.array (result.stories.map Story.toJson)) := Json.member?_record fields .storys
  rw [RawDocument.ofJson, RawDocument.storiesOfJson, feed, stories]
  simp only [RawFeed.ofJson_toJson, RawStory.mapM_ofJson_toJson]
  rfl

end FeedIntake
