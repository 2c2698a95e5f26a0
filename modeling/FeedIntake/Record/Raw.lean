import FeedIntake.Json.Basic
import FeedIntake.Record.Field

/-!
Raw documents: a feed and its stories as they were found, every field optional and as it stands in
JSON. A member that is null counts as missing, except that a document may do without a feed but not
have a null in its place.
-/
namespace FeedIntake

/-- A feed as it was found. -/
structure RawFeed where
  version : Option Bytes := none
  title : Option Bytes := none
  url : Option Bytes := none
  homeUrl : Option Bytes := none
  iconUrl : Option Bytes := none
  description : Option Bytes := none
  updated : Option Bytes := none
  authorName : Option Bytes := none
  authorUrl : Option Bytes := none
  authorAvatarUrl : Option Bytes := none
  deriving DecidableEq, Repr

/-- A story as it was found. -/
structure RawStory where
  ident : Option Bytes := none
  title : Option Bytes := none
  url : Option Bytes := none
  content : Option Bytes := none
  summary : Option Bytes := none
  imageUrl : Option Bytes := none
  published : Option Bytes := none
  updated : Option Bytes := none
  authorName : Option Bytes := none
  authorUrl : Option Bytes := none
  authorAvatarUrl : Option Bytes := none
  deriving DecidableEq, Repr

/-- A feed and its stories as they were found. -/
structure RawDocument where
  feed : RawFeed
  stories : List RawStory
  deriving DecidableEq, Repr

/-- The text in a field of an object, if there is one. -/
def Field.text? (field : Field) (value : Json) : Except FieldError (Option Bytes) :=
  match value.member? field.name with
  | none | some .null => .ok none
  | some (.string text) => .ok (some text)
  | some _ => .error ⟨field, .notString⟩

/-- Whether a value is an object, as that of a field has to be. -/
def Field.requireObject (field : Field) : Json → Except FieldError Unit
  | .object _ => .ok ()
  | _ => .error ⟨field, .notObject⟩

def RawFeed.ofJson (value : Json) : Except FieldError RawFeed := do
  Field.feed.requireObject value
  return {
    version := ← Field.version.text? value
    title := ← Field.title.text? value
    url := ← Field.url.text? value
    homeUrl := ← Field.homeUrl.text? value
    iconUrl := ← Field.iconUrl.text? value
    description := ← Field.description.text? value
    updated := ← Field.updated.text? value
    authorName := ← Field.authorName.text? value
    authorUrl := ← Field.authorUrl.text? value
    authorAvatarUrl := ← Field.authorAvatarUrl.text? value }

def RawStory.ofJson (value : Json) : Except FieldError RawStory := do
  Field.story.requireObject value
  return {
    ident := ← Field.ident.text? value
    title := ← Field.title.text? value
    url := ← Field.url.text? value
    content := ← Field.content.text? value
    summary := ← Field.summary.text? value
    imageUrl := ← Field.imageUrl.text? value
    published := ← Field.published.text? value
    updated := ← Field.updated.text? value
    authorName := ← Field.authorName.text? value
    authorUrl := ← Field.authorUrl.text? value
    authorAvatarUrl := ← Field.authorAvatarUrl.text? value }

def RawDocument.storiesOfJson (value : Json) : Except FieldError (List RawStory) :=
  match value.member? Field.storys.name with
  | none | some .null => .ok []
  | some (.array items) => items.mapM RawStory.ofJson
  | some _ => .error ⟨.storys, .notArray⟩

def RawDocument.ofJson (value : Json) : Except FieldError RawDocument := do
  Field.result.requireObject value
  let feed ← match value.member? Field.feed.name with
    | none => pure {}
    | some feed => RawFeed.ofJson feed
  let stories ← RawDocument.storiesOfJson value
  return ⟨feed, stories⟩

end FeedIntake
