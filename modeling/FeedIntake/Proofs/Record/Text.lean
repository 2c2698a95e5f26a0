import FeedIntake.Intake.Basic
import FeedIntake.Proofs.Json.Reading

/-!
The texts of records. Main statements: a document that is read from JSON is one of well-formed
texts; and the JSON of a published record is of well-formed text exactly if the texts of the record
are.
-/
namespace FeedIntake

open Utf8

/-- The fields of a raw feed. -/
def RawFeed.texts (raw : RawFeed) : List (Option Bytes) := [
  raw.version, raw.title, raw.url, raw.homeUrl, raw.iconUrl, raw.description, raw.updated,
  raw.authorName, raw.authorUrl, raw.authorAvatarUrl]

/-- The fields of a raw story. -/
def RawStory.texts (raw : RawStory) : List (Option Bytes) := [
  raw.ident, raw.title, raw.url, raw.content, raw.summary, raw.imageUrl, raw.published, raw.updated,
  raw.authorName, raw.authorUrl, raw.authorAvatarUrl]

/-- The fields of a feed that are texts. -/
def Feed.texts (feed : Feed) : List (Option Bytes) := [
  feed.version, feed.title, feed.url, feed.homeUrl, feed.iconUrl, feed.description,
  feed.authorName, feed.authorUrl, feed.authorAvatarUrl]

/-- The fields of a story that are texts. -/
def Story.texts (story : Story) : List (Option Bytes) := [
  story.ident, story.title, story.url, story.content, story.summary, story.imageUrl,
  story.authorName, story.authorUrl, story.authorAvatarUrl]

/-- All of the texts that are there are well-formed. -/
def AreText (texts : List (Option Bytes)) : Prop :=
  ∀ text ∈ texts, ∀ s ∈ text, isValid s = true

def RawDocument.IsText (document : RawDocument) : Prop :=
  AreText document.feed.texts ∧ ∀ raw ∈ document.stories, AreText raw.texts

def FeedResult.IsText (result : FeedResult) : Prop :=
  AreText result.feed.texts ∧ ∀ story ∈ result.stories, AreText story.texts

instance (texts : List (Option Bytes)) : Decidable (AreText texts) :=
  inferInstanceAs (Decidable (∀ text ∈ texts, ∀ s ∈ text, isValid s = true))

instance (document : RawDocument) : Decidable document.IsText :=
  inferInstanceAs (Decidable (_ ∧ _))

instance (result : FeedResult) : Decidable result.IsText :=
  inferInstanceAs (Decidable (_ ∧ _))

@[simp] theorem areText_nil : AreText [] := nofun

@[simp] theorem areText_cons_iff (text : Option Bytes) (texts : List (Option Bytes)) :
    AreText (text :: texts) ↔ (∀ s ∈ text, isValid s = true) ∧ AreText texts :=
  List.forall_mem_cons

theorem Json.isText_of_member? (key : Bytes) (value member : Json) (whole : value.IsText)
    (found : value.member? key = some member) : member.IsText := by
  cases value with
  | object members =>
    obtain ⟨before, after, rfl, -⟩ := List.lookup_eq_some_iff.1 found
    exact ((isText_object_iff _).1 whole (key, member) (by simp)).2
  | _ => contradiction

theorem Field.isValid_text? (field : Field) (value : Json) (text : Option Bytes)
    (whole : value.IsText) (read : field.text? value = .ok text) :
    ∀ s ∈ text, isValid s = true := by
  rw [text?] at read
  split at read
  · exact Except.ok.inj read ▸ nofun
  · exact Except.ok.inj read ▸ nofun
  · next s found =>
    obtain rfl := Except.ok.inj read
    rintro _ ⟨⟩
    exact (Json.isText_string_iff s).1 (Json.isText_of_member? _ value _ whole found)
  · contradiction

section Read

variable {Cause Value Result : Type}

theorem exists_of_bind_eq_ok (x : Except Cause Value) (f : Value → Except Cause Result)
    (result : Result) (done : x >>= f = .ok result) :
    ∃ value, x = .ok value ∧ f value = .ok result := by
  cases x with
  | error cause => contradiction
  | ok value => exact ⟨value, rfl, done⟩

/-- A field that was read on the way is a well-formed text, if it is there. -/
theorem Field.exists_of_bind_text? (field : Field) (value : Json)
    (f : Option Bytes → Except FieldError Result) (result : Result) (whole : value.IsText)
    (done : field.text? value >>= f = .ok result) :
    ∃ text, (∀ s ∈ text, isValid s = true) ∧ f text = .ok result := by
  obtain ⟨text, read, behind⟩ := exists_of_bind_eq_ok _ f result done
  exact ⟨text, field.isValid_text? value text whole read, behind⟩

theorem exists_of_mem_mapM (f : Value → Except Cause Result) (items : List Value)
    (results : List Result) (done : items.mapM f = .ok results) :
    ∀ result ∈ results, ∃ item ∈ items, f item = .ok result := by
  induction items generalizing results with
  | nil =>
    obtain rfl := Except.ok.inj done
    nofun
  | cons item items ih =>
    rw [List.mapM_cons] at done
    obtain ⟨first, one, done⟩ := exists_of_bind_eq_ok _ _ _ done
    obtain ⟨others, behind, done⟩ := exists_of_bind_eq_ok _ _ _ done
    obtain rfl := Except.ok.inj done
    intro result member
    rcases List.mem_cons.1 member with rfl | later
    · exact ⟨item, List.mem_cons_self, one⟩
    · obtain ⟨origin, listed, made⟩ := ih others behind result later
      exact ⟨origin, List.mem_cons_of_mem _ listed, made⟩

end Read

theorem RawFeed.areText_ofJson (value : Json) (raw : RawFeed) (whole : value.IsText)
    (read : ofJson value = .ok raw) : AreText raw.texts := by
  obtain ⟨-, -, read⟩ := exists_of_bind_eq_ok _ _ _ read
  iterate 10 obtain ⟨_, _, read⟩ := Field.exists_of_bind_text? _ value _ _ whole read
  obtain rfl := Except.ok.inj read
  simp only [texts, areText_cons_iff, areText_nil, and_true]
  repeat' apply And.intro
  all_goals assumption

theorem RawStory.areText_ofJson (value : Json) (raw : RawStory) (whole : value.IsText)
    (read : ofJson value = .ok raw) : AreText raw.texts := by
  obtain ⟨-, -, read⟩ := exists_of_bind_eq_ok _ _ _ read
  iterate 11 obtain ⟨_, _, read⟩ := Field.exists_of_bind_text? _ value _ _ whole read
  obtain rfl := Except.ok.inj read
  simp only [texts, areText_cons_iff, areText_nil, and_true]
  repeat' apply And.intro
  all_goals assumption

theorem RawDocument.areText_of_storiesOfJson (value : Json) (stories : List RawStory)
    (whole : value.IsText) (read : storiesOfJson value = .ok stories) :
    ∀ raw ∈ stories, AreText raw.texts := by
  rw [storiesOfJson] at read
  split at read
  · obtain rfl := Except.ok.inj read
    exact List.forall_mem_nil _
  · obtain rfl := Except.ok.inj read
    exact List.forall_mem_nil _
  · next items found =>
    have inside := (Json.isText_array_iff items).1 (Json.isText_of_member? _ value _ whole found)
    intro raw member
    obtain ⟨item, listed, made⟩ := exists_of_mem_mapM _ items stories read raw member
    exact raw.areText_ofJson item (inside item listed) made
  · contradiction

/-- A document that is read from a value of well-formed text is one of well-formed texts. -/
theorem RawDocument.isText_ofJson (value : Json) (document : RawDocument) (whole : value.IsText)
    (read : ofJson value = .ok document) : document.IsText := by
  have stories := fun stories => areText_of_storiesOfJson value stories whole
  obtain ⟨-, -, read⟩ := exists_of_bind_eq_ok _ _ _ read
  dsimp only at read
  split at read
  · obtain ⟨feed, missing, read⟩ := exists_of_bind_eq_ok _ _ _ read
    obtain ⟨taken, readStories, read⟩ := exists_of_bind_eq_ok _ _ _ read
    obtain rfl := Except.ok.inj read
    obtain rfl := Except.ok.inj missing
    exact ⟨by simp [RawFeed.texts], stories taken readStories⟩
  · next inner found =>
    obtain ⟨feed, readFeed, read⟩ := exists_of_bind_eq_ok _ _ _ read
    obtain ⟨taken, readStories, read⟩ := exists_of_bind_eq_ok _ _ _ read
    obtain rfl := Except.ok.inj read
    have text := Json.isText_of_member? _ value inner whole found
    exact ⟨feed.areText_ofJson inner text readFeed, stories taken readStories⟩

/-- A point in time is written in digits and the marks between them. -/
theorem Time.isValid_render (instant : Instant) : isValid (render instant) = true := by
  have signed : ∀ i, isValid (Numeral.signed i) = true := by
    intro i
    rw [Numeral.signed]
    split
    · exact (isValid_cons_iff _ _ (by decide)).2 (isValid_decimal _)
    · exact isValid_decimal _
  have padded : ∀ width n, isValid (Numeral.padded width n) = true := by
    intro width n
    refine isValid_append _ _ (isValid_of_ascii _ fun b member => ?_) (isValid_decimal n)
    rw [(List.mem_replicate.1 member).2]
    decide
  rw [render]
  repeat' with_reducible apply isValid_append
  all_goals first
    | with_reducible exact signed _
    | with_reducible exact padded _ _
    | decide

theorem isText_instantJson (instant : Option Time.Instant) : (instantJson instant).IsText := by
  rw [instantJson, Json.isText_ofOption_iff]
  intro s member
  obtain ⟨time, -, rfl⟩ := Option.mem_map.1 member
  exact Time.isValid_render time

theorem Field.isValid_name (field : Field) : isValid field.name = true := by
  cases field <;> decide

theorem Feed.isText_toJson_iff (feed : Feed) : feed.toJson.IsText ↔ AreText feed.texts := by
  rw [toJson, Json.isText_ofMembers_iff _ (by simp only [List.map]; decide)]
  simp [Json.MemberIsText, texts, Field.isValid_name, isText_instantJson]

theorem Story.isText_toJson_iff (story : Story) : story.toJson.IsText ↔ AreText story.texts := by
  rw [toJson, Json.isText_ofMembers_iff _ (by simp only [List.map]; decide)]
  simp [Json.MemberIsText, texts, Field.isValid_name, isText_instantJson]

/-- The JSON of a result can be written exactly if all of its texts are well-formed. -/
theorem FeedResult.isText_toJson_iff (result : FeedResult) :
    result.toJson.IsText ↔ result.IsText := by
  rw [toJson, Json.isText_ofMembers_iff _ (by simp only [List.map]; decide)]
  simp [Json.MemberIsText, IsText, Field.isValid_name, Feed.isText_toJson_iff,
    Story.isText_toJson_iff]

end FeedIntake
