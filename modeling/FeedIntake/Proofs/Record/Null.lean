import FeedIntake.Record.Raw

/-!
Members that are null. Main statement: a null member of a document, of its feed or of one of its
stories can be left out and the same comes of the document, unless the member is the feed itself.
-/
namespace FeedIntake

namespace Json

/-- A value without the member of a key; a value that is no object has none. -/
def without (key : Bytes) : Json → Json
  | object members => object (members.filter (·.1 != key))
  | value => value

/-- A value with the member of a key changed, if it has one. -/
def changeMember (key : Bytes) (change : Json → Json) : Json → Json
  | object members => object (members.map fun member =>
      (member.1, if member.1 == key then change member.2 else member.2))
  | value => value

def item? (index : Nat) : Json → Option Json
  | array items => items[index]?
  | _ => none

/-- A value with one item changed, if it has so many. -/
def changeItem (index : Nat) (change : Json → Json) : Json → Json
  | array items => array (items.modify index change)
  | value => value

theorem member?_without (key name : Bytes) (value : Json) :
    (value.without key).member? name = if name = key then none else value.member? name := by
  cases value with
  | object members =>
    simp only [without, member?]
    induction members with
    | nil => simp
    | cons member members ih =>
      by_cases same : member.1 = key
      · simp only [List.filter_cons, same, bne_self_eq_false, Bool.false_eq_true, if_false, ih]
        grind
      · simp only [List.filter_cons, bne_iff_ne.2 same, if_true]
        grind
  | _ => simp [without, member?]

theorem member?_changeMember (key name : Bytes) (change : Json → Json) (value : Json) :
    (value.changeMember key change).member? name =
      if name = key then (value.member? name).map change else value.member? name := by
  cases value with
  | object members =>
    simp only [changeMember, member?]
    induction members with
    | nil => simp
    | cons member members ih =>
      simp only [List.map_cons, List.lookup_cons, ih]
      grind
  | _ => simp [changeMember, member?]

end Json

/-- An object in a raw document: the document itself, its feed, or the story at an index. -/
inductive Place where
  | document
  | feed
  | story (index : Nat)
  deriving DecidableEq, Repr

namespace Place

/-- What stands at a place of a document. -/
def value? (document : Json) : Place → Option Json
  | .document => some document
  | .feed => document.member? Field.feed.name
  | .story index => (document.member? Field.storys.name).bind (·.item? index)

/-- A document with what stands at a place changed. -/
def change (change : Json → Json) (document : Json) : Place → Json
  | .document => change document
  | .feed => document.changeMember Field.feed.name change
  | .story index => document.changeMember Field.storys.name (·.changeItem index change)

/-- A document without a member of the object at a place. -/
def without (place : Place) (key : Bytes) (document : Json) : Json :=
  place.change (·.without key) document

end Place

section Object

variable (key : Bytes) (value : Json)

theorem Field.requireObject_without (field : Field) :
    field.requireObject (value.without key) = field.requireObject value := by
  cases value <;> rfl

theorem Field.requireObject_changeMember (field : Field) (change : Json → Json) :
    field.requireObject (value.changeMember key change) = field.requireObject value := by
  cases value <;> rfl

variable (null : value.member? key = some .null)

include null

/-- A null text and a missing one are the same. -/
theorem Field.text?_without (field : Field) :
    field.text? (value.without key) = field.text? value := by
  rw [text?, text?, Json.member?_without]
  by_cases own : field.name = key
  · rw [if_pos own, own, null]
  · rw [if_neg own]

theorem RawFeed.ofJson_without : ofJson (value.without key) = ofJson value := by
  simp only [ofJson, Field.requireObject_without, Field.text?_without key value null]

theorem RawStory.ofJson_without : ofJson (value.without key) = ofJson value := by
  simp only [ofJson, Field.requireObject_without, Field.text?_without key value null]

/-- Null stories and missing ones are the same. -/
theorem RawDocument.storiesOfJson_without :
    storiesOfJson (value.without key) = storiesOfJson value := by
  rw [storiesOfJson, storiesOfJson, Json.member?_without]
  by_cases own : Field.storys.name = key
  · rw [if_pos own, own, null]
  · rw [if_neg own]

end Object

theorem mapM_modify {Item Result : Type} (read : Item → Except FieldError Result)
    (items : List Item) (index : Nat) (change : Item → Item)
    (same : ∀ item, items[index]? = some item → read (change item) = read item) :
    (items.modify index change).mapM read = items.mapM read := by
  induction items generalizing index with
  | nil => simp
  | cons item items ih =>
    cases index with
    | zero => simp [same item rfl]
    | succ index => simp [ih index same]

/-- Where reading fails, it fails at one of these fields. -/
def FailsAt {Value : Type} (fields : List Field) (read : Except FieldError Value) : Prop :=
  ∀ error, read = .error error → error.field ∈ fields

namespace FailsAt

variable {Value Next : Type} {fields : List Field}

theorem ok (value : Value) : FailsAt fields (.ok value) := nofun

theorem error (fault : FieldError) (listed : fault.field ∈ fields) :
    FailsAt fields (.error fault : Except FieldError Value) := by
  rintro _ ⟨⟩
  exact listed

theorem bind {read : Except FieldError Value} {next : Value → Except FieldError Next}
    (first : FailsAt fields read) (later : ∀ value, FailsAt fields (next value)) :
    FailsAt fields (read >>= next) := by
  cases read with
  | error fault => exact error fault (first fault rfl)
  | ok value => exact later value

theorem requireObject (field : Field) (value : Json) (listed : field ∈ fields) :
    FailsAt fields (field.requireObject value) := by
  cases value with
  | object members => exact ok ()
  | _ => exact error _ listed

theorem text? (field : Field) (value : Json) (listed : field ∈ fields) :
    FailsAt fields (field.text? value) := by
  rw [Field.text?]
  split
  · exact ok none
  · exact ok none
  · exact ok _
  · exact error _ listed

theorem mapM {Item : Type} (read : Item → Except FieldError Value)
    (each : ∀ item, FailsAt fields (read item)) (items : List Item) :
    FailsAt fields (items.mapM read) := by
  induction items with
  | nil => exact ok []
  | cons item items ih =>
    rw [List.mapM_cons]
    exact bind (each item) fun first => bind ih fun others => ok _

end FailsAt

namespace RawDocument

/-- The parts of a document that its stories are. -/
def storyFields : List Field := [
  .storys, .story, .ident, .title, .url, .content, .summary, .imageUrl, .published, .updated,
  .authorName, .authorUrl, .authorAvatarUrl]

theorem failsAt_ofJson_story (value : Json) : FailsAt storyFields (RawStory.ofJson value) := by
  rw [RawStory.ofJson]
  refine .bind (.requireObject _ _ (by decide)) fun _ => ?_
  iterate 11 refine .bind (.text? _ _ (by decide)) fun _ => ?_
  exact .ok _

theorem failsAt_storiesOfJson (value : Json) : FailsAt storyFields (storiesOfJson value) := by
  rw [storiesOfJson]
  split
  · exact .ok []
  · exact .ok []
  · exact .mapM _ failsAt_ofJson_story _
  · exact .error _ (by decide)

/-- The feed of a document; a missing one has no fields. -/
def feedOfJson (value : Json) : Except FieldError RawFeed :=
  match value.member? Field.feed.name with
  | none => pure {}
  | some feed => RawFeed.ofJson feed

theorem ofJson_eq (value : Json) :
    ofJson value = (do
      Field.result.requireObject value
      return ⟨← feedOfJson value, ← storiesOfJson value⟩) := by
  rw [ofJson, feedOfJson]
  cases value.member? Field.feed.name <;> rfl

/-- What is read of a document is read of its feed and of its stories. -/
theorem ofJson_congr (first second : Json)
    (shape : Field.result.requireObject first = Field.result.requireObject second)
    (feed : feedOfJson first = feedOfJson second)
    (stories : storiesOfJson first = storiesOfJson second) : ofJson first = ofJson second := by
  rw [ofJson_eq, ofJson_eq, shape, feed, stories]

theorem feedOfJson_without_of_ne (key : Bytes) (document : Json) (other : Field.feed.name ≠ key) :
    feedOfJson (document.without key) = feedOfJson document := by
  rw [feedOfJson, feedOfJson, Json.member?_without, if_neg other]

theorem feedOfJson_without_feed (key : Bytes) (document feed : Json)
    (there : document.member? Field.feed.name = some feed) (null : feed.member? key = some .null) :
    feedOfJson (Place.feed.without key document) = feedOfJson document := by
  rw [feedOfJson, feedOfJson, Place.without, Place.change, Json.member?_changeMember, if_pos rfl,
    there]
  exact RawFeed.ofJson_without key feed null

theorem storiesOfJson_without_story (key : Bytes) (index : Nat) (document stories story : Json)
    (there : document.member? Field.storys.name = some stories)
    (listed : stories.item? index = some story) (null : story.member? key = some .null) :
    storiesOfJson ((Place.story index).without key document) = storiesOfJson document := by
  cases stories with
  | array items =>
    rw [storiesOfJson, storiesOfJson, Place.without, Place.change, Json.member?_changeMember,
      if_pos rfl, there]
    refine mapM_modify RawStory.ofJson items index _ fun item found => ?_
    obtain rfl := Option.some.inj (found.symm.trans listed)
    exact RawStory.ofJson_without key item null
  | _ => contradiction

/-- A null in place of the feed is an error, and without it no error concerns the feed. -/
theorem ofJson_without_null_feed (document : Json)
    (null : document.member? Field.feed.name = some .null) :
    ofJson (document.without Field.feed.name) ≠ ofJson document := by
  have failed : ofJson document = .error ⟨.feed, .notObject⟩ := by
    cases document with
    | object members =>
      have feed : feedOfJson (.object members) = .error ⟨.feed, .notObject⟩ := by
        rw [feedOfJson, null]
        rfl
      rw [ofJson_eq, feed]
      rfl
    | _ => contradiction
  have elsewhere :
      FailsAt (.result :: storyFields) (ofJson (document.without Field.feed.name)) := by
    have missing : feedOfJson (document.without Field.feed.name) = .ok {} := by
      rw [feedOfJson, Json.member?_without, if_pos rfl]
      rfl
    rw [ofJson_eq, missing]
    refine .bind (.requireObject _ _ (by decide)) fun _ => .bind (.ok _) fun _ => ?_
    refine .bind ?_ fun _ => .ok _
    exact fun error found => List.mem_cons_of_mem _ (failsAt_storiesOfJson _ error found)
  intro same
  exact absurd (elsewhere _ (same.trans failed)) (by decide)

/-- A null member of a document, of its feed or of one of its stories is read like a missing one,
except for the feed itself. -/
theorem ofJson_without_iff (place : Place) (key : Bytes) (document object : Json)
    (there : place.value? document = some object) (null : object.member? key = some .null) :
    ofJson (place.without key document) = ofJson document ↔
      ¬ (place = .document ∧ key = Field.feed.name) := by
  cases place with
  | document =>
    obtain rfl : document = object := Option.some.inj there
    by_cases own : key = Field.feed.name
    · subst own
      exact iff_of_false (ofJson_without_null_feed document null) (not_not_intro ⟨rfl, rfl⟩)
    · refine iff_of_true (ofJson_congr _ _ ?_ ?_ ?_) fun both => own both.2
      · exact Field.requireObject_without key document _
      · exact feedOfJson_without_of_ne key document (Ne.symm own)
      · exact storiesOfJson_without key document null
  | feed =>
    refine iff_of_true (ofJson_congr _ _ ?_ ?_ ?_) fun both => nomatch both.1
    · exact Field.requireObject_changeMember _ document _ _
    · exact feedOfJson_without_feed key document object there null
    · rw [storiesOfJson, storiesOfJson, Place.without, Place.change, Json.member?_changeMember,
        if_neg (by decide)]
  | story index =>
    obtain ⟨stories, listed, item⟩ := Option.bind_eq_some_iff.1 there
    refine iff_of_true (ofJson_congr _ _ ?_ ?_ ?_) fun both => nomatch both.1
    · exact Field.requireObject_changeMember _ document _ _
    · rw [feedOfJson, feedOfJson, Place.without, Place.change, Json.member?_changeMember,
        if_neg (by decide)]
    · exact storiesOfJson_without_story key index document stories object listed item null

/-- A document whose second story has a null title. -/
def untitledStory : Json := .object [
  (Field.storys.name, .array [
    .object [(Field.ident.name, .string (Bytes.ofString "1"))],
    .object [(Field.ident.name, .string (Bytes.ofString "2")), (Field.title.name, .null)]])]

theorem ofJson_without_iff_untitledStory :
    ofJson ((Place.story 1).without Field.title.name untitledStory) = ofJson untitledStory :=
  (ofJson_without_iff (.story 1) Field.title.name untitledStory
    (.object [(Field.ident.name, .string (Bytes.ofString "2")), (Field.title.name, .null)])
    rfl rfl).2 (by decide)

/-- A null in place of the feed is refused, and without it the document is read. -/
theorem ofJson_null_feed :
    ofJson (.object [(Field.feed.name, .null)]) = .error ⟨.feed, .notObject⟩ ∧
      ofJson (Place.document.without Field.feed.name (.object [(Field.feed.name, .null)])) =
        .ok ⟨{}, []⟩ :=
  ⟨rfl, rfl⟩

end RawDocument

end FeedIntake
