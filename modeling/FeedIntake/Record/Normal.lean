import FeedIntake.Json.Basic
import FeedIntake.Record.Field
import FeedIntake.Time.Timestamp
import FeedIntake.Url.Reference

/-!
Feeds and stories as they are published: their fields, the limits that these have to keep, and their
JSON.
-/
namespace FeedIntake

structure Feed where
  version : Bytes := []
  title : Bytes := []
  url : Bytes := []
  homeUrl : Option Bytes := none
  iconUrl : Option Bytes := none
  description : Bytes := []
  updated : Option Time.Instant := none
  authorName : Option Bytes := none
  authorUrl : Option Bytes := none
  authorAvatarUrl : Option Bytes := none
  deriving DecidableEq, Repr

structure Story where
  ident : Bytes := []
  title : Bytes := []
  url : Option Bytes := none
  content : Option Bytes := none
  summary : Bytes := []
  hasMathjax : Bool := false
  imageUrl : Option Bytes := none
  published : Option Time.Instant := none
  updated : Option Time.Instant := none
  authorName : Option Bytes := none
  authorUrl : Option Bytes := none
  authorAvatarUrl : Option Bytes := none
  deriving DecidableEq, Repr

namespace Limit

-- The most characters of each text.

def version : Nat := 200
def title : Nat := 200
def ident : Nat := 200
def description : Nat := 300
def summary : Nat := 300
def authorName : Nat := 100

end Limit

namespace Field

/-- The fault of a text that has to be there and is not. -/
def required (field : Field) (text : Bytes) : Option FieldError :=
  if text.isEmpty then some ⟨field, .missing⟩ else none

/-- The fault of a text with more than `limit` characters. -/
def limited (field : Field) (limit : Nat) (text : Bytes) : Option FieldError :=
  let length := Utf8.length text
  if limit < length then some ⟨field, .tooLong length limit⟩ else none

/-- The fault of a text that is no URL of a page or feed. -/
def web (field : Field) (text : Bytes) : Option FieldError :=
  if Url.isWeb text then none else some ⟨field, .invalidUrl text⟩

end Field

def Feed.fault? (feed : Feed) : Option FieldError :=
  Field.version.limited Limit.version feed.version
    <|> Field.title.required feed.title
    <|> Field.title.limited Limit.title feed.title
    <|> Field.url.required feed.url
    <|> Field.url.web feed.url
    <|> feed.homeUrl.bind Field.homeUrl.web
    <|> feed.iconUrl.bind Field.iconUrl.web
    <|> Field.description.limited Limit.description feed.description
    <|> feed.authorName.bind (Field.authorName.limited Limit.authorName)
    <|> feed.authorUrl.bind Field.authorUrl.web
    <|> feed.authorAvatarUrl.bind Field.authorAvatarUrl.web

def Story.fault? (story : Story) : Option FieldError :=
  Field.ident.required story.ident
    <|> Field.ident.limited Limit.ident story.ident
    <|> Field.title.required story.title
    <|> Field.title.limited Limit.title story.title
    <|> story.url.bind Field.url.web
    <|> Field.summary.limited Limit.summary story.summary
    <|> story.imageUrl.bind Field.imageUrl.web
    <|> story.authorName.bind (Field.authorName.limited Limit.authorName)
    <|> story.authorUrl.bind Field.authorUrl.web
    <|> story.authorAvatarUrl.bind Field.authorAvatarUrl.web

def instantJson (instant : Option Time.Instant) : Json := .ofOption (instant.map Time.render)

def Feed.toJson (feed : Feed) : Json := .ofMembers [
  (Field.version.name, .string feed.version),
  (Field.title.name, .string feed.title),
  (Field.url.name, .string feed.url),
  (Field.homeUrl.name, .ofOption feed.homeUrl),
  (Field.iconUrl.name, .ofOption feed.iconUrl),
  (Field.description.name, .string feed.description),
  (Field.updated.name, instantJson feed.updated),
  (Field.authorName.name, .ofOption feed.authorName),
  (Field.authorUrl.name, .ofOption feed.authorUrl),
  (Field.authorAvatarUrl.name, .ofOption feed.authorAvatarUrl)]

def Story.toJson (story : Story) : Json := .ofMembers [
  (Field.ident.name, .string story.ident),
  (Field.title.name, .string story.title),
  (Field.url.name, .ofOption story.url),
  (Field.content.name, .ofOption story.content),
  (Field.summary.name, .string story.summary),
  (Field.hasMathjax.name, .bool story.hasMathjax),
  (Field.imageUrl.name, .ofOption story.imageUrl),
  (Field.published.name, instantJson story.published),
  (Field.updated.name, instantJson story.updated),
  (Field.authorName.name, .ofOption story.authorName),
  (Field.authorUrl.name, .ofOption story.authorUrl),
  (Field.authorAvatarUrl.name, .ofOption story.authorAvatarUrl)]

end FeedIntake
