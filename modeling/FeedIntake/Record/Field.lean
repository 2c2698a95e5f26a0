import FeedIntake.Numeral
import FeedIntake.Utf8

/-!
The fields of records, by the names that documents give them, and what can be wrong with one.
-/
namespace FeedIntake

/-- A part of a document or of a record. -/
inductive Field where
  | result
  | feed
  | storys
  | story
  | version
  | title
  | url
  | homeUrl
  | iconUrl
  | description
  | updated
  | authorName
  | authorUrl
  | authorAvatarUrl
  | ident
  | content
  | summary
  | hasMathjax
  | imageUrl
  | published
  deriving DecidableEq, Repr

namespace Field

def name : Field → Bytes
  | result => Bytes.ofString "result"
  | feed => Bytes.ofString "feed"
  | storys => Bytes.ofString "storys"
  | story => Bytes.ofString "story"
  | version => Bytes.ofString "version"
  | title => Bytes.ofString "title"
  | url => Bytes.ofString "url"
  | homeUrl => Bytes.ofString "home_url"
  | iconUrl => Bytes.ofString "icon_url"
  | description => Bytes.ofString "description"
  | updated => Bytes.ofString "dt_updated"
  | authorName => Bytes.ofString "author_name"
  | authorUrl => Bytes.ofString "author_url"
  | authorAvatarUrl => Bytes.ofString "author_avatar_url"
  | ident => Bytes.ofString "ident"
  | content => Bytes.ofString "content"
  | summary => Bytes.ofString "summary"
  | hasMathjax => Bytes.ofString "has_mathjax"
  | imageUrl => Bytes.ofString "image_url"
  | published => Bytes.ofString "dt_published"

end Field

inductive FieldFault where
  | notString
  | notObject
  | notArray
  | missing
  /-- The characters it has, and those it may have. -/
  | tooLong (length limit : Nat)
  /-- The text that names no page or feed. -/
  | invalidUrl (text : Bytes)
  deriving DecidableEq, Repr

/-- A field with what is wrong with it. -/
structure FieldError where
  field : Field
  fault : FieldFault
  deriving DecidableEq, Repr

namespace FieldError

def code (error : FieldError) : Bytes :=
  match error.fault with
  | .notString | .notObject | .notArray => Bytes.ofString "invalid_type"
  | .missing => Bytes.ofString "required"
  | .tooLong _ _ => Bytes.ofString "too_long"
  | .invalidUrl _ => Bytes.ofString "invalid_url"

def shownLength : Nat := 80

def message (error : FieldError) : Bytes :=
  error.field.name ++ match error.fault with
    | .notString => Bytes.ofString " must be a string"
    | .notObject => Bytes.ofString " must be an object"
    | .notArray => Bytes.ofString " must be an array"
    | .missing => Bytes.ofString " is required"
    | .tooLong length limit =>
      Bytes.ofString " has " ++ Numeral.decimal length ++ Bytes.ofString " characters, limit is "
        ++ Numeral.decimal limit
    | .invalidUrl text =>
      Bytes.ofString " is not a valid URL: " ++ Utf8.shorten shownLength Utf8.ellipsis text

end FieldError

end FeedIntake
