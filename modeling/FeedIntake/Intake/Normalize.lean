import FeedIntake.Markup.Formula
import FeedIntake.Markup.Fragment
import FeedIntake.Record.Normal
import FeedIntake.Record.Raw

/-!
How a raw feed or story becomes one that can be published. Text fields are flattened to one line and
cut at their limits, links are made absolute and dropped if they lead nowhere, and content is
cleaned. What is done with HTML is a parameter, since nothing else depends on how it is read;
`Fragment.html` does it for plain text.
-/
namespace FeedIntake

namespace Normalize

/-- A link made absolute, if it is one that can be published. -/
def link? (link : Option Bytes) (base : Bytes) : Option Bytes :=
  match link with
  | none => none
  | some link => if Bytes.isAllBlank link then none else Url.web? (Url.normalize link base)

/-- How many bytes of content are too many to be kept as HTML. -/
def contentLimit : Nat := 1024 * 1024

end Normalize

namespace Html

variable (html : Html)

/-- The text that a fragment shows, in one line; nothing if there is no fragment. -/
def flat (fragment : Option Bytes) : Bytes :=
  match fragment with
  | none => []
  | some fragment => Bytes.collapse (html.text fragment)

/-- A fragment as one line with at most `limit` characters. -/
def line (limit : Nat) (fragment : Option Bytes) : Bytes :=
  Utf8.truncate limit (html.flat fragment)

/-- A fragment as one line, if anything is left of it. -/
def line? (limit : Nat) (fragment : Option Bytes) : Option Bytes :=
  some (html.line limit fragment) |>.filter (!·.isEmpty)

def summary (content : Bytes) : Bytes :=
  Utf8.shorten Limit.summary Utf8.ellipsis (html.flat (some (html.clean content)))

/-- Content that is safe to show: as HTML, or as bare text if that would be too long. -/
def content (fragment base : Bytes) : Bytes :=
  let cleaned := html.clean fragment
  if Normalize.contentLimit ≤ cleaned.length then html.text cleaned
  else html.withAbsoluteLinks base cleaned

end Html

def RawFeed.normalizeBy (html : Html) (raw : RawFeed) : Feed :=
  let url := Bytes.trim (raw.url.getD [])
  { version := Bytes.trim (raw.version.getD [])
    title := html.line Limit.title raw.title
    url
    homeUrl := Normalize.link? raw.homeUrl url
    iconUrl := Normalize.link? raw.iconUrl url
    description := html.line Limit.description raw.description
    updated := raw.updated.bind Time.read
    authorName := html.line? Limit.authorName raw.authorName
    authorUrl := Normalize.link? raw.authorUrl url
    authorAvatarUrl := Normalize.link? raw.authorAvatarUrl url }

/-- The identity of a raw story; one that has none has the empty one. -/
def RawStory.identity (raw : RawStory) : Bytes := raw.ident.getD []

/-- The content of a raw story that is compared; a story without content has the empty one. -/
def RawStory.body (raw : RawStory) : Bytes := raw.content.getD []

/-- Where a raw story is found: under its link, or under its identity if it has none. -/
def RawStory.place (raw : RawStory) : Bytes :=
  (raw.url.filter (!Bytes.isAllBlank ·)).getD raw.identity

/-- The summary for a raw story: its own, or the beginning of its content. -/
def RawStory.summaryBy (html : Html) (raw : RawStory) : Bytes :=
  match raw.summary.filter (!Bytes.isAllBlank ·) with
  | some own => html.summary own
  | none => (raw.content.map html.summary).getD []

/-- The story that is published for a raw one of the feed at `feedUrl`. -/
def RawStory.normalizeBy (html : Html) (raw : RawStory) (feedUrl : Bytes) : Story :=
  let url := Url.web? (Url.normalize raw.place feedUrl)
  let base := url.getD feedUrl
  { ident := raw.identity
    title := html.line Limit.title raw.title
    url
    content := raw.content.map fun fragment => html.content fragment base
    summary := raw.summaryBy html
    hasMathjax := raw.content.any Formula.appears
    imageUrl := Normalize.link? raw.imageUrl base
    published := raw.published.bind Time.read
    updated := raw.updated.bind Time.read
    authorName := html.line? Limit.authorName raw.authorName
    authorUrl := Normalize.link? raw.authorUrl base
    authorAvatarUrl := Normalize.link? raw.authorAvatarUrl base }

/-- The story that is published for a raw one whose HTML is plain text. -/
def RawStory.normalize (raw : RawStory) (feedUrl : Bytes) : Story :=
  raw.normalizeBy Fragment.html feedUrl

end FeedIntake
