import FeedIntake.Bytes.Ascii

/-!
Media types as headers declare them, and which of them pages and feeds have.
-/
namespace FeedIntake.MediaType

/-- The media type in a header, without parameters and in lower case. -/
def ofHeader (header : Bytes) : Bytes :=
  Bytes.lower (Bytes.trim (header.takeWhile (· != Mark.semicolon)))

/-- Whether a media type has two parts and no space. -/
def isWellFormed (mime : Bytes) : Bool :=
  match Bytes.cut? Mark.slash mime with
  | none => false
  | some (kind, subtype) => !kind.isEmpty && !subtype.isEmpty && !mime.contains Mark.space

/-- The media types of pages and feeds that are taken by their whole name. -/
def pageTypes : List Bytes :=
  ["text/html", "text/plain", "application/xml", "application/json"].map Bytes.ofString

/-- Whether pages and feeds have this media type: one of the page types, or any other written in XML
or JSON. -/
def isPage (mime : Bytes) : Bool :=
  let mime := Bytes.lower (Bytes.trim mime)
  pageTypes.contains mime
    || (Bytes.startsWith mime (Bytes.ofString "text/")
      && Bytes.endsWith mime (Bytes.ofString "xml"))
    || (Bytes.startsWith mime (Bytes.ofString "application/")
      && (Bytes.endsWith mime (Bytes.ofString "+xml")
        || Bytes.endsWith mime (Bytes.ofString "+json")))

def octetStream : Bytes := Bytes.ofString "application/octet-stream"

end FeedIntake.MediaType
