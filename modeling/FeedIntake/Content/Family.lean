import FeedIntake.Content.MediaType
import FeedIntake.Url.Reference

/-!
Families of documents. The beginning of a body tells its family by the marker that comes first; the
declared media type and the URL help where the body says nothing. A body without a family is not
supported.
-/
namespace FeedIntake

inductive Family where
  | rss
  | atom
  | json
  | html
  | xml
  /-- A document that is worth reading although nothing tells its kind. -/
  | unknown
  deriving DecidableEq, Repr

namespace Family

def name : Family → Bytes
  | rss => Bytes.ofString "rss"
  | atom => Bytes.ofString "atom"
  | json => Bytes.ofString "json"
  | html => Bytes.ofString "html"
  | xml => Bytes.ofString "xml"
  | unknown => Bytes.ofString "unknown"

def sniffLimit : Nat := 4096

/-- The markers of a document in angle brackets, in lower case, and the families they tell. No two
of them can begin at the same place. -/
def markers : List (Bytes × Family) :=
  [("<rss", rss), ("<rdf:rdf", rss), ("<feed", atom), ("<html", html), ("<!doctype html", html)].map
    fun (marker, family) => (Bytes.ofString marker, family)

/-- The family of the marker that a text in lower case begins with. -/
def markerAt? (s : Bytes) : Option Family :=
  (markers.find? fun entry => entry.1.isPrefixOf s).map (·.2)

/-- The family of the first marker in a text in lower case. -/
def firstMarker? : Bytes → Option Family
  | [] => none
  | b :: rest =>
    match markerAt? (b :: rest) with
    | some family => some family
    | none => firstMarker? rest

/-- A blank in front of a document. -/
def isMargin (b : UInt8) : Bool :=
  b == Mark.space || b == Mark.tab || b == Mark.carriageReturn || b == Mark.lineFeed

/-- The part of a body that tells its family: the first bytes without a mark and blanks in front. -/
def headOf (body : Bytes) : Bytes :=
  let front := body.take sniffLimit
  let front :=
    if Bytes.startsWith front Utf8.byteOrderMark then front.drop Utf8.byteOrderMark.length
    else front
  front.dropWhile isMargin

def sniff? (body : Bytes) : Option Family :=
  match headOf body with
  | Mark.openBrace :: _ | Mark.openBracket :: _ => some json
  | Mark.less :: rest => some ((firstMarker? (Bytes.lower (Mark.less :: rest))).getD xml)
  | _ => none

/-- The family that a media type suggests. -/
def ofMediaType (mime : Bytes) : Family :=
  let names (part : String) : Bool := Bytes.occurs (Bytes.ofString part) mime
  if names "rss" || names "rdf" then rss
  else if names "atom" then atom
  else if names "json" then json
  else if names "html" then html
  else if names "xml" then xml
  else unknown

def extensions : List Bytes :=
  ["xml", "rss", "atom", "rdf", "json", "html", "htm", "xhtml"].map Bytes.ofString

/-- The family of a body that came from `url` under an optional content type, or none if it is not
supported. A declared media type decides whether the body is taken; where none is declared that
means anything, the structure of the body does, then the URL, and a text without a zero byte is
taken if no media type is declared at all. -/
def classify? (contentType : Option Bytes) (body url : Bytes) : Option Family :=
  let mime := (contentType.map MediaType.ofHeader).getD []
  if MediaType.isWellFormed mime && mime != MediaType.octetStream then
    if MediaType.isPage mime then some ((sniff? body).getD (ofMediaType mime)) else none
  else match sniff? body with
    | some family => some family
    | none =>
      if extensions.contains (Url.extension url) then some unknown
      else if mime.isEmpty && !body.isEmpty && !(body.take sniffLimit).contains 0 then some unknown
      else none

end Family

end FeedIntake
