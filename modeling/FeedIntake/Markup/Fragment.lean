import FeedIntake.Markup.Processor

/-!
Plain text fragments of HTML: text without tags, where references stand for the three characters
that begin or end something. To a library for HTML such a fragment is one text node, decoded where
it is read and escaped where it is written.
-/
namespace FeedIntake

namespace Fragment

/-- The references that are read and written, by the text behind their ampersand. -/
def references : List (Bytes × UInt8) :=
  [(Bytes.ofString "amp;", Mark.ampersand), (Bytes.ofString "lt;", Mark.less),
    (Bytes.ofString "gt;", Mark.greater)]

/-- What stands behind an ampersand, with the reference resolved that it begins; an ampersand that
begins none stands for itself. -/
def resolve (part : Bytes) : Bytes :=
  match references.find? fun reference => reference.1.isPrefixOf part with
  | some (name, character) => character :: part.drop name.length
  | none => Mark.ampersand :: part

/-- The text that a fragment shows. -/
def decode (fragment : Bytes) : Bytes :=
  match Bytes.splitOn Mark.ampersand fragment with
  | [] => []
  | first :: parts => first ++ parts.flatMap resolve

/-- The written form of a byte of a text. -/
def escapeByte (b : UInt8) : Bytes :=
  match references.find? fun reference => reference.2 == b with
  | some (name, _) => Mark.ampersand :: name
  | none => [b]

/-- The fragment that shows a text. -/
def escape (text : Bytes) : Bytes := text.flatMap escapeByte

end Fragment

namespace Markup

/-- The root element of a document whose body holds the wrapping element with these children. -/
def document (children : List Node) : Node :=
  .element (Bytes.ofString "html") []
    [.element (Bytes.ofString "body") [] [.element wrapperName [wrapperMark] children]]

/-- What stands in the wrapping element of a document. -/
def unwrap (document : Bytes) : Bytes :=
  let behind := document.drop wrapperStart.length
  behind.take (behind.length - wrapperEnd.length)

end Markup

namespace Fragment

/-- What a library for HTML does where all fragments are plain text. -/
def library : Markup.Library where
  root? document := some (Markup.document [.text (decode (Markup.unwrap document))])
  write node := escape node.shown

def html : Html := library.html

/-- A fragment in its own form, without anything that a page could execute. -/
def clean (fragment : Bytes) : Bytes := library.clean fragment

/-- The text that a fragment shows, line by line. -/
def text (fragment : Bytes) : Bytes := library.text fragment

/-- A fragment with its links made absolute. -/
def withAbsoluteLinks (base fragment : Bytes) : Bytes := library.withAbsoluteLinks base fragment

end Fragment

end FeedIntake
