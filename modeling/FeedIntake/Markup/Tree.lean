import FeedIntake.Bytes.Ascii

/-!
HTML as a tree, and what a library does that reads and writes it. How a document becomes a tree is
the library's own business: what is done with the tree is not.
-/
namespace FeedIntake.Markup

/-- An attribute of an element; one may be given without a value. -/
structure Attribute where
  name : Bytes
  value : Option Bytes
  deriving DecidableEq, Repr

inductive Node where
  | element (name : Bytes) (attributes : List Attribute) (children : List Node)
  | text (content : Bytes)
  | cdata (content : Bytes)
  | comment (content : Bytes)
  | other
  deriving Repr

/-- A library for HTML: the root element of a document, if anything can be made of it, and how a
node is written. -/
structure Library where
  root? (document : Bytes) : Option Node
  write : Node → Bytes

namespace Attribute

/-- The text of a value; an attribute without one has the empty text. -/
def text (entry : Attribute) : Bytes := entry.value.getD []

/-- The text of the attribute of a name, if there is one. -/
def text? (name : Bytes) (attributes : List Attribute) : Option Bytes :=
  (attributes.find? (·.name == name)).map text

/-- The attributes with a new value for one of them, which comes last if it was not there. -/
def set (name value : Bytes) : List Attribute → List Attribute
  | [] => [⟨name, some value⟩]
  | entry :: rest =>
    if entry.name == name then ⟨name, some value⟩ :: rest else entry :: set name value rest

end Attribute

namespace Node

def children : Node → List Node
  | element _ _ children => children
  | _ => []

def isNamed (name : Bytes) : Node → Bool
  | element own _ _ => own == name
  | _ => false

/-- What stands in the body of a document, by its root element. -/
def body? (root : Node) : Option (List Node) :=
  (root.children.find? (isNamed (Bytes.ofString "body"))).map children

end Node

end FeedIntake.Markup
