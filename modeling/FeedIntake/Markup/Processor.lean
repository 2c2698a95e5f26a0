import FeedIntake.Markup.Tree
import FeedIntake.Url.Reference

/-!
What is done with fragments of HTML: they are cleaned of everything that a page could execute, they
are flattened to the text that they show, and their links are made absolute. Each is one pass over
the tree that a library reads. A fragment is put into an element of its own first, so that it can be
told from what a library adds around it, and only what stands in that element is written again.
-/
namespace FeedIntake

/-- What is done with HTML: a fragment without active parts, the text that it shows, and a fragment
with its links made absolute. -/
structure Html where
  clean : Bytes → Bytes
  text : Bytes → Bytes
  withAbsoluteLinks (base fragment : Bytes) : Bytes

namespace Markup

/-- The element that a fragment is put into. -/
def wrapperName : Bytes := Bytes.ofString "div"

def wrapperMark : Attribute := ⟨Bytes.ofString "data-feedlib-root", some (Bytes.ofString "1")⟩

def wrapperStart : Bytes := Bytes.ofString "<div data-feedlib-root=\"1\">"

def wrapperEnd : Bytes := Bytes.ofString "</div>"

def wrap (fragment : Bytes) : Bytes := wrapperStart ++ fragment ++ wrapperEnd

def isWrapper : Node → Bool
  | .element name attributes _ =>
    name == wrapperName && Attribute.text? wrapperMark.name attributes == wrapperMark.value
  | _ => false

/-- What stands in a body, with the children of the wrapping element in its place. -/
def topLevel (content : List Node) : List Node :=
  content.flatMap fun node => if isWrapper node then node.children else [node]

/-- The elements that are removed with everything in them. -/
def droppedElements : List Bytes := [
  "script", "style", "iframe", "object", "embed", "applet", "form", "input", "button", "select",
  "textarea", "link", "meta", "base", "frame", "frameset", "noscript", "title", "animate", "set",
  "animatetransform", "animatemotion"].map Bytes.ofString

/-- The attributes that hold a URL. -/
def urlAttributes : List Bytes := [
  "href", "src", "action", "formaction", "background", "poster", "cite", "longdesc"].map
    Bytes.ofString

/-- How a URL begins that is executed and not opened. -/
def dangerousStarts : List Bytes :=
  ["javascript:", "vbscript:", "data:text/html"].map Bytes.ofString

/-- The elements that stand on lines of their own. -/
def blockElements : List Bytes := [
  "p", "div", "br", "li", "ul", "ol", "dl", "dt", "dd", "h1", "h2", "h3", "h4", "h5", "h6", "tr",
  "table", "blockquote", "pre", "hr", "section", "article", "header", "footer", "figure"].map
    Bytes.ofString

/-- The elements whose text is not shown. -/
def silentElements : List Bytes := ["script", "style", "noscript", "title"].map Bytes.ofString

/-- Whether a URL is executed, whatever controls and spaces are strewn in it. -/
def isDangerous (url : Bytes) : Bool :=
  let compact := Bytes.lower (url.filter (0x20 < ·))
  dangerousStarts.any (Bytes.startsWith compact)

namespace Attribute

/-- A name without the prefix that names its namespace. -/
def localName (name : Bytes) : Bytes :=
  match Bytes.cutLast? Mark.colon name with
  | some (_, own) => own
  | none => name

/-- Whether an attribute runs code, styles its element or leads to what is executed. -/
def isActive (entry : Attribute) : Bool :=
  let name := Bytes.lower entry.name
  let own := localName name
  (2 < own.length && Bytes.startsWith own (Bytes.ofString "on"))
    || name == Bytes.ofString "style"
    || (urlAttributes.contains own && isDangerous entry.text)

/-- The attributes with the link in one of them made absolute; an empty link and one within the page
stay as they are. -/
def resolve (base : Bytes) (attributes : List Attribute) (name : Bytes) : List Attribute :=
  match text? name attributes with
  | none => attributes
  | some value =>
    let link := Bytes.trim value
    if link.isEmpty || Bytes.startsWith link [Mark.hash] then attributes
    else set name (Bytes.untilNul (Url.normalize link base)) attributes

/-- Whether the attributes of an anchor lead into the web. -/
def opensWeb (attributes : List Attribute) : Bool :=
  match text? (Bytes.ofString "href") attributes with
  | none => false
  | some link =>
    let link := Bytes.lower link
    Bytes.startsWith link (Bytes.ofString "http://")
      || Bytes.startsWith link (Bytes.ofString "https://")

/-- The attributes of an element with its links made absolute. An anchor into the web opens a page
of its own, which is told nothing about this one. -/
def relink (base name : Bytes) (attributes : List Attribute) : List Attribute :=
  let linked := [Bytes.ofString "href", Bytes.ofString "src"].foldl (resolve base) attributes
  if name == Bytes.ofString "a" && opensWeb linked then
    set (Bytes.ofString "rel") (Bytes.ofString "noopener noreferrer")
      (set (Bytes.ofString "target") (Bytes.ofString "_blank") linked)
  else linked

end Attribute

/-- Whether a node is removed with everything in it. -/
def Node.isDropped : Node → Bool
  | .element name _ _ => droppedElements.contains name
  | .comment _ => true
  | _ => false

mutual

/-- A node without the active parts in it. -/
def Node.sanitize : Node → Node
  | .element name attributes children =>
    .element name (attributes.filter (!·.isActive)) (sanitizeAll children)
  | node => node

def sanitizeAll : List Node → List Node
  | [] => []
  | node :: rest =>
    if node.isDropped then sanitizeAll rest else node.sanitize :: sanitizeAll rest

end

mutual

/-- The text that a node shows, with a line feed on both sides of a block. -/
def Node.shown : Node → Bytes
  | .element name _ children =>
    if silentElements.contains name then []
    else if blockElements.contains name then Mark.lineFeed :: shownAll children ++ [Mark.lineFeed]
    else shownAll children
  | .text content => content
  | .cdata content => content
  | _ => []

def shownAll : List Node → Bytes
  | [] => []
  | node :: rest => node.shown ++ shownAll rest

end

mutual

/-- A node with the links in it made absolute. -/
def Node.relink (base : Bytes) : Node → Node
  | .element name attributes children =>
    .element name (Attribute.relink base name attributes) (relinkAll base children)
  | node => node

def relinkAll (base : Bytes) : List Node → List Node
  | [] => []
  | node :: rest => node.relink base :: relinkAll base rest

end

/-- One more line of a text, which is kept last byte first: without the blanks at its ends, on a
line of its own, or not at all if nothing is left of it. -/
def addLine (kept line : Bytes) : Bytes :=
  let shown := Bytes.trim line
  if shown.isEmpty then kept
  else if kept.isEmpty then shown.reverse
  else shown.reverse ++ Mark.lineFeed :: kept

/-- A text with its lines trimmed and without empty ones. -/
def tidy (text : Bytes) : Bytes := ((Bytes.splitOn Mark.lineFeed text).foldl addLine []).reverse

namespace Library

variable (library : Library)

/-- What stands in the body of the document that a fragment is read as. -/
def content? (fragment : Bytes) : Option (List Node) :=
  (library.root? (wrap fragment)).bind Node.body?

def serialize (content : List Node) : Bytes := (topLevel content).flatMap library.write

/-- A fragment without anything that a page could execute. -/
def clean (fragment : Bytes) : Bytes :=
  if Bytes.isAllBlank fragment then []
  else match library.content? fragment with
    | none => []
    | some content => library.serialize (sanitizeAll content)

/-- The text that a fragment shows, line by line. -/
def text (fragment : Bytes) : Bytes :=
  if Bytes.isAllBlank fragment then []
  else match library.content? fragment with
    | none => []
    | some content => tidy (shownAll content)

/-- A fragment with its links made absolute; one that cannot be read stays as it is. -/
def withAbsoluteLinks (base fragment : Bytes) : Bytes :=
  if Bytes.isAllBlank fragment then []
  else match library.content? fragment with
    | none => fragment
    | some content => library.serialize (relinkAll base content)

def html : Html := ⟨library.clean, library.text, library.withAbsoluteLinks⟩

end Library

end Markup

end FeedIntake
