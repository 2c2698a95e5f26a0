import FeedIntake.Bytes.Ascii

/-!
Labels of charsets as documents and headers write them: with quotes, blanks and capitals around a
name that has several spellings.
-/
namespace FeedIntake.Label

def isQuote (b : UInt8) : Bool := b == Mark.doubleQuote || b == Mark.singleQuote

/-- Other spellings and the label that stands for them. -/
def aliases : List (Bytes × Bytes) :=
  [("utf8", "utf-8"), ("unicode-1-1-utf-8", "utf-8"),
    ("latin1", "iso-8859-1"), ("latin-1", "iso-8859-1"), ("iso8859-1", "iso-8859-1"),
    ("iso_8859-1", "iso-8859-1"), ("l1", "iso-8859-1"),
    ("ascii", "us-ascii"), ("us_ascii", "us-ascii"),
    ("cp1252", "windows-1252"), ("x-cp1252", "windows-1252"), ("cp1251", "windows-1251"),
    ("x-gbk", "gbk"), ("cp936", "gbk"), ("gb_2312-80", "gb2312"),
    ("sjis", "shift_jis"), ("shift-jis", "shift_jis"), ("x-sjis", "shift_jis"),
    ("euc_jp", "euc-jp"), ("big5-hkscs", "big5hkscs")].map
    fun (spelling, label) => (Bytes.ofString spelling, Bytes.ofString label)

/-- Without the blanks around it, then the quotes, then the blanks inside those, in lower case. -/
def bare (s : Bytes) : Bytes :=
  Bytes.lower <| Bytes.trim <| Bytes.dropEndWhile isQuote <| (Bytes.trim s).dropWhile isQuote

/-- The one label for what a document or header calls a charset. -/
def normalize (s : Bytes) : Bytes := (aliases.lookup (bare s)).getD (bare s)

/-- The label that a parameter of a header gives, if it is a charset parameter that names one. -/
def ofParameter? (parameter : Bytes) : Option Bytes :=
  match Bytes.cut? Mark.equal parameter with
  | none => none
  | some (name, value) =>
    if Bytes.lower (Bytes.trim name) == Bytes.ofString "charset" then
      some (normalize value) |>.filter (!·.isEmpty)
    else none

/-- The label that the parameters behind the media type of a header give; the first one counts. -/
def ofContentType? (header : Bytes) : Option Bytes :=
  (Bytes.splitOn Mark.semicolon header).tail.findSome? ofParameter?

def endsValue (b : UInt8) : Bool :=
  isQuote b || b == Mark.space || b == Mark.semicolon || b == Mark.greater || b == Mark.question
    || b == Mark.slash

/-- The value at the front of the text behind an attribute's name, past equals signs, spaces and one
quote. -/
def attributeValue (s : Bytes) : Bytes :=
  let s := s.dropWhile fun b => b == Mark.space || b == Mark.equal
  let s := match s with
    | b :: rest => if isQuote b then rest else s
    | [] => []
  s.takeWhile fun b => !endsValue b

def scanLimit : Nat := 1024

/-- The label that an XML declaration gives in a text in lower case. -/
def ofXmlDeclaration? (head : Bytes) : Option Bytes := do
  let rest ← Bytes.from? (Bytes.ofString "<?xml") head
  let declaration := match Bytes.breakOn? (Bytes.ofString "?>") rest with
    | some (front, _) => front
    | none => rest
  if Bytes.occurs (Bytes.ofString "encoding") declaration then
    let value ← Bytes.after? (Bytes.ofString "encoding") rest
    some (normalize (attributeValue value)) |>.filter (!·.isEmpty)
  else none

/-- The label that the text from the first `<meta` on gives, in a text in lower case. -/
def ofMeta? (head : Bytes) : Option Bytes := do
  let rest ← Bytes.from? (Bytes.ofString "<meta") head
  let value ← Bytes.after? (Bytes.ofString "charset") rest
  some (normalize (attributeValue value)) |>.filter (!·.isEmpty)

def ofDocument? (body : Bytes) : Option Bytes :=
  let head := Bytes.lower (body.take scanLimit)
  (ofXmlDeclaration? head) <|> (ofMeta? head)

/-- The label of the byte order mark in front of a document. -/
def ofMark? (body : Bytes) : Option Bytes :=
  if Bytes.startsWith body [0xEF, 0xBB, 0xBF] then some (Bytes.ofString "utf-8")
  else if Bytes.startsWith body [0xFF, 0xFE] then some (Bytes.ofString "utf-16le")
  else if Bytes.startsWith body [0xFE, 0xFF] then some (Bytes.ofString "utf-16be")
  else none

end FeedIntake.Label
