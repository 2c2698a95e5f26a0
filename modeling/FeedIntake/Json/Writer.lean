import FeedIntake.Bytes.Mark
import FeedIntake.Json.Basic
import FeedIntake.Numeral
import FeedIntake.Utf8

/-!
Writing JSON. Only what has to be escaped is escaped, so the text of a value is well-formed UTF-8
exactly if its strings are. A value with other strings can be repaired before it is written, or its
writing can be refused.
-/
namespace FeedIntake.Json

/-- How values are laid out: in one line without spaces, or with one member or item to a line. -/
inductive Layout where
  | compact
  | indented
  deriving DecidableEq, Repr

/-- The written form of a byte in a string. -/
def escapeByte (b : UInt8) : Bytes :=
  if b == Mark.doubleQuote then Bytes.ofString "\\\""
  else if b == Mark.backslash then Bytes.ofString "\\\\"
  else if b == 0x08 then Bytes.ofString "\\b"
  else if b == 0x0C then Bytes.ofString "\\f"
  else if b == Mark.lineFeed then Bytes.ofString "\\n"
  else if b == Mark.carriageReturn then Bytes.ofString "\\r"
  else if b == Mark.tab then Bytes.ofString "\\t"
  else if b < 0x20 then
    Bytes.ofString "\\u00" ++ (if b < 0x10 then [Mark.zero] else []) ++ Numeral.digits 16 b.toNat
  else [b]

def quote (s : Bytes) : Bytes := [Mark.doubleQuote] ++ s.flatMap escapeByte ++ [Mark.doubleQuote]

/-- What stands in front of an item at `depth`. -/
def Layout.newLine (layout : Layout) (depth : Nat) : Bytes :=
  match layout with
  | compact => []
  | indented => Mark.lineFeed :: List.replicate (2 * depth) Mark.space

def Layout.colon (layout : Layout) : Bytes :=
  match layout with
  | compact => [Mark.colon]
  | indented => [Mark.colon, Mark.space]

mutual

/-- The text of a value that stands at `depth`. -/
def renderAt (layout : Layout) (depth : Nat) : Json → Bytes
  | null => Bytes.ofString "null"
  | bool value => Bytes.ofString (if value then "true" else "false")
  | number literal => literal
  | string text => quote text
  | array items =>
    if items.isEmpty then [Mark.openBracket, Mark.closeBracket]
    else [Mark.openBracket] ++ renderItems layout (depth + 1) items ++ layout.newLine depth
      ++ [Mark.closeBracket]
  | object members =>
    if members.isEmpty then [Mark.openBrace, Mark.closeBrace]
    else [Mark.openBrace] ++ renderMembers layout (depth + 1) members ++ layout.newLine depth
      ++ [Mark.closeBrace]

def renderItems (layout : Layout) (depth : Nat) : List Json → Bytes
  | [] => []
  | item :: rest =>
    layout.newLine depth ++ renderAt layout depth item
      ++ (if rest.isEmpty then [] else [Mark.comma]) ++ renderItems layout depth rest

def renderMembers (layout : Layout) (depth : Nat) : List (Bytes × Json) → Bytes
  | [] => []
  | (key, value) :: rest =>
    layout.newLine depth ++ quote key ++ layout.colon ++ renderAt layout depth value
      ++ (if rest.isEmpty then [] else [Mark.comma]) ++ renderMembers layout depth rest

end

def render (layout : Layout) (value : Json) : Bytes := renderAt layout 0 value

mutual

/-- The value with ill-formed parts of its strings and keys replaced. -/
def repaired : Json → Json
  | null => null
  | bool value => bool value
  | number literal => number literal
  | string text => string (Utf8.repair text)
  | array items => array (repairedItems items)
  | object members => object (repairedMembers members)

def repairedItems : List Json → List Json
  | [] => []
  | item :: rest => repaired item :: repairedItems rest

def repairedMembers : List (Bytes × Json) → List (Bytes × Json)
  | [] => []
  | (key, value) :: rest => (Utf8.repair key, repaired value) :: repairedMembers rest

end

mutual

/-- The first fault of a string, in the order of writing. -/
def fault? : Json → Option Utf8.Fault
  | string text => Utf8.fault? text
  | array items => itemsFault? items
  | object members => membersFault? members
  | _ => none

def itemsFault? : List Json → Option Utf8.Fault
  | [] => none
  | item :: rest => (fault? item).or (itemsFault? rest)

def membersFault? : List (Bytes × Json) → Option Utf8.Fault
  | [] => none
  | (key, value) :: rest => (Utf8.fault? key).or ((fault? value).or (membersFault? rest))

end

/-- The text of a value, if that is well-formed UTF-8. -/
def renderStrict (layout : Layout) (value : Json) : Except Utf8.Fault Bytes :=
  match value.fault? with
  | some fault => .error fault
  | none => .ok (value.render layout)

end FeedIntake.Json
