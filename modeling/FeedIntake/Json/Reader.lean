import FeedIntake.Json.Token

/-!
Reading JSON: a machine over tokens with a stack of the arrays and objects that are still open. Of
members with one key the last one counts.
-/
namespace FeedIntake.Json

/-- An array or object that is open around a value: what is complete of it, last first. -/
inductive Frame where
  | items (done : List Json)
  | members (done : List (Bytes × Json)) (key : Bytes)

/-- What may come next. -/
inductive Expecting where
  | value (stack : List Frame)
  | firstItem (stack : List Frame)
  | afterItem (done : List Json) (stack : List Frame)
  | firstKey (stack : List Frame)
  | key (done : List (Bytes × Json)) (stack : List Frame)
  | colon (done : List (Bytes × Json)) (key : Bytes) (stack : List Frame)
  | afterMember (done : List (Bytes × Json)) (stack : List Frame)
  | nothing (value : Json)

/-- A complete value takes its place in what is open around it. -/
def complete (value : Json) : List Frame → Expecting
  | [] => .nothing value
  | .items done :: stack => .afterItem (value :: done) stack
  | .members done key :: stack => .afterMember ((key, value) :: done) stack

/-- The beginning of a value. -/
def beginValue (stack : List Frame) : Token → Option Expecting
  | .openObject => some (.firstKey stack)
  | .openArray => some (.firstItem stack)
  | .scalar value => some (complete value stack)
  | _ => none

def Expecting.step : Expecting → Token → Option Expecting
  | .value stack, token => beginValue stack token
  | .firstItem stack, .closeArray => some (complete (array []) stack)
  | .firstItem stack, token => beginValue (.items [] :: stack) token
  | .afterItem done stack, .comma => some (.value (.items done :: stack))
  | .afterItem done stack, .closeArray => some (complete (array done.reverse) stack)
  | .firstKey stack, .closeObject => some (complete (object []) stack)
  | .firstKey stack, .scalar (string name) => some (.colon [] name stack)
  | .key done stack, .scalar (string name) => some (.colon done name stack)
  | .colon done name stack, .colon => some (.value (.members done name :: stack))
  | .afterMember done stack, .comma => some (.key done stack)
  | .afterMember done stack, .closeObject => some (complete (ofMembers done.reverse) stack)
  | _, _ => none

def Expecting.run : Expecting → List Token → Option Expecting
  | expecting, [] => some expecting
  | expecting, token :: rest =>
    match expecting.step token with
    | some next => next.run rest
    | none => none

/-- The value that a text stands for. -/
def ofText (s : Bytes) : Except ReadError Json := do
  let s := if Bytes.startsWith s Utf8.byteOrderMark then s.drop Utf8.byteOrderMark.length else s
  match Expecting.run (.value []) (← tokens s) with
  | some (.nothing value) => .ok value
  | _ => .error .malformed

end FeedIntake.Json
