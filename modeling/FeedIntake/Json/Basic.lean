import FeedIntake.Bytes.Basic

/-!
JSON values. The members of an object are kept in the order of the bytes of their keys, each key
once, so that equal objects are equal lists.
-/
namespace FeedIntake

/-- A JSON value; a number is kept as it is written. -/
inductive Json where
  | null
  | bool (value : Bool)
  | number (literal : Bytes)
  | string (text : Bytes)
  | array (items : List Json)
  | object (members : List (Bytes × Json))
  deriving Repr, Inhabited

namespace Json

/-- Members in order with one more, which replaces a member of the same key. -/
def insertMember (key : Bytes) (value : Json) : List (Bytes × Json) → List (Bytes × Json)
  | [] => [(key, value)]
  | member :: rest =>
    if key == member.1 then (key, value) :: rest
    else if Bytes.lt key member.1 then (key, value) :: member :: rest
    else member :: insertMember key value rest

/-- The object with these members, in any order; of members with one key the last one counts. -/
def ofMembers (members : List (Bytes × Json)) : Json :=
  object (members.foldl (fun sorted member => insertMember member.1 member.2 sorted) [])

/-- The value of a member; a value that is no object has no members. -/
def member? (key : Bytes) : Json → Option Json
  | object members => members.lookup key
  | _ => none

/-- A text, or null in place of none. -/
def ofOption : Option Bytes → Json
  | some text => string text
  | none => null

end Json

end FeedIntake
