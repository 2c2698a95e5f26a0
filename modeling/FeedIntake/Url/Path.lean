import FeedIntake.Bytes.Mark
import FeedIntake.Bytes.Basic

/-!
Dot segments of a path. A path is taken as pieces that begin with a slash each, the first perhaps
without one; `.` pieces vanish and `..` pieces take the piece before them away.
-/
namespace FeedIntake.Path

/-- Without every `./` and `../` at the front of a relative path. -/
def skipLeadingDots : Bytes → Bytes
  | Mark.dot :: Mark.slash :: rest => skipLeadingDots rest
  | Mark.dot :: Mark.dot :: Mark.slash :: rest => skipLeadingDots rest
  | s => s

/-- The segments behind each slash, resolved onto the pieces that are kept, last first. A dot
segment at the end leaves a slash. -/
def resolve (kept : List Bytes) : List Bytes → List Bytes
  | [] => kept
  | segment :: rest =>
    if segment = [Mark.dot] then
      resolve (if rest.isEmpty then [Mark.slash] :: kept else kept) rest
    else if segment = [Mark.dot, Mark.dot] then
      resolve (if rest.isEmpty then [Mark.slash] :: kept.tail else kept.tail) rest
    else resolve ((Mark.slash :: segment) :: kept) rest

/-- The path without dot segments. -/
def removeDots (path : Bytes) : Bytes :=
  let path := skipLeadingDots path
  if path = [Mark.dot] ∨ path = [Mark.dot, Mark.dot] then []
  else match Bytes.splitOn Mark.slash path with
    | [] => []
    | first :: segments =>
      (resolve (if first.isEmpty then [] else [first]) segments).reverse.flatten

end FeedIntake.Path
