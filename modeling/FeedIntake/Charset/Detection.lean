import FeedIntake.Charset.Basic
import FeedIntake.Charset.Label

/-!
The choice of a charset for a body. A label counts only if the beginning of the body decodes under
it, except that a byte order mark is believed. What is told from outside comes before what the
document says of itself, and both come before UTF-8; only what is not UTF-8 either is left to the
statistic of a library.
-/
namespace FeedIntake.Charset

def testLimit : Nat := 65536

inductive Ground where
  | declared
  | mark
  | document
  | wellFormed
  /-- The bytes look like it. -/
  | statistic
  /-- Nothing fits, and the usual charset is assumed. -/
  | assumed
  deriving DecidableEq, Repr

/-- The label that was chosen, and why. -/
structure Choice where
  label : Bytes
  ground : Ground
  deriving DecidableEq, Repr

def usual : Bytes := Bytes.ofString "utf-8"

variable [Library]

/-- The likeliest charset under which a beginning of a body decodes. Whether it is cut off can no
longer be told if it is as long as a beginning may be, so then it counts as cut. -/
def guess? (front : Bytes) : Option Bytes :=
  ((Library.guesses front).map Label.normalize).find? fun label =>
    decodesAs label (testLimit ≤ front.length) front

/-- The charset of a body under an optional label from outside. -/
def choose (declared : Option Bytes) (body : Bytes) : Choice :=
  let isCut := testLimit < body.length
  let front := body.take testLimit
  let fits (label : Bytes) : Bool := decodesAs label isCut front
  match (declared.map Label.normalize).filter fun label => !label.isEmpty && fits label with
  | some label => ⟨label, .declared⟩
  | none =>
    match Label.ofMark? front with
    | some label => ⟨label, .mark⟩
    | none =>
      match (Label.ofDocument? front).filter fits with
      | some label => ⟨label, .document⟩
      | none =>
        if fits usual then ⟨usual, .wellFormed⟩
        else
          match guess? front with
          | some label => ⟨label, .statistic⟩
          | none => ⟨usual, .assumed⟩

def detect (declared : Option Bytes) (body : Bytes) : Bytes := (choose declared body).label

end FeedIntake.Charset
