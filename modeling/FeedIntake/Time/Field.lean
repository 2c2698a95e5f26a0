import FeedIntake.Numeral

/-!
The pieces that written dates are made of. A reader takes the text that is left and answers what it
read together with the rest behind it.
-/
namespace FeedIntake.Time.Field

/-- At most `width` digits from the front. -/
def digits (width : Nat) (s : Bytes) : Bytes := (s.take width).takeWhile Bytes.isDigit

/-- A number of at most `width` bytes behind any blanks. A sign is one of those bytes, and at least
one digit is needed. -/
def number (width : Nat) (s : Bytes) : Option (Int × Bytes) :=
  let s := s.dropWhile Bytes.isBlank
  match s with
  | [] => none
  | b :: rest =>
    let signed := b == Mark.hyphen || b == Mark.plus
    let body := if signed then rest else b :: rest
    let found := digits (if signed then width - 1 else width) body
    if found.isEmpty then none
    else
      let magnitude : Int := Numeral.value 10 found
      some (if b == Mark.hyphen then -magnitude else magnitude, body.drop found.length)

/-- The byte `b`, which has to come next. -/
def exactly (b : UInt8) : Bytes → Option Bytes
  | [] => none
  | c :: rest => if c == b then some rest else none

/-- One to `width` bytes that are neither blank nor zero, behind any blanks. -/
def word (width : Nat) (s : Bytes) : Option (Bytes × Bytes) :=
  let s := s.dropWhile Bytes.isBlank
  let found := (s.take width).takeWhile (fun b => !Bytes.isBlank b && b != 0)
  if found.isEmpty then none else some (found, s.drop found.length)

/-- The seconds behind a second colon; none are written if no colon comes next. -/
def seconds? : Bytes → Option (Int × Bytes)
  | Mark.colon :: rest => number 2 rest
  | s => some (0, s)

end FeedIntake.Time.Field
