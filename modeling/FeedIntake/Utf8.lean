import FeedIntake.Bytes.Basic

/-!
UTF-8 over arbitrary bytes. `length` and `truncate` only tell continuation bytes from others, so
they make sense on ill-formed text too. `State` is the automaton of well-formed UTF-8: no overlong
form, no surrogate, nothing above U+10FFFF. Validity, the first fault and the repair of ill-formed
parts are all read off its runs.
-/
namespace FeedIntake.Utf8

/-- The mark that may stand in front of a text. -/
def byteOrderMark : Bytes := [0xEF, 0xBB, 0xBF]

/-- A byte of the form `10xxxxxx`, which never begins a character. -/
def isContinuation (b : UInt8) : Bool := b &&& 0xC0 == 0x80

/-- The number of characters: of bytes that begin one. -/
def length (s : Bytes) : Nat := s.countP (fun b => !isContinuation b)

/-- Carries bytes over to `kept`, last first, until a character begins after `room` others. -/
def truncateOnto (kept : Bytes) : Nat → Bytes → Bytes
  | _, [] => kept.reverse
  | room, b :: rest =>
    if isContinuation b then truncateOnto (b :: kept) room rest
    else match room with
      | 0 => kept.reverse
      | room + 1 => truncateOnto (b :: kept) room rest

/-- The beginning of `s` with at most `limit` characters, cut only in front of a character. -/
def truncate (limit : Nat) (s : Bytes) : Bytes := truncateOnto [] limit s

/-- The text `s` itself if it has at most `width` characters; else a beginning of it with
`placeholder` behind, `width` characters together where the placeholder leaves room. -/
def shorten (width : Nat) (placeholder s : Bytes) : Bytes :=
  if length s ≤ width then s else truncate (width - length placeholder) s ++ placeholder

def ellipsis : Bytes := Bytes.ofString "..."

/-- Between two bytes of a text: at the start of a character, or inside one, where the next byte has
to lie between `low` and `high` and `more` plain continuation bytes follow it. -/
inductive State where
  | start
  | inside (low high : UInt8) (more : Nat)
  deriving DecidableEq, Repr

/-- The next state, or `none` if no well-formed text goes on with `b`. -/
def State.step : State → UInt8 → Option State
  | .start, b =>
    if b < 0x80 then some .start
    else if b < 0xC2 then none
    else if b < 0xE0 then some (.inside 0x80 0xBF 0)
    else if b == 0xE0 then some (.inside 0xA0 0xBF 1)
    else if b == 0xED then some (.inside 0x80 0x9F 1)
    else if b < 0xF0 then some (.inside 0x80 0xBF 1)
    else if b == 0xF0 then some (.inside 0x90 0xBF 2)
    else if b < 0xF4 then some (.inside 0x80 0xBF 2)
    else if b == 0xF4 then some (.inside 0x80 0x8F 2)
    else none
  | .inside low high more, b =>
    if low ≤ b && b ≤ high then
      match more with
      | 0 => some .start
      | more + 1 => some (.inside 0x80 0xBF more)
    else none

/-- The state behind `s`, if every byte of it has a place. -/
def State.run : State → Bytes → Option State
  | state, [] => some state
  | state, b :: rest =>
    match state.step b with
    | none => none
    | some next => next.run rest

/-- Whether `s` is a sequence of whole, well-formed characters. -/
def isValid (s : Bytes) : Bool := State.start.run s == some .start

/-- Why a text is not well-formed. -/
inductive Fault where
  /-- The byte at this position has no place there. -/
  | invalidByte (index : Nat) (byte : UInt8)
  /-- The text ends inside a character, behind this byte. -/
  | incomplete (last : UInt8)
  deriving DecidableEq, Repr

/-- The first fault of the text that goes on with `s` at position `index`, behind the byte `last`.
-/
def faultFrom (state : State) (index : Nat) (last : UInt8) : Bytes → Option Fault
  | [] => if state = .start then none else some (.incomplete last)
  | b :: rest =>
    match state.step b with
    | none => some (.invalidByte index b)
    | some next => faultFrom next (index + 1) b rest

def fault? (s : Bytes) : Option Fault := faultFrom .start 0 0 s

/-- U+FFFD, which stands for a part that could not be read. -/
def replacement : Bytes := [0xEF, 0xBF, 0xBD]

/-- A pass that repairs a text: what is written, last byte first, the bytes of an unfinished
character, last first, and the state behind them. -/
structure Repair where
  written : Bytes
  part : Bytes
  state : State

/-- A byte at the start of a character: kept, held back as a first part, or replaced. -/
def Repair.begin (written : Bytes) (b : UInt8) : Repair :=
  match State.start.step b with
  | none => ⟨replacement.reverse ++ written, [], .start⟩
  | some .start => ⟨b :: written, [], .start⟩
  | some state => ⟨written, [b], state⟩

/-- A byte without a place ends the unfinished character in front of it, which is replaced as a
whole, and is then read again as the start of another. -/
def Repair.step (pass : Repair) (b : UInt8) : Repair :=
  if pass.state = .start then Repair.begin pass.written b
  else match pass.state.step b with
    | none => Repair.begin (replacement.reverse ++ pass.written) b
    | some .start => ⟨b :: (pass.part ++ pass.written), [], .start⟩
    | some state => ⟨pass.written, b :: pass.part, state⟩

/-- An unfinished character at the end is replaced too. -/
def Repair.finish (pass : Repair) : Bytes :=
  if pass.state = .start then pass.written.reverse
  else (replacement.reverse ++ pass.written).reverse

/-- The text `s` with U+FFFD in place of each longest part that begins a character and does not
finish it, and of each byte that begins none. -/
def repair (s : Bytes) : Bytes := (s.foldl Repair.step ⟨[], [], .start⟩).finish

end FeedIntake.Utf8
