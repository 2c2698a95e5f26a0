import FeedIntake.Bytes.Ascii
import FeedIntake.Json.Basic
import FeedIntake.Numeral
import FeedIntake.Utf8

/-!
The tokens of JSON texts. The lexer is a machine that takes one byte at a time; strings come out
decoded, and numbers as they are written.
-/
namespace FeedIntake.Json

/-- Why a text is no JSON value that can be read. -/
inductive ReadError where
  /-- The text breaks the grammar, or a string in it is ill-formed. -/
  | malformed
  /-- A number is too great for any field. -/
  | overflow (literal : Bytes)
  deriving DecidableEq, Repr

inductive Token where
  | openObject
  | closeObject
  | openArray
  | closeArray
  | comma
  | colon
  /-- A value that needs no other token: a word, a number or a string. -/
  | scalar (value : Json)
  deriving Repr

/-- Decimal digits from the front, of which there has to be one. -/
def digits? (s : Bytes) : Option (Bytes × Bytes) :=
  let digits := s.takeWhile Bytes.isDigit
  if digits.isEmpty then none else some (digits, s.drop digits.length)

/-- The parts of a number: the digits in front of the point, those behind it, and the exponent. -/
structure NumberParts where
  whole : Bytes
  fraction : Bytes
  exponent : Int

/-- A number in parts, its sign aside. -/
def numberParts? (s : Bytes) : Option NumberParts := do
  let s := if s.head? == some Mark.hyphen then s.tail else s
  let (whole, s) ← digits? s
  if whole.length != 1 && whole.head? == some Mark.zero then none
  else
    let (fraction, s) ← match s with
      | Mark.dot :: rest => digits? rest
      | _ => some ([], s)
    match s with
    | [] => some ⟨whole, fraction, 0⟩
    | e :: rest =>
      if Bytes.lowerByte e != 'e'.toUInt8 then none
      else
        let (negative, rest) := match rest with
          | Mark.plus :: rest => (false, rest)
          | Mark.hyphen :: rest => (true, rest)
          | _ => (false, rest)
        let n : Int ← Numeral.decimal? rest
        some ⟨whole, fraction, if negative then -n else n⟩

/-- Numbers from here on round to infinity in the widest floating-point field. -/
def overflowBound : Nat := (1 <<< 1024) - (1 <<< 970)

/-- Whether a number is too great for any field. -/
def NumberParts.overflows (parts : NumberParts) : Bool :=
  let digits := (parts.whole ++ parts.fraction).dropWhile (· == Mark.zero)
  let exponent := parts.exponent - parts.fraction.length
  if digits.isEmpty || digits.length + exponent < 309 then false
  else if 310 < digits.length + exponent then true
  else
    let n := Numeral.value 10 digits
    overflowBound * Nat.pow 10 (-exponent).toNat ≤ n * Nat.pow 10 exponent.toNat

/-- The value of a run of bytes outside strings: a word or a number. -/
def ofBare (s : Bytes) : Except ReadError Json :=
  if s == Bytes.ofString "null" then .ok null
  else if s == Bytes.ofString "true" then .ok (bool true)
  else if s == Bytes.ofString "false" then .ok (bool false)
  else match numberParts? s with
    | none => .error .malformed
    | some parts => if parts.overflows then .error (.overflow s) else .ok (number s)

/-- The UTF-8 form of a character by its number. -/
def encodeChar (n : Nat) : Bytes :=
  if n < 0x80 then [n.toUInt8]
  else if n < 0x800 then [(0xC0 + n / 0x40).toUInt8, (0x80 + n % 0x40).toUInt8]
  else if n < 0x10000 then
    [(0xE0 + n / 0x1000).toUInt8, (0x80 + n / 0x40 % 0x40).toUInt8, (0x80 + n % 0x40).toUInt8]
  else
    [(0xF0 + n / 0x40000).toUInt8, (0x80 + n / 0x1000 % 0x40).toUInt8,
      (0x80 + n / 0x40 % 0x40).toUInt8, (0x80 + n % 0x40).toUInt8]

/-- The byte that a letter behind a backslash stands for. -/
def escapedByte? (b : UInt8) : Option UInt8 :=
  if b == Mark.doubleQuote || b == Mark.backslash || b == Mark.slash then some b
  else if b == 'b'.toUInt8 then some 0x08
  else if b == 'f'.toUInt8 then some 0x0C
  else if b == 'n'.toUInt8 then some Mark.lineFeed
  else if b == 'r'.toUInt8 then some Mark.carriageReturn
  else if b == 't'.toUInt8 then some Mark.tab
  else none

/-- Where the lexer stands. What has been kept of a token is kept last byte first; `high` is the
first half of a surrogate pair whose other half has to follow. -/
inductive Mode where
  | between
  | bare (kept : Bytes)
  | inString (kept : Bytes)
  | backslash (kept : Bytes)
  | unicode (kept : Bytes) (high : Option Nat) (digits : List Nat)
  | pair (kept : Bytes) (high : Nat)
  | pairBackslash (kept : Bytes) (high : Nat)

/-- A text between two bytes: the mode, and the tokens so far, last first. -/
structure Lexer where
  mode : Mode
  tokens : List Token

def isGap (b : UInt8) : Bool :=
  b == Mark.space || b == Mark.tab || b == Mark.lineFeed || b == Mark.carriageReturn

def punctuation? (b : UInt8) : Option Token :=
  if b == Mark.openBrace then some .openObject
  else if b == Mark.closeBrace then some .closeObject
  else if b == Mark.openBracket then some .openArray
  else if b == Mark.closeBracket then some .closeArray
  else if b == Mark.comma then some .comma
  else if b == Mark.colon then some .colon
  else none

/-- A byte between tokens. -/
def stepBetween (tokens : List Token) (b : UInt8) : Lexer :=
  if isGap b then ⟨.between, tokens⟩
  else if b == Mark.doubleQuote then ⟨.inString [], tokens⟩
  else match punctuation? b with
    | some token => ⟨.between, token :: tokens⟩
    | none => ⟨.bare [b], tokens⟩

/-- The character whose four digits are complete, or the first half of one. -/
def stepUnicode (kept : Bytes) (high : Option Nat) (unit : Nat) : Option Mode :=
  match high with
  | some high =>
    if 0xDC00 ≤ unit && unit < 0xE000 then
      let n := 0x10000 + (high - 0xD800) * 0x400 + (unit - 0xDC00)
      some (.inString ((encodeChar n).reverse ++ kept))
    else none
  | none =>
    if 0xD800 ≤ unit && unit < 0xDC00 then some (.pair kept unit)
    else if 0xDC00 ≤ unit && unit < 0xE000 then none
    else some (.inString ((encodeChar unit).reverse ++ kept))

def Lexer.step (lexer : Lexer) (b : UInt8) : Except ReadError Lexer :=
  let enter (mode : Mode) : Except ReadError Lexer := .ok ⟨mode, lexer.tokens⟩
  match lexer.mode with
  | .between => .ok (stepBetween lexer.tokens b)
  | .bare kept =>
    if isGap b || b == Mark.doubleQuote || (punctuation? b).isSome then do
      let value ← ofBare kept.reverse
      return stepBetween (.scalar value :: lexer.tokens) b
    else enter (.bare (b :: kept))
  | .inString kept =>
    if b == Mark.doubleQuote then
      let text := kept.reverse
      if Utf8.isValid text then .ok ⟨.between, .scalar (string text) :: lexer.tokens⟩
      else .error .malformed
    else if b == Mark.backslash then enter (.backslash kept)
    else if b < 0x20 then .error .malformed
    else enter (.inString (b :: kept))
  | .backslash kept =>
    if b == 'u'.toUInt8 then enter (.unicode kept none [])
    else match escapedByte? b with
      | some c => enter (.inString (c :: kept))
      | none => .error .malformed
  | .unicode kept high digits =>
    match Bytes.hexDigit? b, digits with
    | some d, [c, b, a] =>
      match stepUnicode kept high (((a * 16 + b) * 16 + c) * 16 + d) with
      | some mode => enter mode
      | none => .error .malformed
    | some d, digits => enter (.unicode kept high (d :: digits))
    | none, _ => .error .malformed
  | .pair kept high =>
    if b == Mark.backslash then enter (.pairBackslash kept high) else .error .malformed
  | .pairBackslash kept high =>
    if b == 'u'.toUInt8 then enter (.unicode kept (some high) []) else .error .malformed

def Lexer.run : Lexer → Bytes → Except ReadError Lexer
  | lexer, [] => .ok lexer
  | lexer, b :: rest =>
    match lexer.step b with
    | .ok next => next.run rest
    | .error error => .error error

def tokens (s : Bytes) : Except ReadError (List Token) := do
  let lexer ← Lexer.run ⟨.between, []⟩ s
  match lexer.mode with
  | .between => return lexer.tokens.reverse
  | .bare kept => return (.scalar (← ofBare kept.reverse) :: lexer.tokens).reverse
  | _ => .error .malformed

end FeedIntake.Json
