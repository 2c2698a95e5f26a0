import FeedIntake.Bytes.Mark
import FeedIntake.Bytes.Ascii

/-!
Numerals: printing naturals and integers in base ten and sixteen without leading zeros, and the
value of a run of digits in any base up to sixteen.
-/
namespace FeedIntake.Numeral

/-- The digits of `n` in `base`, in lower case and without leading zeros. -/
def digits (base n : Nat) : Bytes := (Nat.toDigits base n).map Char.toUInt8

def decimal (n : Nat) : Bytes := digits 10 n

/-- An integer in base ten, behind a hyphen if it is negative. -/
def signed (i : Int) : Bytes := if i < 0 then Mark.hyphen :: decimal i.natAbs else decimal i.natAbs

/-- A natural number in base ten, filled up with zeros in front to at least `width` digits. -/
def padded (width n : Nat) : Bytes :=
  let digits := decimal n
  List.replicate (width - digits.length) Mark.zero ++ digits

/-- The number that a run of digits denotes in `base`. -/
def value (base : Nat) (digits : Bytes) : Nat :=
  digits.foldl (fun n b => n * base + (Bytes.hexDigit? b).getD 0) 0

/-- The number that a text of decimal digits denotes, if it is one. -/
def decimal? (s : Bytes) : Option Nat :=
  if !s.isEmpty && s.all Bytes.isDigit then some (value 10 s) else none

end FeedIntake.Numeral
