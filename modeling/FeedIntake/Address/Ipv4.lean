import FeedIntake.Numeral

/-!
IPv4 addresses and their texts. `ofDotted?` reads the one canonical form; `ofNumeric?` also reads
the older spellings with fewer parts and with octal or hexadecimal parts, which name the same
addresses.
-/
namespace FeedIntake

/-- An IPv4 address: 32 bits, the first octet on top. -/
structure Ipv4 where
  bits : BitVec 32
  deriving DecidableEq, Repr

namespace Ipv4

/-- The address whose octets are these numbers, each below 256, the first on top. -/
def ofOctets (a b c d : Nat) : Ipv4 := ⟨BitVec.ofNat 32 (((a * 256 + b) * 256 + c) * 256 + d)⟩

def octets (address : Ipv4) : List Nat :=
  let n := address.bits.toNat
  [n / 0x1000000 % 256, n / 0x10000 % 256, n / 0x100 % 256, n % 256]

def render (address : Ipv4) : Bytes := Bytes.join Mark.dot (address.octets.map Numeral.decimal)

/-- An octet in base ten without leading zeros. -/
def octet? (s : Bytes) : Option Nat :=
  match Numeral.decimal? s with
  | none => none
  | some n => if (s.head? == some Mark.zero && s.length != 1) || 255 < n then none else some n

/-- The address that the canonical form with four octets names. -/
def ofDotted? (s : Bytes) : Option Ipv4 :=
  match Bytes.splitOn Mark.dot s with
  | [a, b, c, d] => do
    return ofOctets (← octet? a) (← octet? b) (← octet? c) (← octet? d)
  | _ => none

/-- One part of a numeric spelling: hexadecimal behind `0x`, octal behind any other zero, else
decimal. -/
def part? : Bytes → Option Nat
  | [] => none
  | 0x30 :: x :: rest =>
    if Bytes.lowerByte x == 'x'.toUInt8 then
      if !rest.isEmpty && rest.all Bytes.isHexDigit then some (Numeral.value 16 rest) else none
    else if (x :: rest).all (fun b => 0x30 ≤ b && b ≤ 0x37) then some (Numeral.value 8 (x :: rest))
    else none
  | s => Numeral.decimal? s

/-- The number that parts make up in so many octets: each part but the last is one octet, and the
last fills what is left. -/
def ofParts? : Nat → List Nat → Option Nat
  | 0, _ => none
  | _, [] => none
  | left + 1, [last] => if last < 1 <<< (8 * (left + 1)) then some last else none
  | left + 1, part :: rest =>
    if part < 256 then (ofParts? left rest).map ((part <<< (8 * left)) + ·) else none

/-- The address that one to four parts in any base name. -/
def ofNumeric? (s : Bytes) : Option Ipv4 := do
  let parts ← (Bytes.splitOn Mark.dot s).mapM part?
  let n ← ofParts? 4 parts
  return ⟨BitVec.ofNat 32 n⟩

end Ipv4

end FeedIntake
