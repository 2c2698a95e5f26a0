import FeedIntake.Address.Ipv6

/-!
The host of a URL. Numeric IPv4 spellings become dotted quads and long IPv6 texts are shortened, so
that equal addresses mostly have equal texts; a name is percent-decoded and refused if it then holds
a byte that would end it or hide something.
-/
namespace FeedIntake

/-- The host of a URL: a name or dotted IPv4 address, or an IPv6 address in brackets. -/
inductive Host where
  | name (text : Bytes)
  | bracketed (text : Bytes) (zone : Option Bytes)
  deriving DecidableEq, Repr

namespace Host

/-- The host without brackets and zone. -/
def text : Host → Bytes
  | name text => text
  | bracketed text _ => text

/-- The host as it stands in a URL, where a percent sign in a name is written encoded. -/
def render : Host → Bytes
  | name text =>
    text.flatMap fun b => if b == Mark.percent then Bytes.ofString "%25" else [b]
  | bracketed text zone =>
    let zone := match zone with
      | some zone => Bytes.ofString "%25" ++ zone
      | none => []
    [Mark.openBracket] ++ text ++ zone ++ [Mark.closeBracket]

/-- Carries bytes over to `decoded`, last first, reading each percent sign with two hexadecimal
digits behind it as the byte it encodes. -/
def percentDecodeOnto (decoded : Bytes) : Bytes → Bytes
  | [] => decoded.reverse
  | [b] => percentDecodeOnto (b :: decoded) []
  | [b, c] => percentDecodeOnto (b :: decoded) [c]
  | b :: c :: d :: rest =>
    if b == Mark.percent then
      match Bytes.hexDigit? c, Bytes.hexDigit? d with
      | some high, some low => percentDecodeOnto ((high * 16 + low).toUInt8 :: decoded) rest
      | _, _ => percentDecodeOnto (b :: decoded) (c :: d :: rest)
    else percentDecodeOnto (b :: decoded) (c :: d :: rest)

/-- The text with every percent-encoded byte decoded. -/
def percentDecode (s : Bytes) : Bytes := percentDecodeOnto [] s

/-- The bytes that no name may hold once it is decoded. -/
def refused : Bytes := Bytes.ofString " \r\n\t/:#?!@\x7b\x7d[]\\$'\"^`*<>=;,+&()"

/-- The most bytes that a zone has. -/
def zoneLimit : Nat := 15

/-- The zone behind a percent sign, up to the closing bracket; the sign may be encoded itself. -/
def zone? (s : Bytes) : Option Bytes :=
  let s := match s with
    | 0x32 :: 0x35 :: b :: rest => if b == Mark.closeBracket then s else b :: rest
    | _ => s
  let zone := (s.take zoneLimit).takeWhile (· != Mark.closeBracket)
  if !zone.isEmpty && s[zone.length]? == some Mark.closeBracket then some zone else none

/-- An IPv6 address: its own text, or the canonical one if that is shorter. -/
def ofIpv6Text? (text : Bytes) (zone : Option Bytes) : Option Host := do
  let address ← Ipv6.ofText? text
  let short := address.render
  return bracketed (if short.length < text.length then short else text) zone

/-- The host that a text with a bracket in front stands for; the last byte counts as the other
bracket unless a zone comes before it. -/
def ofBracketed? (s : Bytes) : Option Host :=
  if s.length < 4 then none
  else
    let inner := s.drop 1
    let text := inner.takeWhile fun b => Bytes.isHexDigit b || b == Mark.colon || b == Mark.dot
    if text.length = s.length - 2 then ofIpv6Text? text none
    else match inner.drop text.length with
      | Mark.percent :: rest => do ofIpv6Text? text (some (← zone? rest))
      | _ => none

/-- The host that a non-empty name stands for. A percent-encoded bracket makes it an address. -/
def ofName? (s : Bytes) : Option Host :=
  let decoded := percentDecode s
  if s.contains Mark.percent && decoded.any (· < 0x20) then none
  else if decoded.head? == some Mark.openBracket then ofBracketed? decoded
  else if decoded.any refused.contains then none
  else some (name decoded)

def ofText? (s : Bytes) : Option Host :=
  match s with
  | [] => none
  | Mark.openBracket :: _ => ofBracketed? s
  | _ =>
    match Ipv4.ofNumeric? s with
    | some address => some (name address.render)
    | none => ofName? s

end Host

end FeedIntake
