import FeedIntake.Address.Ipv4

/-!
IPv6 addresses and their texts: eight groups of up to four hexadecimal digits, where `::` stands
once for any number of zero groups and a dotted IPv4 address may stand for the last two groups.
-/
namespace FeedIntake

/-- An IPv6 address: 128 bits, the first group on top. -/
structure Ipv6 where
  bits : BitVec 128
  deriving DecidableEq, Repr

namespace Ipv6

/-- The address with these groups, each below 65536, the first on top. -/
def ofGroups (groups : List Nat) : Ipv6 :=
  ⟨BitVec.ofNat 128 (groups.foldl (fun n group => n * 0x10000 + group) 0)⟩

def groups (address : Ipv6) : List Nat :=
  (List.range 8).map fun i => (address.bits.extractLsb' (16 * (7 - i)) 16).toNat

def low (address : Ipv6) : Ipv4 := ⟨BitVec.ofNat 32 address.bits.toNat⟩

/-- A group of one to four hexadecimal digits. -/
def group? (s : Bytes) : Option Nat :=
  if !s.isEmpty && s.length ≤ 4 && s.all Bytes.isHexDigit then some (Numeral.value 16 s) else none

/-- Two groups in the dotted form. -/
def dotted? (s : Bytes) : Option (List Nat) :=
  (Ipv4.ofDotted? s).map fun address =>
    [address.bits.toNat / 0x10000, address.bits.toNat % 0x10000]

/-- Groups at the end of an address, where the last two may be dotted. -/
def lastGroups? : List Bytes → Option (List Nat)
  | [] => some []
  | [last] =>
    match group? last with
    | some group => some [group]
    | none => dotted? last
  | piece :: rest => do return (← group? piece) :: (← lastGroups? rest)

/-- The pieces between colons; no text has none. -/
def pieces (s : Bytes) : List Bytes := if s.isEmpty then [] else Bytes.splitOn Mark.colon s

def ofText? (s : Bytes) : Option Ipv6 :=
  match Bytes.breakOn? (Bytes.ofString "::") s with
  | none => do
    let groups ← lastGroups? (pieces s)
    if groups.length = 8 then some (ofGroups groups) else none
  | some (front, back) => do
    let front ← (pieces front).mapM group?
    let back ← lastGroups? (pieces back)
    let written := front.length + back.length
    if written ≤ 7 then some (ofGroups (front ++ List.replicate (8 - written) 0 ++ back)) else none

def zerosFrom (groups : List Nat) (i : Nat) : Nat := ((groups.drop i).takeWhile (· == 0)).length

/-- The first of the longest runs of zero groups, by its position and length. -/
def longestZeros (groups : List Nat) : Nat × Nat :=
  (List.range 8).foldl
    (fun best i => if best.2 < zerosFrom groups i then (i, zerosFrom groups i) else best) (0, 0)

def renderGroups (groups : List Nat) : Bytes :=
  Bytes.join Mark.colon (groups.map (Numeral.digits 16))

/-- The shortest text: the longest run of two or more zero groups becomes `::`, and an address whose
first 96 bits mark an IPv4 address ends in the dotted form. -/
def render (address : Ipv6) : Bytes :=
  let groups := address.groups
  let (start, count) := longestZeros groups
  if count < 2 then renderGroups groups
  else if start = 0 ∧ count = 6 then Bytes.ofString "::" ++ address.low.render
  else if start = 0 ∧ count = 5 ∧ groups[5]? = some 0xFFFF then
    Bytes.ofString "::ffff:" ++ address.low.render
  else
    renderGroups (groups.take start) ++ Bytes.ofString "::"
      ++ renderGroups (groups.drop (start + count))

end Ipv6

end FeedIntake
