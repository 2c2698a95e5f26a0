import FeedIntake.Address.Ipv6

/-!
Addresses of either family, and which of them are public. An address is public unless a listed block
holds it; an IPv6 address that carries an IPv4 address is judged by the address it carries.
-/
namespace FeedIntake

/-- The addresses that agree with `network` in the first `length` of `width` bits. -/
structure Block (width : Nat) where
  network : BitVec width
  length : Nat
  deriving DecidableEq, Repr

def Block.holds {width : Nat} (block : Block width) (bits : BitVec width) : Bool :=
  bits >>> (width - block.length) == block.network >>> (width - block.length)

def Block.v4 (a b c d length : Nat) : Block 32 := ⟨(Ipv4.ofOctets a b c d).bits, length⟩

/-- A block of IPv6 addresses by its first groups; the others are zero. -/
def Block.v6 (groups : List Nat) (length : Nat) : Block 128 :=
  ⟨(Ipv6.ofGroups (groups ++ List.replicate (8 - groups.length) 0)).bits, length⟩

namespace Ipv4

/-- The blocks of addresses that no host on the public Internet has: this network, private use,
shared by carriers, loopback, link-local, private use, protocol assignments, documentation, relays
to IPv6, private use, benchmarks, documentation twice, multicast, and the reserved rest with
broadcast. -/
def nonPublicBlocks : List (Block 32) := [
  .v4 0 0 0 0 8,
  .v4 10 0 0 0 8,
  .v4 100 64 0 0 10,
  .v4 127 0 0 0 8,
  .v4 169 254 0 0 16,
  .v4 172 16 0 0 12,
  .v4 192 0 0 0 24,
  .v4 192 0 2 0 24,
  .v4 192 88 99 0 24,
  .v4 192 168 0 0 16,
  .v4 198 18 0 0 15,
  .v4 198 51 100 0 24,
  .v4 203 0 113 0 24,
  .v4 224 0 0 0 4,
  .v4 240 0 0 0 4]

def isNonPublic (address : Ipv4) : Bool := nonPublicBlocks.any (·.holds address.bits)

end Ipv4

namespace Ipv6

/-- The blocks of addresses that are never public: unspecified and loopback, unique local,
link-local, site-local, multicast, documentation, and discard only. -/
def nonPublicBlocks : List (Block 128) := [
  .v6 [] 127,
  .v6 [0xFC00] 7,
  .v6 [0xFE80] 10,
  .v6 [0xFEC0] 10,
  .v6 [0xFF00] 8,
  .v6 [0x2001, 0xDB8] 32,
  .v6 [0x100] 64]

/-- The blocks whose addresses carry an IPv4 address in the last 32 bits: compatible, mapped and
NAT64 addresses. -/
def carrierBlocks : List (Block 128) :=
  [.v6 [] 96, .v6 [0, 0, 0, 0, 0, 0xFFFF] 96, .v6 [0x64, 0xFF9B] 96]

def carried? (address : Ipv6) : Option Ipv4 :=
  if carrierBlocks.any (·.holds address.bits) then some address.low else none

/-- Whether the address, or the IPv4 address it carries, is not public. -/
def isNonPublic (address : Ipv6) : Bool :=
  nonPublicBlocks.any (·.holds address.bits) || address.carried?.any Ipv4.isNonPublic

end Ipv6

inductive Address where
  | v4 (address : Ipv4)
  | v6 (address : Ipv6)
  deriving DecidableEq, Repr

namespace Address

def isNonPublic : Address → Bool
  | .v4 address => address.isNonPublic
  | .v6 address => address.isNonPublic

def render : Address → Bytes
  | .v4 address => address.render
  | .v6 address => address.render

/-- The address that a text names up to its first zero byte; IPv4 only in the canonical form. -/
def ofText? (s : Bytes) : Option Address :=
  match Ipv4.ofDotted? (Bytes.untilNul s) with
  | some address => some (.v4 address)
  | none => (Ipv6.ofText? (Bytes.untilNul s)).map .v6

/-- An IPv6 address without the zone behind a percent sign: the number of a network interface, which
says how to reach the address and is no part of it. -/
def withoutZone? (s : Bytes) : Option Bytes :=
  match Bytes.cut? Mark.percent s with
  | none => some s
  | some (address, zone) =>
    if (Numeral.decimal? zone).any (· ≤ 0xFFFFFFFF) then some address else none

/-- The address that a text names, with every numeric spelling of IPv4 and with zones in IPv6. -/
def ofNumeric? (s : Bytes) : Option Address :=
  match Ipv4.ofNumeric? (Bytes.untilNul s) with
  | some address => some (.v4 address)
  | none => ((withoutZone? (Bytes.untilNul s)).bind Ipv6.ofText?).map .v6

def isText (s : Bytes) : Bool := (ofText? s).isSome

/-- Whether a text names no address that is known to be public. -/
def isNonPublicText (s : Bytes) : Bool := (ofText? s).all isNonPublic

end Address

end FeedIntake
