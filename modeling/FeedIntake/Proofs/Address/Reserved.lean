import FeedIntake.Proofs.Address.Block
import FeedIntake.Proofs.Address.Spelling

/-!
Public IPv6 addresses. Main statement: an address that is classified as public is a global unicast
address or carries a public IPv4 address, unless it lies in a reserved block of which no listed
block holds it.
-/
namespace FeedIntake

namespace Ipv6

/-- The block that addresses for global unicast are from. -/
def globalUnicast : Block 128 := .v6 [0x2000] 3

/-- The block of addresses that are for discard only. -/
def discardOnly : Block 128 := .v6 [0x100] 64

/-- The blocks outside of global unicast that are reserved, as the address space is divided: all but
unique local, link-local, site-local and multicast addresses. -/
def reservedBlocks : List (Block 128) := [
  .v6 [] 8,
  .v6 [0x100] 8,
  .v6 [0x200] 7,
  .v6 [0x400] 6,
  .v6 [0x800] 5,
  .v6 [0x1000] 4,
  .v6 [0x4000] 3,
  .v6 [0x6000] 3,
  .v6 [0x8000] 3,
  .v6 [0xA000] 3,
  .v6 [0xC000] 3,
  .v6 [0xE000] 4,
  .v6 [0xF000] 5,
  .v6 [0xF800] 6,
  .v6 [0xFE00] 9]

/-- A reserved address that is neither for discard only nor carries an IPv4 address. -/
structure IsUnlisted (address : Ipv6) : Prop where
  reserved : ∃ block ∈ reservedBlocks, block.Spans address.bits
  kept : ¬ discardOnly.Spans address.bits
  bare : ∀ carried, ¬ address.Carries carried

/-- An address that carries an IPv4 address whose text is classified as public. -/
def CarriesPublic (address : Ipv6) : Prop :=
  ∃ carried, address.Carries carried ∧ Address.isNonPublicText carried.render = false

variable (bits : BitVec 128)

theorem spans_globalUnicast_iff :
    globalUnicast.Spans bits ↔
      0x2000 * 2 ^ 112 ≤ bits.toNat ∧ bits.toNat < 0x4000 * 2 ^ 112 := by
  simp [globalUnicast, Block.v6, Block.Spans, ofGroups]

theorem spans_discardOnly_iff :
    discardOnly.Spans bits ↔
      0x100 * 2 ^ 112 ≤ bits.toNat ∧ bits.toNat < 0x100 * 2 ^ 112 + 2 ^ 64 := by
  simp [discardOnly, Block.v6, Block.Spans, ofGroups]

theorem spans_reservedBlocks_iff :
    (∃ block ∈ reservedBlocks, block.Spans bits) ↔
      bits.toNat < 0x2000 * 2 ^ 112 ∨
      (0x4000 * 2 ^ 112 ≤ bits.toNat ∧ bits.toNat < 0xFC00 * 2 ^ 112) ∨
      (0xFE00 * 2 ^ 112 ≤ bits.toNat ∧ bits.toNat < 0xFE80 * 2 ^ 112) := by
  simp [reservedBlocks, Block.v6, Block.Spans, ofGroups]
  omega

/-- The listed blocks in order: the first two addresses, discard only, documentation, unique local,
and everything from link-local addresses on. -/
theorem spans_nonPublicBlocks_iff :
    (∃ block ∈ nonPublicBlocks, block.Spans bits) ↔
      bits.toNat < 2 ∨
      (0x100 * 2 ^ 112 ≤ bits.toNat ∧ bits.toNat < 0x100 * 2 ^ 112 + 2 ^ 64) ∨
      (0x20010DB8 * 2 ^ 96 ≤ bits.toNat ∧ bits.toNat < 0x20010DB9 * 2 ^ 96) ∨
      (0xFC00 * 2 ^ 112 ≤ bits.toNat ∧ bits.toNat < 0xFE00 * 2 ^ 112) ∨
      0xFE80 * 2 ^ 112 ≤ bits.toNat := by
  have bound := bits.isLt
  simp [nonPublicBlocks, Block.v6, Block.Spans, ofGroups]
  omega

/-- The unspecified and the loopback address are compatible addresses, too. -/
theorem exists_carries_of_lt (address : Ipv6) (small : address.bits.toNat < 2) :
    ∃ carried, address.Carries carried := by
  have network : (Block.v6 [] 96).network.toNat = 0 := by decide
  refine ⟨⟨BitVec.ofNat 32 address.bits.toNat⟩, .v6 [] 96, List.mem_cons_self, ?_⟩
  rw [network, BitVec.toNat_ofNat]
  omega

/-- An unlisted address is in no listed block, so it is public without being meant to be. -/
theorem IsUnlisted.isNonPublic_eq_false {address : Ipv6} (unlisted : address.IsUnlisted) :
    address.isNonPublic = false := by
  have reserved := (spans_reservedBlocks_iff address.bits).1 unlisted.reserved
  refine address.isNonPublic_eq_false_iff.2 ⟨fun listed => ?_, fun carried carries =>
    absurd carries (unlisted.bare carried)⟩
  rcases (spans_nonPublicBlocks_iff address.bits).1 listed with small | discarded | others
  · obtain ⟨carried, carries⟩ := address.exists_carries_of_lt small
    exact unlisted.bare carried carries
  · exact unlisted.kept ((spans_discardOnly_iff address.bits).2 discarded)
  · omega

theorem IsUnlisted.not_globalUnicast {address : Ipv6} (unlisted : address.IsUnlisted) :
    ¬ globalUnicast.Spans address.bits := by
  have reserved := (spans_reservedBlocks_iff address.bits).1 unlisted.reserved
  rw [spans_globalUnicast_iff]
  omega

/-- Outside of global unicast every address is reserved, unless a listed block holds it. -/
theorem reserved_of_not_listed (outside : ¬ globalUnicast.Spans bits)
    (free : ¬ ∃ block ∈ nonPublicBlocks, block.Spans bits) :
    (∃ block ∈ reservedBlocks, block.Spans bits) ∧ ¬ discardOnly.Spans bits := by
  rw [spans_globalUnicast_iff] at outside
  rw [spans_nonPublicBlocks_iff] at free
  rw [spans_reservedBlocks_iff, spans_discardOnly_iff]
  omega

/-- That a text is classified as public means that it names a global unicast address or one that
carries a public IPv4 address, for all texts but those of unlisted addresses. -/
theorem public_means_unicast_iff (s : Bytes) (address : Ipv6)
    (read : ofText? (Bytes.untilNul s) = some address) :
    (Address.isNonPublicText s = false →
        globalUnicast.Spans address.bits ∨ address.CarriesPublic) ↔
      ¬ address.IsUnlisted := by
  have judged : Address.isNonPublicText s = address.isNonPublic :=
    Address.isNonPublicText_eq s _ (Address.ofText?_of_ipv6 s address read)
  rw [judged]
  constructor
  · intro means unlisted
    rcases means unlisted.isNonPublic_eq_false with unicast | ⟨carried, carries, -⟩
    · exact unlisted.not_globalUnicast unicast
    · exact unlisted.bare carried carries
  · intro listed isPublic
    obtain ⟨free, carriers⟩ := address.isNonPublic_eq_false_iff.1 isPublic
    refine Classical.or_iff_not_imp_left.2 fun outside => ?_
    obtain ⟨reserved, kept⟩ := reserved_of_not_listed address.bits outside free
    by_contra bare
    refine listed ⟨reserved, kept, fun carried carries => bare ⟨carried, carries, ?_⟩⟩
    rw [Address.isNonPublicText_eq _ _ carried.ofText?_render]
    exact carriers carried carries

/-- The address of a public host behind a translator lies in a reserved block and is public. -/
theorem public_means_unicast_translated :
    Address.isNonPublicText (Bytes.ofString "64:ff9b::8.8.8.8") = false ∧
      (Ipv6.mk 0x0064FF9B000000000000000008080808).CarriesPublic := by
  have carries : (Ipv6.mk 0x0064FF9B000000000000000008080808).Carries ⟨0x08080808⟩ :=
    ⟨.v6 [0x64, 0xFF9B] 96, by decide, by decide⟩
  have isPublic : Address.isNonPublicText (Bytes.ofString "64:ff9b::8.8.8.8") = false := by
    decide +kernel
  have means := (public_means_unicast_iff (Bytes.ofString "64:ff9b::8.8.8.8")
    ⟨0x0064FF9B000000000000000008080808⟩ (by decide +kernel)).2 fun unlisted =>
      unlisted.bare _ carries
  exact ⟨isPublic, (means isPublic).resolve_left (by decide)⟩

/-- An address of a reserved block that is no global unicast address, carries no IPv4 address and is
public. -/
theorem public_unlisted_address :
    ofText? (Bytes.ofString "4000::1") = some ⟨0x40000000000000000000000000000001⟩ ∧
      Address.isNonPublicText (Bytes.ofString "4000::1") = false ∧
      (∃ block ∈ reservedBlocks, block.Spans 0x40000000000000000000000000000001) ∧
      ¬ globalUnicast.Spans 0x40000000000000000000000000000001 ∧
      ¬ (Ipv6.mk 0x40000000000000000000000000000001).CarriesPublic := by
  refine ⟨by decide +kernel, by decide +kernel, by decide +kernel, by decide +kernel, ?_⟩
  rintro ⟨carried, carries, -⟩
  have bare : (Ipv6.mk 0x40000000000000000000000000000001).carried? = none := by decide +kernel
  have found := (carried?_eq_some_iff _ _).2 carries
  rw [bare] at found
  contradiction

end Ipv6

end FeedIntake
