import Mathlib.Algebra.Group.Nat.Defs
import FeedIntake.Address.Basic

/-!
Blocks of addresses as intervals of numbers. An aligned block holds the addresses from its network
on up to the last one that agrees with it in the bits of its length. Main statements: which IPv4
addresses are not public, and which IPv4 address an IPv6 address carries, both in numbers.
-/
namespace FeedIntake

namespace Block

variable {width : Nat} (block : Block width)

/-- An address lies between the network and the last address that the length leaves room for. -/
def Spans (bits : BitVec width) : Prop :=
  block.network.toNat ≤ bits.toNat ∧
    bits.toNat < block.network.toNat + 2 ^ (width - block.length)

instance (bits : BitVec width) : Decidable (block.Spans bits) :=
  inferInstanceAs (Decidable (_ ∧ _))

/-- The bits of the network behind its length are zero. -/
def IsAligned : Prop := 2 ^ (width - block.length) ∣ block.network.toNat

instance : Decidable block.IsAligned := inferInstanceAs (Decidable (_ ∣ _))

theorem holds_iff_spans (aligned : block.IsAligned) (bits : BitVec width) :
    block.holds bits = true ↔ block.Spans bits := by
  obtain ⟨count, network⟩ := aligned
  have some : 0 < 2 ^ (width - block.length) := Nat.two_pow_pos _
  rw [holds, beq_iff_eq, ← BitVec.toNat_inj, BitVec.toNat_ushiftRight, BitVec.toNat_ushiftRight,
    Nat.shiftRight_eq_div_pow, Nat.shiftRight_eq_div_pow, Spans, network,
    Nat.mul_div_cancel_left _ some, Nat.div_eq_iff some, Nat.mul_comm count]
  omega

theorem any_holds_iff (blocks : List (Block width)) (aligned : ∀ block ∈ blocks, block.IsAligned)
    (bits : BitVec width) :
    blocks.any (·.holds bits) = true ↔ ∃ block ∈ blocks, block.Spans bits := by
  rw [List.any_eq_true]
  refine exists_congr fun block => and_congr_right fun listed => ?_
  exact block.holds_iff_spans (aligned block listed) bits

end Block

namespace Ipv4

theorem isAligned_of_mem : ∀ block ∈ nonPublicBlocks, block.IsAligned := by decide +kernel

theorem isNonPublic_iff (address : Ipv4) :
    address.isNonPublic = true ↔ ∃ block ∈ nonPublicBlocks, block.Spans address.bits :=
  Block.any_holds_iff nonPublicBlocks isAligned_of_mem address.bits

end Ipv4

namespace Ipv6

theorem isAligned_of_mem_nonPublicBlocks : ∀ block ∈ nonPublicBlocks, block.IsAligned := by
  decide +kernel

theorem isAligned_of_mem_carrierBlocks : ∀ block ∈ carrierBlocks, block.IsAligned := by
  decide +kernel

/-- An address is the one with this IPv4 address behind the first 96 bits of a carrier block. -/
def Carries (address : Ipv6) (carried : Ipv4) : Prop :=
  ∃ block ∈ carrierBlocks, address.bits.toNat = block.network.toNat + carried.bits.toNat

theorem carried?_eq_some_iff (address : Ipv6) (carried : Ipv4) :
    address.carried? = some carried ↔ address.Carries carried := by
  have room : ∀ block ∈ carrierBlocks,
      2 ^ (128 - block.length) = 2 ^ 32 ∧ block.network.toNat % 2 ^ 32 = 0 := by decide +kernel
  have low : address.low.bits.toNat = address.bits.toNat % 2 ^ 32 := BitVec.toNat_ofNat _ _
  have within := Block.any_holds_iff carrierBlocks isAligned_of_mem_carrierBlocks address.bits
  rw [carried?, Option.ite_none_right_eq_some, within]
  constructor
  · rintro ⟨⟨block, listed, first, last⟩, same⟩
    obtain ⟨width, aligned⟩ := room block listed
    refine ⟨block, listed, ?_⟩
    rw [← Option.some.inj same, low]
    omega
  · rintro ⟨block, listed, sum⟩
    obtain ⟨width, aligned⟩ := room block listed
    have bound := carried.bits.isLt
    have same : address.low.bits = carried.bits := BitVec.eq_of_toNat_eq (by omega)
    exact ⟨⟨block, listed, by omega, by omega⟩, congrArg (fun bits => some (Ipv4.mk bits)) same⟩

theorem isNonPublic_eq_false_iff (address : Ipv6) :
    address.isNonPublic = false ↔
      (¬ ∃ block ∈ nonPublicBlocks, block.Spans address.bits) ∧
      ∀ carried, address.Carries carried → carried.isNonPublic = false := by
  rw [isNonPublic, Bool.or_eq_false_iff, ← Bool.not_eq_true (nonPublicBlocks.any _),
    Block.any_holds_iff nonPublicBlocks isAligned_of_mem_nonPublicBlocks]
  refine and_congr_right fun _ => ?_
  simp only [← carried?_eq_some_iff]
  cases address.carried? <;> simp

end Ipv6

theorem Address.isNonPublicText_eq (s : Bytes) (address : Address)
    (read : ofText? s = some address) : isNonPublicText s = address.isNonPublic := by
  rw [isNonPublicText, read, Option.all_some]

end FeedIntake
