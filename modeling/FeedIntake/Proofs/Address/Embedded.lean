import FeedIntake.Proofs.Address.Groups
import FeedIntake.Proofs.Address.Reserved

/-!
IPv4 addresses in IPv6 addresses. Main statement: an IPv6 address that carries an IPv4 address is
classified as that address is, however it is spelt, and what spells no address of either family is
classified as not public.
-/
namespace FeedIntake

open Bytes

namespace Ipv4

/-- The dotted form of four octets. -/
def dotted (a b c d : UInt8) : Bytes :=
  join Mark.dot ([a, b, c, d].map fun octet => Numeral.decimal octet.toNat)

/-- The address with four octets. -/
def ofBytes (a b c d : UInt8) : Ipv4 := ofOctets a.toNat b.toNat c.toNat d.toNat

variable (a b c d : UInt8)

theorem toNat_ofBytes :
    (ofBytes a b c d).bits.toNat = ((a.toNat * 256 + b.toNat) * 256 + c.toNat) * 256 + d.toNat :=
  toNat_ofOctets _ _ _ _ a.toNat_lt b.toNat_lt c.toNat_lt d.toNat_lt

theorem halves_ofBytes :
    (ofBytes a b c d).halves = [a.toNat * 256 + b.toNat, c.toNat * 256 + d.toNat] := by
  have third := c.toNat_lt
  have fourth := d.toNat_lt
  simp only [halves, toNat_ofBytes, List.cons.injEq, and_true]
  omega

theorem render_ofBytes : (ofBytes a b c d).render = dotted a b c d := by
  rw [render, ofBytes, octets_ofOctets _ _ _ _ a.toNat_lt b.toNat_lt c.toNat_lt d.toNat_lt]
  rfl

theorem exists_ofBytes (address : Ipv4) : ∃ a b c d, address = ofBytes a b c d := by
  have octet (n : Nat) : (UInt8.ofNat (n % 256)).toNat = n % 256 := by simp
  let n := address.bits.toNat
  refine ⟨.ofNat (n / 0x1000000 % 256), .ofNat (n / 0x10000 % 256), .ofNat (n / 0x100 % 256),
    .ofNat (n % 256), ?_⟩
  rw [ofBytes, octet, octet, octet, octet]
  exact (ofOctets_octets address _ _ _ _ rfl).symm

end Ipv4

namespace Ipv6

/-- The groups in front of an IPv4 address in a compatible, a mapped and a NAT64 address. -/
def carrierGroups : List (List Nat) :=
  [[0, 0, 0, 0, 0, 0], [0, 0, 0, 0, 0, 0xFFFF], [0x64, 0xFF9B, 0, 0, 0, 0]]

theorem carries_ofGroups (front : List Nat) (listed : front ∈ carrierGroups) (address : Ipv4) :
    (ofGroups (front ++ address.halves)).Carries address := by
  have networks : ∀ front ∈ carrierGroups, ∃ block ∈ carrierBlocks, block.network.toNat =
      front.foldl (fun n group => n * 0x10000 + group) 0 * 2 ^ 32 := by decide +kernel
  obtain ⟨block, carrier, network⟩ := networks front listed
  have room := block.network.isLt
  have bound := address.bits.isLt
  refine ⟨block, carrier, ?_⟩
  rw [ofGroups, List.foldl_append, BitVec.toNat_ofNat, Ipv4.halves, List.foldl_cons,
    List.foldl_cons, List.foldl_nil]
  omega

/-- No listed block makes a difference to an address that carries another: only the first two
addresses are in one, and what they carry is not public either. -/
theorem isNonPublic_of_carries (address : Ipv6) (carried : Ipv4)
    (carries : address.Carries carried) : address.isNonPublic = carried.isNonPublic := by
  rw [isNonPublic, (carried?_eq_some_iff address carried).2 carries, Option.any_some]
  cases found : nonPublicBlocks.any (·.holds address.bits) with
  | false => rfl
  | true =>
    have listed := (spans_nonPublicBlocks_iff address.bits).1
      ((Block.any_holds_iff _ isAligned_of_mem_nonPublicBlocks _).1 found)
    have networks : ∀ block ∈ carrierBlocks, block.network.toNat = 0 ∨
        block.network.toNat = 0xFFFF * 2 ^ 32 ∨ block.network.toNat = 0x64FF9B * 2 ^ 96 := by
      decide +kernel
    obtain ⟨block, carrier, sum⟩ := carries
    have network := networks block carrier
    have bound := carried.bits.isLt
    have small : carried.bits.toNat < 2 := by omega
    have zero : (Block.v4 0 0 0 0 8).network.toNat = 0 := by decide
    have length : (Block.v4 0 0 0 0 8).length = 8 := rfl
    refine ((Ipv4.isNonPublic_iff carried).2 ⟨.v4 0 0 0 0 8, by decide, ?_⟩).symm
    rw [Block.Spans, zero, length]
    omega

/-- The spellings that end in the dotted form and leave out as many zeros as possible. -/
theorem isSpelling_append_dotted (a b c d : UInt8) :
    ∀ start ∈ [ofString "::ffff:", ofString "::", ofString "64:ff9b::"], ∃ front ∈ carrierGroups,
      IsSpelling (front ++ [a.toNat * 256 + b.toNat, c.toNat * 256 + d.toNat])
        (start ++ Ipv4.dotted a b c d) := by
  have last := ArePieces.dotted (.ofBytes a b c d)
  rw [Ipv4.halves_ofBytes, Ipv4.render_ofBytes] at last
  have group (n : Nat) (digits : Bytes) (read : group? digits = some n) : IsGroup n digits :=
    (group?_eq_some_iff digits n).1 read
  simp only [List.forall_mem_cons, List.not_mem_nil, false_imp_iff, implies_true, and_true]
  refine ⟨⟨[0, 0, 0, 0, 0, 0xFFFF], by decide, ?_⟩, ⟨[0, 0, 0, 0, 0, 0], by decide, ?_⟩,
    [0x64, 0xFF9B, 0, 0, 0, 0], by decide, ?_⟩
  · have mapped := ArePieces.group _ _ _ _ (group 0xFFFF (ofString "ffff") (by decide)) last
    have spelling := IsSpelling.short [] _ [] _ 5 .nil mapped (by decide) rfl
    rwa [join_cons_cons, join_singleton] at spelling
  · have spelling := IsSpelling.short [] _ [] _ 6 .nil last (by decide) rfl
    rwa [join_singleton] at spelling
  · have translated := List.Forall₂.cons (group 0x64 (ofString "64") (by decide))
      (.cons (group 0xFF9B (ofString "ff9b") (by decide)) .nil)
    have spelling := IsSpelling.short _ _ _ _ 4 translated last (by decide) rfl
    rwa [join_cons_cons, join_singleton, join_singleton] at spelling

end Ipv6

namespace Address

theorem isNonPublicText_dotted (a b c d : UInt8) :
    isNonPublicText (Ipv4.dotted a b c d) = (Ipv4.ofBytes a b c d).isNonPublic := by
  rw [← Ipv4.render_ofBytes]
  exact isNonPublicText_eq _ _ (Ipv4.ofText?_render _)

theorem isNonPublicText_of_isSpelling (front : List Nat) (listed : front ∈ Ipv6.carrierGroups)
    (a b c d : UInt8) (s : Bytes) (spelling : Ipv6.IsSpelling
      (front ++ [a.toNat * 256 + b.toNat, c.toNat * 256 + d.toNat]) (untilNul s)) :
    isNonPublicText s = isNonPublicText (Ipv4.dotted a b c d) := by
  have read := (Ipv6.ofText?_eq_some_iff _ _).2 ⟨_, spelling, rfl⟩
  have carries := Ipv6.carries_ofGroups front listed (.ofBytes a b c d)
  rw [Ipv4.halves_ofBytes] at carries
  rw [isNonPublicText_eq _ _ (ofText?_of_ipv6 s _ read), isNonPublicText_dotted]
  exact Ipv6.isNonPublic_of_carries _ _ carries

theorem untilNul_append_dotted (start : Bytes) (whole : 0 ∉ start) (a b c d : UInt8) :
    untilNul (start ++ Ipv4.dotted a b c d) = start ++ Ipv4.dotted a b c d := by
  have rest := (Ipv4.ofBytes a b c d).nul_not_mem_render
  rw [Ipv4.render_ofBytes] at rest
  exact untilNul_of_not_mem _ fun member => (List.mem_append.1 member).elim whole rest

/-- What spells no address is not public. -/
theorem isNonPublicText_of_unspelt (s : Bytes)
    (undotted : ∀ a b c d, untilNul s ≠ Ipv4.dotted a b c d)
    (ungrouped : ∀ groups, ¬ Ipv6.IsSpelling groups (untilNul s)) : isNonPublicText s = true := by
  have unread : Ipv4.ofDotted? (untilNul s) = none := by
    refine Option.eq_none_iff_forall_ne_some.2 fun address read => ?_
    obtain ⟨a, b, c, d, rfl⟩ := address.exists_ofBytes
    rw [Ipv4.ofDotted?_eq_some_iff, Ipv4.render_ofBytes] at read
    exact undotted a b c d read
  have unread' : Ipv6.ofText? (untilNul s) = none := by
    refine Option.eq_none_iff_forall_ne_some.2 fun address read => ?_
    obtain ⟨groups, spelling, -⟩ := (Ipv6.ofText?_eq_some_iff _ _).1 read
    exact ungrouped groups spelling
  rw [isNonPublicText, ofText?, unread, unread']
  rfl

/-- An IPv4 address is not public exactly if a listed block holds it, and so are the IPv6 addresses
that carry it, in every spelling; and what spells no address is not public. -/
theorem embedded_keeps_verdict :
    (∀ a b c d : UInt8,
      (isNonPublicText (Ipv4.dotted a b c d) = true ↔
        ∃ block ∈ Ipv4.nonPublicBlocks, block.Spans (Ipv4.ofBytes a b c d).bits) ∧
      (∀ start ∈ [ofString "::ffff:", ofString "::", ofString "64:ff9b::"],
        isNonPublicText (start ++ Ipv4.dotted a b c d) =
          isNonPublicText (Ipv4.dotted a b c d)) ∧
      ∀ front ∈ Ipv6.carrierGroups, ∀ s, Ipv6.IsSpelling
          (front ++ [a.toNat * 256 + b.toNat, c.toNat * 256 + d.toNat]) (untilNul s) →
        isNonPublicText s = isNonPublicText (Ipv4.dotted a b c d)) ∧
    ∀ s, (∀ a b c d, untilNul s ≠ Ipv4.dotted a b c d) →
      (∀ groups, ¬ Ipv6.IsSpelling groups (untilNul s)) → isNonPublicText s = true := by
  refine ⟨fun a b c d => ⟨?_, fun start listed => ?_, fun front listed s spelling => ?_⟩,
    isNonPublicText_of_unspelt⟩
  · rw [isNonPublicText_dotted, Ipv4.isNonPublic_iff]
  · obtain ⟨front, carrier, spelling⟩ := Ipv6.isSpelling_append_dotted a b c d start listed
    have whole : ∀ start ∈ [ofString "::ffff:", ofString "::", ofString "64:ff9b::"],
        0 ∉ start := by decide
    rw [← untilNul_append_dotted start (whole start listed)] at spelling
    exact isNonPublicText_of_isSpelling front carrier a b c d _ spelling
  · exact isNonPublicText_of_isSpelling front listed a b c d s spelling

/-- The loopback address of IPv4, mapped and written in hexadecimal digits without leaving out a
zero; and a text that names it to lenient readers only. -/
theorem embedded_keeps_verdict_loopback :
    Ipv6.IsSpelling ([0, 0, 0, 0, 0, 0xFFFF] ++ [0x7F00, 0x0001])
        (untilNul (ofString "0:0:0:0:0:FFFF:7f00:0001")) ∧
      isNonPublicText (ofString "0:0:0:0:0:FFFF:7f00:0001") =
        isNonPublicText (Ipv4.dotted 127 0 0 1) ∧
      (∀ a b c d, untilNul (ofString "127.1") ≠ Ipv4.dotted a b c d) ∧
      (∀ groups, ¬ Ipv6.IsSpelling groups (untilNul (ofString "127.1"))) ∧
      isNonPublicText (ofString "127.1") = true := by
  have spelling : Ipv6.IsSpelling ([0, 0, 0, 0, 0, 0xFFFF] ++ [0x7F00, 0x0001])
      (untilNul (ofString "0:0:0:0:0:FFFF:7f00:0001")) := by
    have written := (Ipv6.lastGroups?_eq_some_iff
      (splitOn Mark.colon (ofString "0:0:0:0:0:FFFF:7f00:0001"))
      ([0, 0, 0, 0, 0, 0xFFFF] ++ [0x7F00, 0x0001])).1 (by decide +kernel)
    have whole := Ipv6.IsSpelling.full _ _ written rfl
    rwa [join_splitOn, ← untilNul_of_not_mem (ofString _) (by decide)] at whole
  have undotted : ∀ a b c d, untilNul (ofString "127.1") ≠ Ipv4.dotted a b c d := by
    intro a b c d same
    have read := (Ipv4.ofBytes a b c d).ofDotted?_render
    have none : Ipv4.ofDotted? (untilNul (ofString "127.1")) = none := by decide +kernel
    rw [Ipv4.render_ofBytes, ← same, none] at read
    cases read
  have ungrouped : ∀ groups, ¬ Ipv6.IsSpelling groups (untilNul (ofString "127.1")) := by
    intro groups spelling
    have read := (Ipv6.ofText?_eq_some_iff _ _).2 ⟨groups, spelling, rfl⟩
    have none : Ipv6.ofText? (untilNul (ofString "127.1")) = none := by decide +kernel
    rw [none] at read
    cases read
  exact ⟨spelling, ((embedded_keeps_verdict.1 127 0 0 1).2.2 _ (by decide) _ spelling), undotted,
    ungrouped, embedded_keeps_verdict.2 _ undotted ungrouped⟩

end Address

end FeedIntake
