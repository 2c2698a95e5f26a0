import Mathlib.Tactic.ByContra
import FeedIntake.Address.Basic
import FeedIntake.Proofs.Bytes.Search

/-!
Which bytes tell the two families of addresses apart in texts: every text of an IPv6 address has a
colon, and the dotted form of an IPv4 address has none.
-/
namespace FeedIntake

namespace Ipv4

theorem isDigit_of_octet? (s : Bytes) (n : Nat) (read : octet? s = some n) :
    s.all Bytes.isDigit = true := by
  simp only [octet?, Numeral.decimal?] at read
  by_cases digits : (!s.isEmpty && s.all Bytes.isDigit) = true
  · simp only [Bool.and_eq_true] at digits
    exact digits.2
  · simp [digits] at read

theorem isDigit_or_dot_of_ofDotted? (s : Bytes) (address : Ipv4)
    (read : ofDotted? s = some address) (b : UInt8) (member : b ∈ s) :
    b = Mark.dot ∨ Bytes.isDigit b = true := by
  by_cases dot : b = Mark.dot
  · exact .inl dot
  refine .inr ?_
  unfold ofDotted? at read
  split at read
  · next first second third fourth parts =>
    simp only [Option.bind_eq_bind, Option.bind_eq_some_iff] at read
    obtain ⟨p, atFirst, q, atSecond, r, atThird, t, atFourth, -⟩ := read
    obtain ⟨part, inParts, inPart⟩ := (Bytes.mem_iff_of_splitOn Mark.dot b s dot).1 member
    have digits : part.all Bytes.isDigit = true := by
      simp only [parts, List.mem_cons, List.not_mem_nil, or_false] at inParts
      rcases inParts with rfl | rfl | rfl | rfl
      · exact isDigit_of_octet? _ _ atFirst
      · exact isDigit_of_octet? _ _ atSecond
      · exact isDigit_of_octet? _ _ atThird
      · exact isDigit_of_octet? _ _ atFourth
    exact List.all_eq_true.1 digits b inPart
  · contradiction

theorem not_mem_of_ofDotted? (s : Bytes) (address : Ipv4) (read : ofDotted? s = some address)
    (b : UInt8) (other : b ≠ Mark.dot) (symbol : Bytes.isDigit b = false) : b ∉ s := by
  intro member
  rcases isDigit_or_dot_of_ofDotted? s address read b member with dot | digit
  · exact other dot
  · exact Bool.false_ne_true (symbol.symm.trans digit)

end Ipv4

namespace Ipv6

theorem length_lastGroups?_singleton (s : Bytes) (groups : List Nat)
    (read : lastGroups? [s] = some groups) : groups.length ≤ 2 := by
  simp only [lastGroups?] at read
  split at read
  · simp [← Option.some.inj read]
  · obtain ⟨address, -, rfl⟩ := Option.map_eq_some_iff.1 read
    simp

/-- Without a colon there is one piece, and one piece is two groups at most. -/
theorem colon_mem_of_ofText? (s : Bytes) (address : Ipv6) (read : ofText? s = some address) :
    Mark.colon ∈ s := by
  unfold ofText? at read
  split at read
  · by_contra absent
    simp only [Option.bind_eq_bind, Option.bind_eq_some_iff] at read
    obtain ⟨groups, last, whole⟩ := read
    have few : groups.length ≤ 2 := by
      rw [pieces, Bytes.splitOn_of_not_mem _ _ absent] at last
      split at last
      · simp [← Option.some.inj last]
      · exact length_lastGroups?_singleton s groups last
    split at whole
    · omega
    · contradiction
  · next front back broken =>
    obtain ⟨rest, found, -⟩ := Option.map_eq_some_iff.1 broken
    exact (Bytes.isInfix_of_from? _ _ _ found).subset (by decide)

end Ipv6

namespace Address

theorem mem_of_mem_untilNul (s : Bytes) (b : UInt8) (member : b ∈ Bytes.untilNul s) : b ∈ s :=
  (List.takeWhile_prefix _).subset member

theorem colon_mem_of_ofText?_v6 (s : Bytes) (address : Ipv6)
    (read : ofText? s = some (.v6 address)) : Mark.colon ∈ s := by
  unfold ofText? at read
  split at read
  · cases read
  · obtain ⟨read6, text, same⟩ := Option.map_eq_some_iff.1 read
    exact mem_of_mem_untilNul s _ (Ipv6.colon_mem_of_ofText? _ read6 text)

/-- A text of an IPv6 address is none of an IPv4 address, since it has a colon. -/
theorem ofText?_of_ipv6 (s : Bytes) (address : Ipv6)
    (read : Ipv6.ofText? (Bytes.untilNul s) = some address) : ofText? s = some (.v6 address) := by
  have colon := Ipv6.colon_mem_of_ofText? _ address read
  have undotted : Ipv4.ofDotted? (Bytes.untilNul s) = none := by
    refine Option.eq_none_iff_forall_ne_some.2 fun dotted found => ?_
    exact Ipv4.not_mem_of_ofDotted? _ dotted found Mark.colon (by decide) (by decide) colon
  rw [ofText?, undotted, read]
  rfl

theorem colon_not_mem_of_ofText?_v4 (s : Bytes) (address : Ipv4) (whole : 0 ∉ s)
    (read : ofText? s = some (.v4 address)) : Mark.colon ∉ s := by
  unfold ofText? at read
  rw [Bytes.untilNul_of_not_mem s whole] at read
  split at read
  · next dotted text =>
    exact Ipv4.not_mem_of_ofDotted? s dotted text Mark.colon (by decide) (by decide)
  · obtain ⟨_, -, same⟩ := Option.map_eq_some_iff.1 read
    cases same

end Address

end FeedIntake
