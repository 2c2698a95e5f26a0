import FeedIntake.Proofs.Address.Text
import FeedIntake.Proofs.Bytes.Decimal

/-!
Texts of IPv4 addresses. Main statements: the dotted form of an address is read as the address; and
so is every numeric spelling, in one to four parts of any base.
-/
namespace FeedIntake

namespace Ipv4

theorem octet?_decimal : ∀ n < 256, octet? (Numeral.decimal n) = some n := by decide +kernel

/-- An octet is written in one way only. -/
theorem octet?_eq_some_iff (s : Bytes) (n : Nat) :
    octet? s = some n ↔ n < 256 ∧ s = Numeral.decimal n := by
  constructor
  · intro read
    rw [octet?] at read
    split at read
    · contradiction
    · next m whole =>
      obtain ⟨canonical, ⟨⟩⟩ := Option.ite_none_left_eq_some.1 read
      obtain ⟨written, digits, rfl⟩ := (Numeral.decimal?_eq_some_iff s _).1 whole
      simp only [Bool.or_eq_true, Bool.and_eq_true, beq_iff_eq, bne_iff_ne, decide_eq_true_eq,
        not_or, not_and, not_not] at canonical
      obtain ⟨lead, small⟩ := canonical
      exact ⟨by omega, (Numeral.decimal_value s written digits lead).symm⟩
  · rintro ⟨small, rfl⟩
    exact octet?_decimal n small

theorem dot_not_mem_decimal (n : Nat) : Mark.dot ∉ Numeral.decimal n := fun member =>
  absurd (Numeral.isDigit_of_mem_decimal n _ member) (by decide)

theorem ofOctets_octets (address : Ipv4) (a b c d : Nat) (octets : address.octets = [a, b, c, d]) :
    ofOctets a b c d = address := by
  obtain ⟨bits⟩ := address
  simp only [Ipv4.octets, List.cons.injEq] at octets
  have bound := bits.isLt
  rw [ofOctets, Ipv4.mk.injEq]
  apply BitVec.eq_of_toNat_eq
  rw [BitVec.toNat_ofNat]
  omega

theorem ofDotted?_render (address : Ipv4) : ofDotted? address.render = some address := by
  obtain ⟨a, b, c, d, octets⟩ : ∃ a b c d, address.octets = [a, b, c, d] := ⟨_, _, _, _, rfl⟩
  have split : Bytes.splitOn Mark.dot address.render = [a, b, c, d].map Numeral.decimal := by
    rw [render, octets]
    refine Bytes.splitOn_join _ _ (by simp) fun part member => ?_
    obtain ⟨n, -, rfl⟩ := List.mem_map.1 member
    exact dot_not_mem_decimal n
  have whole := ofOctets_octets address a b c d octets
  simp only [Ipv4.octets, List.cons.injEq] at octets
  rw [ofDotted?, split]
  simp [octet?_decimal a (by omega), octet?_decimal b (by omega), octet?_decimal c (by omega),
    octet?_decimal d (by omega), whole]

theorem toNat_ofOctets (a b c d : Nat) (first : a < 256) (second : b < 256) (third : c < 256)
    (fourth : d < 256) :
    (ofOctets a b c d).bits.toNat = ((a * 256 + b) * 256 + c) * 256 + d := by
  rw [ofOctets, BitVec.toNat_ofNat]
  omega

theorem octets_ofOctets (a b c d : Nat) (first : a < 256) (second : b < 256) (third : c < 256)
    (fourth : d < 256) : (ofOctets a b c d).octets = [a, b, c, d] := by
  simp only [octets, toNat_ofOctets a b c d first second third fourth, List.cons.injEq, and_true]
  omega

/-- An address has one dotted form, and no other text is read as the address. -/
theorem ofDotted?_eq_some_iff (s : Bytes) (address : Ipv4) :
    ofDotted? s = some address ↔ s = address.render := by
  constructor
  · intro read
    unfold ofDotted? at read
    split at read
    · next parts =>
      simp only [Option.bind_eq_bind, Option.bind_eq_some_iff, octet?_eq_some_iff] at read
      obtain ⟨a, ⟨first, rfl⟩, b, ⟨second, rfl⟩, c, ⟨third, rfl⟩, d, ⟨fourth, rfl⟩, ⟨⟩⟩ := read
      have whole := Bytes.join_splitOn Mark.dot s
      rw [parts] at whole
      rw [render, octets_ofOctets a b c d first second third fourth, ← whole]
      rfl
    · contradiction
  · rintro rfl
    exact ofDotted?_render address

theorem nul_not_mem_render (address : Ipv4) : (0 : UInt8) ∉ address.render :=
  not_mem_of_ofDotted? _ address address.ofDotted?_render 0 (by decide) (by decide)

/-- The dotted form of an address is read as the address. -/
theorem ofText?_render (address : Ipv4) : Address.ofText? address.render = some (.v4 address) := by
  rw [Address.ofText?, Bytes.untilNul_of_not_mem _ address.nul_not_mem_render, ofDotted?_render]

theorem isText_render (address : Ipv4) : Address.isText address.render = true := by
  rw [Address.isText, ofText?_render]
  rfl

/-- A part of a numeric spelling: a number in base ten without a zero in front, in base eight behind
a zero, or in base sixteen behind `0x`. -/
inductive IsPart : Nat → Bytes → Prop where
  | decimal (digits : Bytes) (written : digits ≠ [])
      (digital : ∀ b ∈ digits, Bytes.isDigit b = true) (first : digits.head? ≠ some Mark.zero) :
      IsPart (Numeral.value 10 digits) digits
  | octal (digits : Bytes) (digital : ∀ b ∈ digits, 0x30 ≤ b ∧ b ≤ 0x37) :
      IsPart (Numeral.value 8 digits) (Mark.zero :: digits)
  | hexadecimal (mark : UInt8) (digits : Bytes) (marked : Bytes.lowerByte mark = 'x'.toUInt8)
      (written : digits ≠ []) (digital : ∀ b ∈ digits, Bytes.isHexDigit b = true) :
      IsPart (Numeral.value 16 digits) (Mark.zero :: mark :: digits)

/-- The number that one to four numbers make up: each but the last is an octet, from the top, and
the last one fills the octets that are left. -/
inductive MakesUp : List Nat → Nat → Prop where
  | one (a : Nat) (last : a < 2 ^ 32) : MakesUp [a] a
  | two (a b : Nat) (first : a < 2 ^ 8) (last : b < 2 ^ 24) : MakesUp [a, b] (a * 2 ^ 24 + b)
  | three (a b c : Nat) (first : a < 2 ^ 8) (second : b < 2 ^ 8) (last : c < 2 ^ 16) :
      MakesUp [a, b, c] (a * 2 ^ 24 + b * 2 ^ 16 + c)
  | four (a b c d : Nat) (first : a < 2 ^ 8) (second : b < 2 ^ 8) (third : c < 2 ^ 8)
      (last : d < 2 ^ 8) : MakesUp [a, b, c, d] (a * 2 ^ 24 + b * 2 ^ 16 + c * 2 ^ 8 + d)

/-- A numeric spelling of an address: parts between dots that write the numbers which make it up. -/
def IsSpelling (address : Ipv4) (s : Bytes) : Prop :=
  ∃ parts : List (Nat × Bytes), s = Bytes.join Mark.dot (parts.map (·.2)) ∧
    (∀ part ∈ parts, IsPart part.1 part.2) ∧ MakesUp (parts.map (·.1)) address.bits.toNat

/-- A byte of a number in any of the three bases. -/
def IsNumberByte (b : UInt8) : Prop := Bytes.isDigit b = true ∨ Bytes.isLetter b = true

instance : DecidablePred IsNumberByte := fun b =>
  inferInstanceAs (Decidable (Bytes.isDigit b = true ∨ Bytes.isLetter b = true))

theorem isNumberByte_of_isPart (n : Nat) (s : Bytes) (part : IsPart n s) :
    ∀ b ∈ s, IsNumberByte b := by
  have octal : ∀ b : UInt8, 0x30 ≤ b ∧ b ≤ 0x37 → IsNumberByte b :=
    Bytes.forall_of_all _ (by decide +kernel)
  have hexadecimal : ∀ b : UInt8, Bytes.isHexDigit b = true → IsNumberByte b :=
    Bytes.forall_of_all _ (by decide +kernel)
  have sign : ∀ b : UInt8, Bytes.lowerByte b = 'x'.toUInt8 → IsNumberByte b :=
    Bytes.forall_of_all _ (by decide +kernel)
  have zero : IsNumberByte Mark.zero := by decide
  cases part with
  | decimal _ written digital first => exact fun b member => .inl (digital b member)
  | octal digits digital =>
    exact List.forall_mem_cons.2 ⟨zero, fun b member => octal b (digital b member)⟩
  | hexadecimal mark digits marked written digital =>
    exact List.forall_mem_cons.2 ⟨zero, List.forall_mem_cons.2 ⟨sign mark marked,
      fun b member => hexadecimal b (digital b member)⟩⟩

theorem part?_of_isPart (n : Nat) (s : Bytes) (part : IsPart n s) : part? s = some n := by
  cases part with
  | decimal _ written digital first =>
    obtain ⟨b, rest, rfl⟩ := List.exists_cons_of_ne_nil written
    have other : b ≠ 0x30 := fun same => first (by rw [same]; rfl)
    unfold part?
    split
    · contradiction
    · next found => exact absurd (List.cons.inj found).1 other
    · exact (Numeral.decimal?_eq_some_iff _ _).2 ⟨written, digital, rfl⟩
  | octal digits digital =>
    cases digits with
    | nil => rfl
    | cons x rest =>
      have small : ∀ b : UInt8, 0x30 ≤ b ∧ b ≤ 0x37 →
          (Bytes.lowerByte b == 'x'.toUInt8) = false := Bytes.forall_of_all _ (by decide +kernel)
      have all : (x :: rest).all (fun b => 0x30 ≤ b && b ≤ 0x37) = true := by simpa using digital
      rw [part?, small x (digital x List.mem_cons_self), all]
      rfl
  | hexadecimal mark digits marked written digital =>
    have all : digits.all Bytes.isHexDigit = true := List.all_eq_true.2 digital
    simp [part?, marked, written, all]

theorem mapM_part? (parts : List (Nat × Bytes)) (written : ∀ part ∈ parts, IsPart part.1 part.2) :
    (parts.map (·.2)).mapM part? = some (parts.map (·.1)) := by
  induction parts with
  | nil => rfl
  | cons part parts ih =>
    obtain ⟨first, others⟩ := List.forall_mem_cons.1 written
    simp [part?_of_isPart _ _ first, ih others]

theorem ofParts?_of_makesUp (numbers : List Nat) (n : Nat) (made : MakesUp numbers n) :
    ofParts? 4 numbers = some n := by
  cases made <;> simp_all [ofParts?, Nat.shiftLeft_eq, Nat.add_assoc]

theorem MakesUp.ne_nil (numbers : List Nat) (n : Nat) (made : MakesUp numbers n) :
    numbers ≠ [] := by
  cases made <;> exact List.cons_ne_nil _ _

namespace IsSpelling

variable {address : Ipv4} {s : Bytes} (spelling : address.IsSpelling s)

include spelling

theorem isNumberByte_or_dot : ∀ b ∈ s, IsNumberByte b ∨ b = Mark.dot := by
  obtain ⟨parts, rfl, written, -⟩ := spelling
  intro b member
  refine Classical.or_iff_not_imp_right.2 fun other => ?_
  obtain ⟨_, text, inside⟩ := (Bytes.mem_join_iff _ b _ other).1 member
  obtain ⟨part, listed, rfl⟩ := List.mem_map.1 text
  exact isNumberByte_of_isPart _ _ (written part listed) b inside

/-- However an address is spelt in numbers, it is read. -/
theorem ofNumeric?_eq : ofNumeric? s = some address := by
  obtain ⟨parts, rfl, written, made⟩ := spelling
  have some : parts.map (·.2) ≠ [] := by simpa using made.ne_nil
  have dot : ¬ IsNumberByte Mark.dot := by decide
  have split := Bytes.splitOn_join Mark.dot _ some fun _ text inside => by
    obtain ⟨part, listed, rfl⟩ := List.mem_map.1 text
    exact dot (isNumberByte_of_isPart _ _ (written part listed) _ inside)
  rw [ofNumeric?, split, mapM_part? parts written]
  simp [ofParts?_of_makesUp _ _ made]

theorem ne_nil : s ≠ [] := by
  have none : ofNumeric? [] = none := by decide
  rintro rfl
  exact absurd (none.symm.trans spelling.ofNumeric?_eq) (Option.some_ne_none _).symm

end IsSpelling

/-- Any number of zeros spells the unspecified address. -/
theorem isSpelling_replicate_zero (count : Nat) (some : 0 < count) :
    (⟨0⟩ : Ipv4).IsSpelling (List.replicate count Mark.zero) := by
  obtain ⟨count, rfl⟩ := Nat.exists_eq_add_of_lt some
  have value := Numeral.value_replicate_zero_append 8 count []
  have octal := IsPart.octal (List.replicate count Mark.zero) fun b member => by
    rw [List.eq_of_mem_replicate member]
    decide
  rw [List.append_nil] at value
  rw [value, ← List.replicate_succ] at octal
  rw [Nat.zero_add]
  refine ⟨[(0, List.replicate (count + 1) Mark.zero)], ?_, ?_, .one 0 (by decide)⟩
  · rw [List.map_singleton, Bytes.join_singleton]
  · exact List.forall_mem_singleton.2 octal

end Ipv4

end FeedIntake
