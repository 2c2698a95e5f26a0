import Mathlib.Data.List.Forall2
import FeedIntake.Proofs.Address.Spelling

/-!
Texts of IPv6 addresses. `IsSpelling` says how an address is spelt in eight groups: in hexadecimal
digits of either case with zeros in front or without, with the last two in the dotted form or not,
and with zero groups left out in one place or written. Main statement: exactly the spellings are
read, and each as the address with its groups.
-/
namespace FeedIntake

open Bytes

/-- The two groups that an IPv4 address fills. -/
def Ipv4.halves (address : Ipv4) : List Nat :=
  [address.bits.toNat / 0x10000, address.bits.toNat % 0x10000]

namespace Ipv6

/-- A group in one to four hexadecimal digits. -/
structure IsGroup (n : Nat) (digits : Bytes) : Prop where
  written : digits ≠ []
  short : digits.length ≤ 4
  hexadecimal : ∀ b ∈ digits, isHexDigit b = true
  value : Numeral.value 16 digits = n

/-- Groups in the pieces that write them: one each, or the dotted form of an IPv4 address for the
last two. -/
inductive ArePieces : List Nat → List Bytes → Prop where
  | none : ArePieces [] []
  | dotted (address : Ipv4) : ArePieces address.halves [address.render]
  | group (n : Nat) (digits : Bytes) (groups : List Nat) (pieces : List Bytes)
      (first : IsGroup n digits) (others : ArePieces groups pieces) :
      ArePieces (n :: groups) (digits :: pieces)

/-- Eight groups with colons between them, where two colons stand for one or more groups that are
zero. -/
inductive IsSpelling : List Nat → Bytes → Prop where
  | full (groups : List Nat) (pieces : List Bytes) (written : ArePieces groups pieces)
      (whole : groups.length = 8) : IsSpelling groups (join Mark.colon pieces)
  | short (front back : List Nat) (before after : List Bytes) (zeros : Nat)
      (inFront : List.Forall₂ IsGroup front before) (behind : ArePieces back after)
      (some : 0 < zeros) (whole : front.length + zeros + back.length = 8) :
      IsSpelling (front ++ List.replicate zeros 0 ++ back)
        (join Mark.colon before ++ ofString "::" ++ join Mark.colon after)

theorem group?_eq_some_iff (digits : Bytes) (n : Nat) :
    group? digits = some n ↔ IsGroup n digits := by
  rw [group?, Option.ite_none_right_eq_some]
  simp only [Bool.and_eq_true, Bool.not_eq_true', List.isEmpty_eq_false_iff, decide_eq_true_eq,
    List.all_eq_true, Option.some.injEq]
  constructor
  · rintro ⟨⟨⟨written, short⟩, hexadecimal⟩, value⟩
    exact ⟨written, short, hexadecimal, value⟩
  · rintro ⟨written, short, hexadecimal, value⟩
    exact ⟨⟨⟨written, short⟩, hexadecimal⟩, value⟩

theorem mapM_group?_eq_some_iff (pieces : List Bytes) (groups : List Nat) :
    pieces.mapM group? = some groups ↔ List.Forall₂ IsGroup groups pieces := by
  induction pieces generalizing groups with
  | nil => simp [eq_comm]
  | cons piece pieces ih =>
    simp only [List.mapM_cons, List.forall₂_cons_right_iff, Option.bind_eq_bind,
      Option.bind_eq_some_iff, Option.pure_def, Option.some.injEq, group?_eq_some_iff, ih]
    grind

theorem dotted?_eq_some_iff (s : Bytes) (groups : List Nat) :
    dotted? s = some groups ↔ ∃ address : Ipv4, s = address.render ∧ address.halves = groups := by
  rw [dotted?, Option.map_eq_some_iff]
  simp only [Ipv4.ofDotted?_eq_some_iff]
  rfl

theorem IsGroup.not_mem {n : Nat} {digits : Bytes} (group : IsGroup n digits) (b : UInt8)
    (other : isHexDigit b = false) : b ∉ digits := by
  intro member
  exact Bool.false_ne_true (other.symm.trans (group.hexadecimal b member))

/-- The dotted form has dots in it and so is no group. -/
theorem group?_render (address : Ipv4) : group? address.render = none := by
  refine Option.eq_none_iff_forall_ne_some.2 fun n read => ?_
  have undotted := ((group?_eq_some_iff _ n).1 read).not_mem Mark.dot rfl
  have dotted := address.ofDotted?_render
  rw [Ipv4.ofDotted?, splitOn_of_not_mem _ _ undotted] at dotted
  contradiction

/-- At the end of an address exactly the pieces of groups are read. -/
theorem lastGroups?_eq_some_iff (pieces : List Bytes) (groups : List Nat) :
    lastGroups? pieces = some groups ↔ ArePieces groups pieces := by
  constructor
  · intro read
    fun_induction lastGroups? pieces generalizing groups with
    | case1 => cases read; exact .none
    | case2 last n group =>
      cases read
      exact .group n last [] [] ((group?_eq_some_iff last n).1 group) .none
    | case3 last ungrouped =>
      obtain ⟨address, rfl, rfl⟩ := (dotted?_eq_some_iff last groups).1 read
      exact .dotted address
    | case4 piece rest some ih =>
      simp only [Option.bind_eq_bind, Option.bind_eq_some_iff, Option.pure_def] at read
      obtain ⟨n, first, others, behind, ⟨⟩⟩ := read
      exact .group n piece others rest ((group?_eq_some_iff piece n).1 first) (ih others behind)
  · intro written
    induction written with
    | none => rfl
    | dotted address =>
      rw [lastGroups?, group?_render]
      exact (dotted?_eq_some_iff _ _).2 ⟨address, rfl, rfl⟩
    | group n digits groups pieces first others ih =>
      have read := (group?_eq_some_iff digits n).2 first
      cases pieces with
      | nil =>
        cases others
        simp [lastGroups?, read]
      | cons next pieces => simp [lastGroups?, read, ih]

/-- A piece is not empty and has no colon in it, so that pieces can be told apart. -/
def IsPiece (s : Bytes) : Prop := s ≠ [] ∧ Mark.colon ∉ s

theorem IsGroup.isPiece {n : Nat} {digits : Bytes} (group : IsGroup n digits) : IsPiece digits :=
  ⟨group.written, group.not_mem Mark.colon rfl⟩

theorem isPiece_render (address : Ipv4) : IsPiece address.render := by
  have dotted := address.ofDotted?_render
  refine ⟨fun empty => ?_, Ipv4.not_mem_of_ofDotted? _ address dotted _ (by decide) (by decide)⟩
  rw [empty] at dotted
  contradiction

theorem isPiece_of_forall₂ (groups : List Nat) (pieces : List Bytes)
    (written : List.Forall₂ IsGroup groups pieces) : ∀ piece ∈ pieces, IsPiece piece := by
  induction written with
  | nil => exact nofun
  | cons first others ih => exact List.forall_mem_cons.2 ⟨first.isPiece, ih⟩

theorem isPiece_of_arePieces (groups : List Nat) (pieces : List Bytes)
    (written : ArePieces groups pieces) : ∀ piece ∈ pieces, IsPiece piece := by
  induction written with
  | none => exact nofun
  | dotted address => exact List.forall_mem_singleton.2 (isPiece_render address)
  | group n digits groups pieces first others ih => exact List.forall_mem_cons.2 ⟨first.isPiece, ih⟩

theorem join_pieces (s : Bytes) : join Mark.colon (pieces s) = s := by
  rw [pieces]
  split
  · next empty => rw [List.isEmpty_iff.1 empty, join_nil]
  · exact join_splitOn Mark.colon s

theorem pieces_join (parts : List Bytes) (plain : ∀ part ∈ parts, IsPiece part) :
    pieces (join Mark.colon parts) = parts := by
  cases parts with
  | nil => rfl
  | cons part parts =>
    have split := splitOn_join Mark.colon (part :: parts) (List.cons_ne_nil _ _)
      fun piece member => (plain piece member).2
    have full : join Mark.colon (part :: parts) ≠ [] := by
      intro empty
      rw [empty] at split
      exact (plain part List.mem_cons_self).1 (List.cons.inj split).1.symm
    rw [pieces, if_neg (by simpa using full), split]

theorem colons_eq : ofString "::" = [Mark.colon, Mark.colon] := by decide

/-- There are no two colons in a row between pieces. -/
theorem from?_join_append (parts : List Bytes) (plain : ∀ part ∈ parts, IsPiece part)
    (rest : Bytes) :
    from? (ofString "::") (join Mark.colon parts ++ rest) = from? (ofString "::") rest := by
  rw [colons_eq]
  induction parts with
  | nil => rfl
  | cons part parts ih =>
    obtain ⟨first, others⟩ := List.forall_mem_cons.1 plain
    cases parts with
    | nil => rw [join_singleton, from?_append_of_not_mem _ _ _ _ first.2]
    | cons next parts =>
      obtain ⟨⟨written, absent⟩, -⟩ := List.forall_mem_cons.1 others
      obtain ⟨b, next, rfl⟩ := List.exists_cons_of_ne_nil written
      obtain ⟨more, joined⟩ : ∃ more, join Mark.colon ((b :: next) :: parts) = b :: more := by
        cases parts <;> exact ⟨_, rfl⟩
      have single : ¬ [Mark.colon, Mark.colon] <+: Mark.colon :: b :: (more ++ rest) := by
        simpa using List.ne_of_not_mem_cons absent
      rw [joined] at ih
      rw [join_cons_cons, joined, List.append_assoc, from?_append_of_not_mem _ _ _ _ first.2,
        List.cons_append, List.cons_append, from?_cons, if_neg single]
      exact ih others

/-- Exactly the spellings of groups are read, and as the address with these groups. -/
theorem ofText?_eq_some_iff (s : Bytes) (address : Ipv6) :
    ofText? s = some address ↔ ∃ groups, IsSpelling groups s ∧ ofGroups groups = address := by
  constructor
  · intro read
    unfold ofText? at read
    split at read
    · simp only [Option.bind_eq_bind, Option.bind_eq_some_iff] at read
      obtain ⟨groups, written, taken⟩ := read
      obtain ⟨whole, ⟨⟩⟩ := Option.ite_none_right_eq_some.1 taken
      have spelling := IsSpelling.full groups _ ((lastGroups?_eq_some_iff _ _).1 written) whole
      rw [join_pieces] at spelling
      exact ⟨groups, spelling, rfl⟩
    · next before after broken =>
      simp only [Option.bind_eq_bind, Option.bind_eq_some_iff] at read
      obtain ⟨front, inFront, back, behind, taken⟩ := read
      obtain ⟨room, ⟨⟩⟩ := Option.ite_none_right_eq_some.1 taken
      have spelling := IsSpelling.short front back _ _ (8 - (front.length + back.length))
        ((mapM_group?_eq_some_iff _ _).1 inFront) ((lastGroups?_eq_some_iff _ _).1 behind)
        (by omega) (by omega)
      rw [join_pieces, join_pieces, ← eq_of_breakOn? _ _ _ _ broken] at spelling
      exact ⟨_, spelling, rfl⟩
  · rintro ⟨groups, spelling, rfl⟩
    cases spelling with
    | full groups parts written whole =>
      have plain := isPiece_of_arePieces groups parts written
      have unbroken : breakOn? (ofString "::") (join Mark.colon parts) = none := by
        have passed := from?_join_append parts plain []
        rw [List.append_nil] at passed
        exact (breakOn?_eq_none_iff _ _).2 passed
      rw [ofText?, unbroken]
      simp [pieces_join parts plain, (lastGroups?_eq_some_iff parts groups).2 written, whole]
    | short front back before after zeros inFront behind some whole =>
      have plain := isPiece_of_forall₂ front before inFront
      have broken := breakOn?_of_from? (ofString "::") (join Mark.colon before)
        (join Mark.colon after) (by rw [List.append_assoc, from?_join_append before plain]; rfl)
      have room : front.length + back.length ≤ 7 := by omega
      have left : 8 - (front.length + back.length) = zeros := by omega
      rw [ofText?, broken]
      simp [pieces_join before plain, pieces_join after (isPiece_of_arePieces back after behind),
        (mapM_group?_eq_some_iff before front).2 inFront,
        (lastGroups?_eq_some_iff after back).2 behind, room, left]

end Ipv6

end FeedIntake
