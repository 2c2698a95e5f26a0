import Mathlib.Data.Nat.Find
import FeedIntake.Bytes.Ascii
import FeedIntake.Proofs.Bytes.Search

/-!
Places of a pattern in a text. A place is the number of bytes in front. Main statements: a search
finds a pattern exactly if it stands somewhere, it finds the first of its places, and in a text that
was brought to lower case it finds the pattern in letters of either case.
-/
namespace FeedIntake.Bytes

/-- A pattern stands in a text behind `n` bytes. -/
def StandsAt (pattern s : Bytes) (n : Nat) : Prop :=
  ∃ front back, s = front ++ pattern ++ back ∧ front.length = n

/-- A pattern in lower case stands in a text behind `n` bytes, in letters of either case. -/
def StandsInAnyCaseAt (pattern s : Bytes) (n : Nat) : Prop :=
  ∃ written, lower written = pattern ∧ StandsAt written s n

/-- The first place of a pattern in a text. -/
def place? (pattern s : Bytes) : Option Nat :=
  (from? pattern s).map fun rest => s.length - rest.length

/-- A pattern stands at a place of a text and at none in front of it. -/
def StandsFirstAt (pattern s : Bytes) (n : Nat) : Prop :=
  StandsAt pattern s n ∧ ∀ m < n, ¬ StandsAt pattern s m

variable (pattern s : Bytes)

@[simp] theorem standsAt_zero_iff : StandsAt pattern s 0 ↔ pattern <+: s := by
  constructor
  · rintro ⟨front, back, whole, none⟩
    obtain rfl := List.length_eq_zero_iff.1 none
    exact ⟨back, whole.symm⟩
  · rintro ⟨back, whole⟩
    exact ⟨[], back, whole.symm, rfl⟩

@[simp] theorem standsAt_cons_succ_iff (b : UInt8) (n : Nat) :
    StandsAt pattern (b :: s) (n + 1) ↔ StandsAt pattern s n := by
  constructor
  · rintro ⟨front, back, whole, length⟩
    cases front with
    | nil => contradiction
    | cons first front =>
      obtain ⟨-, rest⟩ := List.cons.inj whole
      exact ⟨front, back, rest, Nat.succ.inj length⟩
  · rintro ⟨front, back, rfl, rfl⟩
    exact ⟨b :: front, back, rfl, rfl⟩

@[simp] theorem standsAt_append_iff (front : Bytes) (n : Nat) :
    StandsAt pattern (front ++ s) (front.length + n) ↔ StandsAt pattern s n := by
  induction front with
  | nil => simp
  | cons b front ih =>
    rw [List.cons_append, List.length_cons, Nat.add_right_comm, standsAt_cons_succ_iff, ih]

variable {pattern s} in
/-- What stands in a part of a text stands in the text. -/
theorem StandsAt.append {n : Nat} (stands : StandsAt pattern s n) (before after : Bytes) :
    StandsAt pattern (before ++ s ++ after) (before.length + n) := by
  obtain ⟨front, back, rfl, rfl⟩ := stands
  exact ⟨before ++ front, back ++ after, by simp, by simp⟩

variable {pattern s} in
theorem StandsInAnyCaseAt.append {n : Nat} (stands : StandsInAnyCaseAt pattern s n)
    (before after : Bytes) :
    StandsInAnyCaseAt pattern (before ++ s ++ after) (before.length + n) := by
  obtain ⟨written, same, there⟩ := stands
  exact ⟨written, same, there.append before after⟩

/-- Two patterns at one place begin one another. -/
theorem prefix_or_prefix_of_standsAt (other : Bytes) (n : Nat) (first : StandsAt pattern s n)
    (second : StandsAt other s n) : pattern <+: other ∨ other <+: pattern := by
  obtain ⟨front, back, rfl, rfl⟩ := first
  rw [List.append_assoc, ← Nat.add_zero front.length, standsAt_append_iff,
    standsAt_zero_iff] at second
  exact List.prefix_or_prefix_of_prefix (List.prefix_append pattern back) second

theorem standsAt_lower_iff (n : Nat) :
    StandsAt pattern (lower s) n ↔ StandsInAnyCaseAt pattern s n := by
  constructor
  · rintro ⟨front, back, whole, length⟩
    obtain ⟨before, behind, rfl, mapped, -⟩ := List.map_eq_append_iff.1 whole
    obtain ⟨start, written, rfl, rfl, same⟩ := List.map_eq_append_iff.1 mapped
    rw [List.length_map] at length
    exact ⟨written, same, start, behind, rfl, length⟩
  · rintro ⟨written, rfl, front, back, rfl, rfl⟩
    refine ⟨lower front, lower back, ?_, List.length_map _⟩
    simp [lower]

/-- A pattern without letters does not notice that a text was brought to lower case. -/
theorem standsAt_lower_iff_of_not_isLetter (n : Nat) (others : ∀ b ∈ pattern, isLetter b = false) :
    StandsAt pattern (lower s) n ↔ StandsAt pattern s n := by
  rw [standsAt_lower_iff]
  simp [StandsInAnyCaseAt, lower_eq_iff_of_not_isLetter _ pattern others]

/-- What a search finds begins with the pattern, behind a front where the pattern does not stand. -/
theorem from?_eq_some_iff (rest : Bytes) :
    from? pattern s = some rest ↔
      ∃ front, s = front ++ rest ∧ StandsFirstAt pattern s front.length := by
  induction s with
  | nil =>
    constructor
    · intro found
      obtain ⟨empty, same⟩ := Option.ite_none_right_eq_some.1 found
      obtain rfl := Option.some.inj same
      rw [List.isEmpty_iff] at empty
      exact ⟨[], rfl, by simp [StandsFirstAt, empty]⟩
    · rintro ⟨front, whole, stands, -⟩
      obtain ⟨rfl, rfl⟩ := List.append_eq_nil_iff.1 whole.symm
      have empty : pattern = [] := by simpa using stands
      simp [from?, empty]
  | cons b s ih =>
    rw [from?_cons]
    split
    · next here =>
      constructor
      · intro found
        exact ⟨[], (Option.some.inj found), by simpa [StandsFirstAt] using here⟩
      · rintro ⟨front, whole, -, first⟩
        cases front with
        | nil => rw [whole, List.nil_append]
        | cons c front => exact absurd ((standsAt_zero_iff _ _).2 here) (first 0 (Nat.succ_pos _))
    · next elsewhere =>
      rw [ih]
      constructor
      · rintro ⟨front, rfl, stands, first⟩
        refine ⟨b :: front, rfl, (standsAt_cons_succ_iff _ _ _ _).2 stands, ?_⟩
        intro m lt
        cases m with
        | zero => rwa [standsAt_zero_iff]
        | succ m =>
          rw [standsAt_cons_succ_iff]
          exact first m (Nat.lt_of_succ_lt_succ lt)
      · rintro ⟨front, whole, stands, first⟩
        cases front with
        | nil => exact absurd ((standsAt_zero_iff _ _).1 stands) elsewhere
        | cons c front =>
          obtain ⟨-, rfl⟩ := List.cons.inj whole
          refine ⟨front, rfl, (standsAt_cons_succ_iff _ _ _ _).1 stands, fun m lt => ?_⟩
          have later := first (m + 1) (Nat.succ_lt_succ lt)
          rwa [standsAt_cons_succ_iff] at later

/-- What is left behind the first occurrence of a pattern. -/
theorem after?_eq_some_iff (back : Bytes) :
    after? pattern s = some back ↔
      ∃ front, s = front ++ pattern ++ back ∧ StandsFirstAt pattern s front.length := by
  rw [after?, Option.map_eq_some_iff]
  constructor
  · rintro ⟨rest, found, rfl⟩
    obtain ⟨⟨back, rfl⟩, -⟩ := eq_of_from? pattern s rest found
    obtain ⟨front, whole, first⟩ := (from?_eq_some_iff _ _ _).1 found
    exact ⟨front, by rw [whole, List.drop_left, List.append_assoc], first⟩
  · rintro ⟨front, whole, first⟩
    refine ⟨pattern ++ back, (from?_eq_some_iff _ _ _).2 ⟨front, ?_, first⟩, List.drop_left⟩
    rw [whole, List.append_assoc]

/-- Where a pattern stands somewhere, there is a first place. -/
theorem exists_standsFirstAt (n : Nat) (stands : StandsAt pattern s n) :
    ∃ first ≤ n, StandsFirstAt pattern s first := by
  classical
  have somewhere : ∃ n, StandsAt pattern s n := ⟨n, stands⟩
  exact ⟨Nat.find somewhere, Nat.find_le stands, Nat.find_spec somewhere,
    fun m lt => Nat.find_min somewhere lt⟩

theorem place?_eq_some_iff (n : Nat) : place? pattern s = some n ↔ StandsFirstAt pattern s n := by
  rw [place?, Option.map_eq_some_iff]
  constructor
  · rintro ⟨rest, found, rfl⟩
    obtain ⟨front, whole, first⟩ := (from?_eq_some_iff _ _ _).1 found
    have length : s.length - rest.length = front.length := by simp [whole]
    rwa [length]
  · intro first
    obtain ⟨front, back, whole, length⟩ := first.1
    refine ⟨pattern ++ back, (from?_eq_some_iff _ _ _).2 ⟨front, ?_, ?_⟩, ?_⟩
    · rw [whole, List.append_assoc]
    · rwa [length]
    · rw [whole, List.append_assoc, List.length_append, length, Nat.add_sub_cancel]

theorem place?_eq_none_iff : place? pattern s = none ↔ ∀ n, ¬ StandsAt pattern s n := by
  constructor
  · intro absent n stands
    obtain ⟨first, -, isFirst⟩ := exists_standsFirstAt pattern s n stands
    have found := (place?_eq_some_iff pattern s first).2 isFirst
    rw [absent] at found
    contradiction
  · intro nowhere
    cases found : place? pattern s with
    | none => rfl
    | some n => exact absurd ((place?_eq_some_iff _ _ _).1 found).1 (nowhere n)

theorem place?_singleton_append_cons (sep : UInt8) (front rest : Bytes) (absent : sep ∉ front) :
    place? [sep] (front ++ sep :: rest) = some front.length := by
  have found : from? [sep] (front ++ sep :: rest) = some (sep :: rest) := by
    rw [from?_append_of_not_mem sep [] front _ absent, from?_cons]
    simp
  simp [place?, found]

theorem place?_singleton_of_not_mem (sep : UInt8) (s : Bytes) (absent : sep ∉ s) :
    place? [sep] s = none := by
  have missing := from?_append_of_not_mem sep [] s [] absent
  rw [List.append_nil] at missing
  rw [place?, missing]
  rfl

theorem occurs_iff : occurs pattern s = true ↔ ∃ n, StandsAt pattern s n := by
  have searched : occurs pattern s = (place? pattern s).isSome := Option.isSome_map.symm
  rw [searched, Option.isSome_iff_ne_none, Ne, place?_eq_none_iff]
  simp

theorem occurs_lower_iff :
    occurs pattern (lower s) = true ↔ ∃ n, StandsInAnyCaseAt pattern s n := by
  simp only [occurs_iff, standsAt_lower_iff]

end FeedIntake.Bytes
