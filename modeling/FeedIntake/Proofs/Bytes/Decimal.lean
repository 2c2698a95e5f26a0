import Mathlib.Data.Nat.Digits.Defs
import Mathlib.Data.List.Induction
import FeedIntake.Numeral
import FeedIntake.Proofs.Bytes.Blank

/-!
Decimal numerals. A number is printed in decimal digits that read back as the number, with no more
digits than it needs; and what a run of decimal digits denotes is the sum of its digits, each
weighed by its place.
-/
namespace FeedIntake

namespace Bytes

theorem isBlank_of_isDigit (b : UInt8) (digit : isDigit b = true) : isBlank b = false :=
  forall_of_all (fun b => isDigit b = true → isBlank b = false) (by decide +kernel) b digit

theorem hexDigit?_of_isDigit (b : UInt8) (digit : isDigit b = true) :
    hexDigit? b = some (b.toNat - 0x30) := by
  rw [hexDigit?, if_pos digit]

theorem trim_of_isDigit (s : Bytes) (digits : ∀ b ∈ s, isDigit b = true) : trim s = s :=
  trim_of_not_isBlank s fun b member => isBlank_of_isDigit b (digits b member)

end Bytes

namespace Numeral

theorem decimal?_eq_some_iff (s : Bytes) (n : Nat) :
    decimal? s = some n ↔
      s ≠ [] ∧ (∀ b ∈ s, Bytes.isDigit b = true) ∧ value 10 s = n := by
  cases s with
  | nil => simp [decimal?]
  | cons b rest => simp [decimal?, and_assoc]

theorem value_append_singleton (base : Nat) (s : Bytes) (b : UInt8) :
    value base (s ++ [b]) = value base s * base + (Bytes.hexDigit? b).getD 0 := by
  simp [value]

theorem value_eq_ofDigits (s : Bytes) (digits : ∀ b ∈ s, Bytes.isDigit b = true) :
    value 10 s = Nat.ofDigits 10 (s.reverse.map fun b => b.toNat - 0x30) := by
  induction s using List.reverseRecOn with
  | nil => rfl
  | append_singleton front b ih =>
    have before := ih fun c member => digits c (List.mem_append_left _ member)
    have last := Bytes.hexDigit?_of_isDigit b (digits b (by simp))
    rw [value_append_singleton, before, last, List.reverse_append, List.reverse_singleton,
      List.singleton_append, List.map_cons, Nat.ofDigits_cons, Option.getD_some]
    omega

theorem value_lt (s : Bytes) (digits : ∀ b ∈ s, Bytes.isDigit b = true) :
    value 10 s < 10 ^ s.length := by
  rw [value_eq_ofDigits s digits]
  refine (Nat.ofDigits_lt_base_pow_length (by decide) fun digit member => ?_).trans_eq (by simp)
  have small : ∀ b : UInt8, Bytes.isDigit b = true → b.toNat - 0x30 < 10 :=
    Bytes.forall_of_all _ (by decide +kernel)
  obtain ⟨b, inside, rfl⟩ := List.mem_map.1 member
  exact small b (digits b (List.mem_reverse.1 inside))

/-- Digits of one length that denote one number are the same digits. -/
theorem eq_of_value_eq (s t : Bytes) (digits : ∀ b ∈ s, Bytes.isDigit b = true)
    (digits' : ∀ b ∈ t, Bytes.isDigit b = true) (length : s.length = t.length)
    (same : value 10 s = value 10 t) : s = t := by
  have back : ∀ b : UInt8, Bytes.isDigit b = true →
      b.toNat - 0x30 < 10 ∧ UInt8.ofNat (b.toNat - 0x30 + 0x30) = b :=
    Bytes.forall_of_all _ (by decide +kernel)
  have restore (u : Bytes) (digital : ∀ b ∈ u, Bytes.isDigit b = true) :
      ((u.reverse.map fun b => b.toNat - 0x30).map fun n => UInt8.ofNat (n + 0x30)) =
        u.reverse := by
    rw [List.map_map]
    exact (List.map_congr_left fun b member =>
      (back b (digital b (List.mem_reverse.1 member))).2).trans (List.map_id' _)
  have small (u : Bytes) (digital : ∀ b ∈ u, Bytes.isDigit b = true) :
      ∀ n ∈ u.reverse.map fun b => b.toNat - 0x30, n < 10 := by
    intro n member
    obtain ⟨b, inside, rfl⟩ := List.mem_map.1 member
    exact (back b (digital b (List.mem_reverse.1 inside))).1
  rw [value_eq_ofDigits s digits, value_eq_ofDigits t digits'] at same
  have numbers := Nat.ofDigits_inj_of_len_eq (by decide) (by simp [length]) (small s digits)
    (small t digits') same
  rw [← List.reverse_inj, ← restore s digits, numbers, restore t digits']

theorem isHexDigit_of_mem_digits (base n : Nat) (low : 1 < base) (high : base ≤ 16) :
    ∀ b ∈ digits base n, Bytes.isHexDigit b = true := by
  have all : ∀ n < 16, Bytes.isHexDigit n.digitChar.toUInt8 = true := by decide
  rw [digits]
  induction n using Nat.strongRecOn with
  | ind n ih =>
    by_cases small : n < base
    · rw [Nat.toDigits_of_lt_base small]
      exact List.forall_mem_singleton.2 (all n (by omega))
    · have quotient : n / base < n := Nat.div_lt_self (by omega) low
      have remainder : n % base < base := Nat.mod_lt n (by omega)
      rw [Nat.toDigits_of_base_le low (by omega), List.map_append, List.forall_mem_append]
      exact ⟨ih (n / base) quotient, List.forall_mem_singleton.2 (all _ (by omega))⟩

theorem decimal_of_lt (n : Nat) (small : n < 10) : decimal n = [UInt8.ofNat (0x30 + n)] := by
  have all : ∀ n < 10, decimal n = [UInt8.ofNat (0x30 + n)] := by decide
  exact all n small

theorem decimal_of_le (n : Nat) (large : 10 ≤ n) :
    decimal n = decimal (n / 10) ++ decimal (n % 10) := by
  have last := Nat.toDigits_of_lt_base (Nat.mod_lt n (by decide : 0 < 10))
  rw [decimal, decimal, decimal, digits, digits, digits, ← List.map_append, last,
    Nat.toDigits_of_base_le (by decide) large]

theorem decimal_ne_nil (n : Nat) : decimal n ≠ [] := by
  rw [decimal, digits]
  simp

theorem length_decimal_le_iff (n width : Nat) (some : 0 < width) :
    (decimal n).length ≤ width ↔ n < 10 ^ width := by
  rw [decimal, digits, List.length_map]
  exact Nat.length_toDigits_le_iff (by decide) some

theorem isDigit_of_mem_decimal (n : Nat) : ∀ b ∈ decimal n, Bytes.isDigit b = true := by
  have all : ∀ n < 10, Bytes.isDigit (UInt8.ofNat (0x30 + n)) = true := by decide
  induction n using Nat.strongRecOn with
  | ind n ih =>
    by_cases small : n < 10
    · rw [decimal_of_lt n small]
      intro b member
      obtain rfl := List.mem_singleton.1 member
      exact all n small
    · have remainder : n % 10 < n := by omega
      have quotient : n / 10 < n := by omega
      rw [decimal_of_le n (by omega)]
      intro b member
      rcases List.mem_append.1 member with front | last
      · exact ih (n / 10) quotient b front
      · exact ih (n % 10) remainder b last

theorem value_decimal (n : Nat) : value 10 (decimal n) = n := by
  have all : ∀ n < 10, (Bytes.hexDigit? (UInt8.ofNat (0x30 + n))).getD 0 = n := by decide
  induction n using Nat.strongRecOn with
  | ind n ih =>
    by_cases small : n < 10
    · rw [decimal_of_lt n small, ← List.nil_append [UInt8.ofNat (0x30 + n)],
        value_append_singleton, all n small]
      exact Nat.zero_add n
    · have front := ih (n / 10) (by omega)
      have remainder : n % 10 < 10 := Nat.mod_lt n (by decide)
      rw [decimal_of_le n (by omega), decimal_of_lt _ remainder, value_append_singleton, front,
        all _ remainder]
      omega

theorem decimal?_decimal (n : Nat) : decimal? (decimal n) = some n :=
  (decimal?_eq_some_iff _ n).2 ⟨decimal_ne_nil n, isDigit_of_mem_decimal n, value_decimal n⟩

/-- Digits with no zero in front of others are the decimal form of the number they denote. -/
theorem decimal_value (s : Bytes) (written : s ≠ []) (digits : ∀ b ∈ s, Bytes.isDigit b = true)
    (lead : s.head? = some Mark.zero → s.length = 1) : decimal (value 10 s) = s := by
  have ones : ∀ b : UInt8, Bytes.isDigit b = true →
      (Bytes.hexDigit? b).getD 0 < 10 ∧ decimal ((Bytes.hexDigit? b).getD 0) = [b] :=
    Bytes.forall_of_all _ (by decide +kernel)
  induction s using List.reverseRecOn with
  | nil => exact absurd rfl written
  | append_singleton front b ih =>
    obtain ⟨small, last⟩ := ones b (digits b (by simp))
    rw [value_append_singleton]
    by_cases alone : front = []
    · rw [alone, List.nil_append, ← last]
      exact congrArg decimal (Nat.zero_add _)
    · have other : front.head? ≠ some Mark.zero := by
        intro zero
        have one := lead (by rw [List.head?_append, zero, Option.some_or])
        rw [List.length_append, List.length_singleton] at one
        exact alone (List.length_eq_zero_iff.1 (Nat.succ.inj one))
      have before := ih alone (fun c member => digits c (List.mem_append_left _ member))
        fun zero => absurd zero other
      have positive : value 10 front ≠ 0 := by
        intro zero
        rw [zero] at before
        exact other (before ▸ rfl)
      rw [decimal_of_le _ (by omega), show (value 10 front * 10 + _) / 10 = value 10 front by omega,
        show (value 10 front * 10 + _) % 10 = (Bytes.hexDigit? b).getD 0 by omega, before, last]

theorem value_replicate_zero_append (base count : Nat) (s : Bytes) :
    value base (List.replicate count Mark.zero ++ s) = value base s := by
  have zero : 0 * base + (Bytes.hexDigit? Mark.zero).getD 0 = 0 := Nat.zero_mul base
  induction count with
  | zero => rfl
  | succ count ih =>
    rw [List.replicate_succ, List.cons_append, value, List.foldl_cons, zero]
    exact ih

theorem value_padded (width n : Nat) : value 10 (padded width n) = n := by
  rw [padded, value_replicate_zero_append, value_decimal]

theorem isDigit_of_mem_padded (width n : Nat) : ∀ b ∈ padded width n, Bytes.isDigit b = true := by
  intro b member
  rcases List.mem_append.1 member with filling | own
  · rw [List.eq_of_mem_replicate filling]
    decide
  · exact isDigit_of_mem_decimal n b own

theorem length_padded (width n : Nat) (some : 0 < width) (fits : n < 10 ^ width) :
    (padded width n).length = width := by
  have short := (length_decimal_le_iff n width some).2 fits
  simp only [padded, List.length_append, List.length_replicate]
  omega

/-- Digits are the number that they denote, filled up to their length. -/
theorem padded_value (s : Bytes) (written : s ≠ []) (digits : ∀ b ∈ s, Bytes.isDigit b = true) :
    padded s.length (value 10 s) = s :=
  eq_of_value_eq _ s (isDigit_of_mem_padded _ _) digits
    (length_padded _ _ (List.length_pos_iff.2 written) (value_lt s digits)) (value_padded _ _)

end Numeral

end FeedIntake
