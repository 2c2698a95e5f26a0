import FeedIntake.Bytes.Basic

/-!
Numbers as bytes, most significant byte first. `toBigEndian` and `ofBigEndian` undo each other on
texts and numbers that fit together.
-/
namespace FeedIntake.Bytes

/-- The last `width` bytes of a number. -/
def toBigEndian : Nat → Nat → Bytes
  | 0, _ => []
  | width + 1, n => toBigEndian width (n / 256) ++ [UInt8.ofNat n]

/-- The number that some bytes stand for. -/
def ofBigEndian (s : Bytes) : Nat := s.foldl (fun n b => n * 256 + b.toNat) 0

@[simp] theorem length_toBigEndian (width n : Nat) : (toBigEndian width n).length = width := by
  induction width generalizing n with
  | zero => rfl
  | succ width ih => simp [toBigEndian, ih]

theorem ofBigEndian_append_singleton (s : Bytes) (b : UInt8) :
    ofBigEndian (s ++ [b]) = ofBigEndian s * 256 + b.toNat := by
  simp [ofBigEndian]

theorem ofBigEndian_toBigEndian (width n : Nat) :
    ofBigEndian (toBigEndian width n) = n % Nat.pow 256 width := by
  induction width generalizing n with
  | zero => simp [toBigEndian, ofBigEndian, Nat.mod_one]
  | succ width ih =>
    have byte : (UInt8.ofNat n).toNat = n % 256 := by simp
    have split : Nat.pow 256 (width + 1) = 256 * Nat.pow 256 width := Nat.mul_comm _ _
    rw [toBigEndian, ofBigEndian_append_singleton, ih, byte, split, Nat.mod_mul]
    omega

theorem toBigEndian_append_singleton (width n : Nat) (b : UInt8) :
    toBigEndian (width + 1) (n * 256 + b.toNat) = toBigEndian width n ++ [b] := by
  have bound := b.toNat_lt
  have whole : (n * 256 + b.toNat) / 256 = n := by omega
  have part : UInt8.ofNat (n * 256 + b.toNat) = b := by
    apply UInt8.toNat_inj.1
    simp only [UInt8.toNat_ofNat']
    omega
  rw [toBigEndian, whole, part]

theorem toBigEndian_ofBigEndian (s : Bytes) : toBigEndian s.length (ofBigEndian s) = s := by
  generalize reversed : s.reverse = t
  induction t generalizing s with
  | nil => simp_all [toBigEndian]
  | cons b rest ih =>
    obtain rfl : s = rest.reverse ++ [b] := by simpa using congrArg List.reverse reversed
    have again := ih rest.reverse (by simp)
    simp only [List.length_append, List.length_cons, List.length_nil, Nat.zero_add] at again ⊢
    rw [ofBigEndian_append_singleton, toBigEndian_append_singleton, again]

end FeedIntake.Bytes
