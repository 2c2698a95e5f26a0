import FeedIntake.Digest.Sha256

/-!
Digests: eight bytes that stand for a text of any length, kept as one word so that they can be
compared and ordered at once.
-/
namespace FeedIntake

/-- Eight bytes that stand for a text. -/
abbrev Digest := UInt64

namespace Digest

def width : Nat := 8

def ofBytes (s : Bytes) : Digest := UInt64.ofNat (Bytes.ofBigEndian s)

def toBytes (digest : Digest) : Bytes := Bytes.toBigEndian width digest.toNat

/-- The digest of a text: the first bytes of its hash. -/
def ofText (s : Bytes) : Digest := ofBytes ((Sha256.hash s).take width)

@[simp] theorem length_toBytes (digest : Digest) : (toBytes digest).length = width :=
  Bytes.length_toBigEndian _ _

@[simp] theorem ofBytes_toBytes (digest : Digest) : ofBytes (toBytes digest) = digest := by
  have bound := digest.toNat_lt
  rw [ofBytes, toBytes, Bytes.ofBigEndian_toBigEndian,
    Nat.mod_eq_of_lt (by simpa [width] using bound)]
  exact UInt64.ofNat_toNat

theorem toBytes_ofBytes (s : Bytes) (whole : s.length = width) : toBytes (ofBytes s) = s := by
  have value : (UInt64.ofNat (Bytes.ofBigEndian s)).toNat = Bytes.ofBigEndian s := by
    have bound : Bytes.ofBigEndian s < 256 ^ width := by
      rw [← Bytes.toBigEndian_ofBigEndian s, Bytes.ofBigEndian_toBigEndian, whole]
      exact Nat.mod_lt _ (by decide)
    rw [UInt64.toNat_ofNat']
    exact Nat.mod_eq_of_lt (by simpa [width] using bound)
  rw [toBytes, ofBytes, value, ← whole, Bytes.toBigEndian_ofBigEndian]

end Digest

end FeedIntake
