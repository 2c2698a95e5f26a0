import FeedIntake.Checksum.Basic
import FeedIntake.Numeral

/-!
Checksums as they are stored: a byte for the version of the format, and then the two digests of each
entry, the oldest first.
-/
namespace FeedIntake

/-- Why some bytes are no stored checksum. -/
inductive ChecksumError where
  | empty
  | unsupportedVersion (version : UInt8)
  /-- The length, which leaves a part of an entry at the end. -/
  | truncated (length : Nat)
  deriving DecidableEq, Repr

namespace ChecksumError

def code : ChecksumError → Bytes
  | empty => Bytes.ofString "empty_checksum"
  | unsupportedVersion _ => Bytes.ofString "unsupported_version"
  | truncated _ => Bytes.ofString "truncated_checksum"

def message : ChecksumError → Bytes
  | empty => Bytes.ofString "Checksum data is empty"
  | unsupportedVersion version =>
    Bytes.ofString "Unsupported checksum version " ++ Numeral.decimal version.toNat
  | truncated length =>
    Bytes.ofString "Checksum data length " ++ Numeral.decimal length
      ++ Bytes.ofString " is not a whole number of entries"

end ChecksumError

namespace Checksum

def version : UInt8 := 1

def entryWidth : Nat := 2 * Digest.width

/-- How many entries are stored where no number is given. -/
def usualLimit : Nat := 300

def encodeEntry (entry : Digest × Digest) : Bytes :=
  Digest.toBytes entry.1 ++ Digest.toBytes entry.2

def latest {Item : Type} (limit : Nat) (items : List Item) : List Item :=
  items.drop (items.length - limit)

/-- The bytes that store the latest entries. -/
def dump (checksum : Checksum) (limit : Nat) : Bytes :=
  version :: (latest limit checksum.toList).flatMap encodeEntry

/-- The first entries that some bytes store. -/
def decodeEntries : Nat → Bytes → List (Digest × Digest)
  | 0, _ => []
  | count + 1, s =>
    (Digest.ofBytes (s.take Digest.width),
      Digest.ofBytes ((s.drop Digest.width).take Digest.width))
      :: decodeEntries count (s.drop entryWidth)

/-- The checksum that some bytes store; of two entries of one identity the later counts. -/
def load : Bytes → Except ChecksumError Checksum
  | [] => .error .empty
  | format :: entries =>
    if format != version then .error (.unsupportedVersion format)
    else if entries.length % entryWidth != 0 then .error (.truncated (entries.length + 1))
    else .ok (empty.record (decodeEntries (entries.length / entryWidth) entries))

end Checksum

end FeedIntake
