import FeedIntake.Digest.Basic
import Std.Data.TreeMap

/-!
Checksums: what has been seen of each story, as the digest of its content under the digest of its
identity. Entries are found by identity, and a clock stamps each of them, so that they can be told
apart by age; `toList` shows them, the oldest first.
-/
namespace FeedIntake

/-- What was last seen of a story, and when. -/
structure Sighting where
  content : Digest
  stamp : Nat
  deriving DecidableEq, Repr

/-- Sightings by identity. No two of them have one stamp, and the clock is ahead of all stamps. -/
structure Checksum where
  sightings : Std.TreeMap Digest Sighting
  clock : Nat
  stamp_lt : ∀ (ident : Digest) (sighting : Sighting),
    sightings[ident]? = some sighting → sighting.stamp < clock
  stamp_inj : ∀ (ident ident' : Digest) (sighting sighting' : Sighting),
    sightings[ident]? = some sighting → sightings[ident']? = some sighting' →
    sighting.stamp = sighting'.stamp → ident = ident'

namespace Checksum

def empty : Checksum where
  sightings := {}
  clock := 0
  stamp_lt := by simp
  stamp_inj := by simp

instance : Inhabited Checksum := ⟨empty⟩

def size (checksum : Checksum) : Nat := checksum.sightings.size

def seen? (checksum : Checksum) (ident : Digest) : Option Digest :=
  checksum.sightings[ident]?.map (·.content)

/-- A story is seen now. -/
def put (checksum : Checksum) (ident content : Digest) : Checksum where
  sightings := checksum.sightings.insert ident ⟨content, checksum.clock⟩
  clock := checksum.clock + 1
  stamp_lt := by
    intro other sighting found
    rw [Std.TreeMap.getElem?_insert] at found
    split at found
    · obtain rfl := Option.some.inj found
      exact Nat.lt_succ_self _
    · exact Nat.lt_succ_of_lt (checksum.stamp_lt _ _ found)
  stamp_inj := by
    intro first second sighting sighting' found found' same
    rw [Std.TreeMap.getElem?_insert] at found found'
    split at found <;> split at found'
    · next h h' =>
      exact (Std.LawfulEqCmp.eq_of_compare h).symm.trans (Std.LawfulEqCmp.eq_of_compare h')
    · obtain rfl := Option.some.inj found
      exact absurd same (Nat.ne_of_gt (checksum.stamp_lt _ _ found'))
    · obtain rfl := Option.some.inj found'
      exact absurd same (Nat.ne_of_lt (checksum.stamp_lt _ _ found))
    · exact checksum.stamp_inj _ _ _ _ found found' same

/-- The content of a story is recorded; true if the story is new or has changed. -/
def update (checksum : Checksum) (ident content : Bytes) : Bool × Checksum :=
  let ident := Digest.ofText ident
  let content := Digest.ofText content
  (checksum.seen? ident != some content, checksum.put ident content)

/-- A sighting in its place among others in the order of their stamps. -/
def insertByAge (entry : Digest × Sighting) : List (Digest × Sighting) → List (Digest × Sighting)
  | [] => [entry]
  | other :: rest =>
    if entry.2.stamp < other.2.stamp then entry :: other :: rest
    else other :: insertByAge entry rest

/-- Sightings in the order of their stamps. -/
def byAge (entries : List (Digest × Sighting)) : List (Digest × Sighting) :=
  entries.foldr insertByAge []

/-- The identities and contents that have been seen, the oldest first. -/
def toList (checksum : Checksum) : List (Digest × Digest) :=
  (byAge checksum.sightings.toList).map fun entry => (entry.1, entry.2.content)

/-- A checksum that has seen these one after the other. -/
def record (checksum : Checksum) (entries : List (Digest × Digest)) : Checksum :=
  entries.foldl (fun checksum entry => checksum.put entry.1 entry.2) checksum

end Checksum

end FeedIntake
