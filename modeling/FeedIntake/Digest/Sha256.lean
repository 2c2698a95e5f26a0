import FeedIntake.Bytes.BigEndian

/-!
The SHA-256 hash: a message is padded to whole blocks of 64 bytes, and each block stirs a state of
eight words in 64 rounds.
-/
namespace FeedIntake.Sha256

/-- The words between two rounds. -/
structure State where
  a : UInt32
  b : UInt32
  c : UInt32
  d : UInt32
  e : UInt32
  f : UInt32
  g : UInt32
  h : UInt32
  deriving DecidableEq, Repr

namespace State

/-- The first state: bits behind the point of the square roots of the first eight primes. -/
def first : State :=
  ⟨0x6A09E667, 0xBB67AE85, 0x3C6EF372, 0xA54FF53A, 0x510E527F, 0x9B05688C, 0x1F83D9AB, 0x5BE0CD19⟩

def words (s : State) : List UInt32 := [s.a, s.b, s.c, s.d, s.e, s.f, s.g, s.h]

def add (s t : State) : State :=
  ⟨s.a + t.a, s.b + t.b, s.c + t.c, s.d + t.d, s.e + t.e, s.f + t.f, s.g + t.g, s.h + t.h⟩

end State

/-- The constants of the rounds: bits behind the point of the cube roots of the first 64 primes. -/
def constants : List UInt32 := [
  0x428A2F98, 0x71374491, 0xB5C0FBCF, 0xE9B5DBA5, 0x3956C25B, 0x59F111F1, 0x923F82A4, 0xAB1C5ED5,
  0xD807AA98, 0x12835B01, 0x243185BE, 0x550C7DC3, 0x72BE5D74, 0x80DEB1FE, 0x9BDC06A7, 0xC19BF174,
  0xE49B69C1, 0xEFBE4786, 0x0FC19DC6, 0x240CA1CC, 0x2DE92C6F, 0x4A7484AA, 0x5CB0A9DC, 0x76F988DA,
  0x983E5152, 0xA831C66D, 0xB00327C8, 0xBF597FC7, 0xC6E00BF3, 0xD5A79147, 0x06CA6351, 0x14292967,
  0x27B70A85, 0x2E1B2138, 0x4D2C6DFC, 0x53380D13, 0x650A7354, 0x766A0ABB, 0x81C2C92E, 0x92722C85,
  0xA2BFE8A1, 0xA81A664B, 0xC24B8B70, 0xC76C51A3, 0xD192E819, 0xD6990624, 0xF40E3585, 0x106AA070,
  0x19A4C116, 0x1E376C08, 0x2748774C, 0x34B0BCB5, 0x391C0CB3, 0x4ED8AA4A, 0x5B9CCA4F, 0x682E6FF3,
  0x748F82EE, 0x78A5636F, 0x84C87814, 0x8CC70208, 0x90BEFFFA, 0xA4506CEB, 0xBEF9A3F7, 0xC67178F2]

/-- A word turned to the right; what falls out there comes in on the left. -/
def turn (x n : UInt32) : UInt32 := x >>> n ||| x <<< (32 - n)

def State.round (s : State) (constant word : UInt32) : State :=
  let stir := turn s.e 6 ^^^ turn s.e 11 ^^^ turn s.e 25
  let choice := (s.e &&& s.f) ^^^ (~~~s.e &&& s.g)
  let added := s.h + stir + choice + constant + word
  let blend := turn s.a 2 ^^^ turn s.a 13 ^^^ turn s.a 22
  let majority := (s.a &&& s.b) ^^^ (s.a &&& s.c) ^^^ (s.b &&& s.c)
  ⟨added + blend + majority, s.a, s.b, s.c, s.d + added, s.e, s.f, s.g⟩

/-- The word that follows sixteen words of a message. -/
def nextWord (window : List UInt32) : UInt32 :=
  let early := window.getD 1 0
  let late := window.getD 14 0
  window.getD 0 0 + (turn early 7 ^^^ turn early 18 ^^^ early >>> 3) + window.getD 9 0
    + (turn late 17 ^^^ turn late 19 ^^^ late >>> 10)

/-- The rounds with these constants, where `window` holds the next sixteen words. -/
def rounds : List UInt32 → List UInt32 → State → State
  | constant :: constants, word :: later, s =>
    rounds constants (later ++ [nextWord (word :: later)]) (s.round constant word)
  | _, _, s => s

def wordsOf : Bytes → List UInt32
  | a :: b :: c :: d :: rest => (Bytes.ofBigEndian [a, b, c, d]).toUInt32 :: wordsOf rest
  | _ => []

def State.compress (s : State) (block : Bytes) : State :=
  s.add (rounds constants (wordsOf block) s)

/-- How many zero bytes come behind a message of this length. -/
def padding (length : Nat) : Nat := (119 - length % 64) % 64

/-- A message with a mark at its end, zeros, and its length in bits. -/
def pad (message : Bytes) : Bytes :=
  message ++ 0x80 :: (List.replicate (padding message.length) 0
    ++ Bytes.toBigEndian 8 (8 * message.length))

/-- A state stirred by the first blocks of a text. -/
def absorb : Nat → State → Bytes → State
  | 0, s, _ => s
  | count + 1, s, text => absorb count (s.compress (text.take 64)) (text.drop 64)

/-- The 32 bytes of the hash of a message. -/
def hash (message : Bytes) : Bytes :=
  let padded := pad message
  (absorb (padded.length / 64) .first padded).words.flatMap fun word =>
    Bytes.toBigEndian 4 word.toNat

theorem length_pad (message : Bytes) : (pad message).length % 64 = 0 := by
  simp only [pad, padding, List.length_append, List.length_cons, List.length_replicate,
    Bytes.length_toBigEndian]
  omega

theorem length_hash (message : Bytes) : (hash message).length = 32 := by
  simp [hash, State.words]

end FeedIntake.Sha256
