import FeedIntake.Bytes.Basic
import FeedIntake.Bytes.Mark

/-!
The ASCII classes of bytes and the text operations that rest on them: letter case, blanks at the
ends, runs of blanks. Bytes from 0x80 on belong to no class, whatever they encode.
-/
namespace FeedIntake.Bytes

def isDigit (b : UInt8) : Bool := 0x30 ≤ b && b ≤ 0x39

def isUpper (b : UInt8) : Bool := 0x41 ≤ b && b ≤ 0x5A

def isLower (b : UInt8) : Bool := 0x61 ≤ b && b ≤ 0x7A

def isLetter (b : UInt8) : Bool := isUpper b || isLower b

/-- Space, tab, line feed, vertical tab, form feed or carriage return. -/
def isBlank (b : UInt8) : Bool := b == Mark.space || (0x09 ≤ b && b ≤ 0x0D)

def hexDigit? (b : UInt8) : Option Nat :=
  if isDigit b then some (b.toNat - 0x30)
  else if 0x41 ≤ b && b ≤ 0x46 then some (b.toNat - 0x37)
  else if 0x61 ≤ b && b ≤ 0x66 then some (b.toNat - 0x57)
  else none

def isHexDigit (b : UInt8) : Bool := (hexDigit? b).isSome

def lowerByte (b : UInt8) : UInt8 := if isUpper b then b + 0x20 else b

def upperByte (b : UInt8) : UInt8 := if isLower b then b - 0x20 else b

def lower (s : Bytes) : Bytes := s.map lowerByte

def upper (s : Bytes) : Bytes := s.map upperByte

/-- Without the bytes that satisfy `p` at the end. -/
def dropEndWhile (p : UInt8 → Bool) (s : Bytes) : Bytes := (s.reverse.dropWhile p).reverse

def trim (s : Bytes) : Bytes := dropEndWhile isBlank (s.dropWhile isBlank)

def isAllBlank (s : Bytes) : Bool := s.all isBlank

/-- What a pass over a text has kept: the bytes so far, last first, and whether blanks were seen
since the last of them. -/
structure Squeeze where
  kept : Bytes
  pending : Bool

/-- A blank is only noted, and only behind a kept byte; the next other byte brings one space. -/
def Squeeze.step (state : Squeeze) (b : UInt8) : Squeeze :=
  if isBlank b then ⟨state.kept, !state.kept.isEmpty⟩
  else if state.pending then ⟨b :: Mark.space :: state.kept, false⟩
  else ⟨b :: state.kept, false⟩

/-- Each run of blanks becomes one space, and the runs at the ends disappear. -/
def collapse (s : Bytes) : Bytes := (s.foldl Squeeze.step ⟨[], false⟩).kept.reverse

/-- The maximal runs of bytes that are not blank, in order. -/
def words (s : Bytes) : List Bytes :=
  (s.foldr (fun b parts =>
    if isBlank b then [] :: parts
    else match parts with
      | [] => [[b]]
      | part :: rest => (b :: part) :: rest) [[]]).filter (!·.isEmpty)

/-- A test that all 256 bytes pass holds of every byte. -/
theorem holds_of_all (test : UInt8 → Bool)
    (all : (List.range 256).all (fun n => test (UInt8.ofNat n)) = true) (b : UInt8) :
    test b = true := by
  have passed := List.all_eq_true.1 all b.toNat (List.mem_range.2 b.toNat_lt)
  simpa using passed

theorem forall_of_all (p : UInt8 → Prop) [DecidablePred p]
    (all : (List.range 256).all (fun n => decide (p (UInt8.ofNat n))) = true) (b : UInt8) : p b :=
  of_decide_eq_true (holds_of_all (fun b => decide (p b)) all b)

@[simp] theorem lowerByte_lowerByte (b : UInt8) : lowerByte (lowerByte b) = lowerByte b := by
  simpa using holds_of_all (fun b => lowerByte (lowerByte b) == lowerByte b) (by decide +kernel) b

@[simp] theorem lower_lower (s : Bytes) : lower (lower s) = lower s := by
  simp [lower]

theorem isLetter_lowerByte (b : UInt8) : isLetter (lowerByte b) = isLetter b :=
  forall_of_all (fun b => isLetter (lowerByte b) = isLetter b) (by decide +kernel) b

theorem lowerByte_of_not_isLetter (b : UInt8) (other : isLetter b = false) : lowerByte b = b := by
  rw [isLetter, Bool.or_eq_false_iff] at other
  rw [lowerByte, other.1]
  rfl

theorem lower_of_not_isLetter (s : Bytes) (others : ∀ b ∈ s, isLetter b = false) :
    lower s = s :=
  (List.map_congr_left fun b member => lowerByte_of_not_isLetter b (others b member)).trans
    (List.map_id s)

theorem lower_eq_iff_of_not_isLetter (s pattern : Bytes)
    (others : ∀ b ∈ pattern, isLetter b = false) : lower s = pattern ↔ s = pattern := by
  constructor
  · rintro rfl
    have plain : ∀ b ∈ s, isLetter b = false := fun b member => by
      rw [← isLetter_lowerByte]
      exact others _ (List.mem_map_of_mem member)
    exact (lower_of_not_isLetter s plain).symm
  · rintro rfl
    exact lower_of_not_isLetter s others

end FeedIntake.Bytes
