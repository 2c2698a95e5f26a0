/-!
Byte strings. Everything this library reads or writes is a finite sequence of bytes: headers,
bodies, URLs and record fields come from strangers, so nothing promises that they are well-formed
text.
-/
namespace FeedIntake

/-- Text as it travels: bytes in order, of any length and any value. -/
abbrev Bytes := List UInt8

namespace Bytes

/-- The UTF-8 bytes of a literal. -/
def ofString (s : String) : Bytes := s.toUTF8.data.toList

/-- The bytes before the first zero byte; all of them if there is none. -/
def untilNul (s : Bytes) : Bytes := s.takeWhile (· != 0)

/-- The parts of `s` between the occurrences of `sep`, in order; never empty. -/
def splitOn (sep : UInt8) (s : Bytes) : List Bytes :=
  s.foldr (fun b parts =>
    if b == sep then [] :: parts
    else match parts with
      | [] => [[b]]
      | part :: rest => (b :: part) :: rest) [[]]

/-- The parts joined again, with `sep` between neighbours. -/
def join (sep : UInt8) (parts : List Bytes) : Bytes := List.intercalate [sep] parts

/-- The bytes on both sides of the first byte that satisfies `p`, that byte left out. -/
def cutAt? (p : UInt8 → Bool) (s : Bytes) : Option (Bytes × Bytes) :=
  match s.dropWhile (fun b => !p b) with
  | [] => none
  | _ :: rest => some (s.takeWhile (fun b => !p b), rest)

def cut? (sep : UInt8) (s : Bytes) : Option (Bytes × Bytes) := cutAt? (· == sep) s

def cutLast? (sep : UInt8) (s : Bytes) : Option (Bytes × Bytes) :=
  match cut? sep s.reverse with
  | none => none
  | some (after, before) => some (before.reverse, after.reverse)

/-- The rest of `s` from the first occurrence of `pattern` on, that occurrence included. -/
def from? (pattern : Bytes) : Bytes → Option Bytes
  | [] => if pattern.isEmpty then some [] else none
  | b :: rest => if pattern.isPrefixOf (b :: rest) then some (b :: rest) else from? pattern rest

/-- The bytes in front of the first occurrence of `pattern` and those behind it. -/
def breakOn? (pattern s : Bytes) : Option (Bytes × Bytes) :=
  (from? pattern s).map fun rest => (s.take (s.length - rest.length), rest.drop pattern.length)

/-- The rest of `s` behind the first occurrence of `pattern`. -/
def after? (pattern s : Bytes) : Option Bytes := (from? pattern s).map (·.drop pattern.length)

def occurs (pattern s : Bytes) : Bool := (from? pattern s).isSome

def startsWith (s start : Bytes) : Bool := start.isPrefixOf s

def endsWith (s final : Bytes) : Bool := final.isSuffixOf s

/-- Byte strings in the order of their bytes; a proper beginning comes first. -/
def lt : Bytes → Bytes → Bool
  | _, [] => false
  | [], _ :: _ => true
  | a :: as, b :: bs => a < b || (a == b && lt as bs)

theorem splitOn_ne_nil (sep : UInt8) (s : Bytes) : splitOn sep s ≠ [] := by
  induction s with
  | nil => simp [splitOn]
  | cons b rest ih =>
    simp only [splitOn, List.foldr_cons] at ih ⊢
    split
    · simp
    · split <;> simp

/-- Splitting loses nothing: joining the parts gives the text back. -/
theorem join_splitOn (sep : UInt8) (s : Bytes) : join sep (splitOn sep s) = s := by
  induction s with
  | nil => simp [splitOn, join]
  | cons b rest ih =>
    have unfolded : splitOn sep (b :: rest) = if b == sep then [] :: splitOn sep rest
        else match splitOn sep rest with
          | [] => [[b]]
          | part :: more => (b :: part) :: more := rfl
    rw [unfolded]
    obtain ⟨part, more, parts⟩ : ∃ part more, splitOn sep rest = part :: more := by
      cases h : splitOn sep rest with
      | nil => exact absurd h (splitOn_ne_nil sep rest)
      | cons part more => exact ⟨part, more, rfl⟩
    rw [parts] at ih ⊢
    split
    · next same => simp_all [join, List.intercalate, List.intersperse]
    · cases more <;> simp_all [join, List.intercalate, List.intersperse]

end Bytes

end FeedIntake
