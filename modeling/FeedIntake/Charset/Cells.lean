import FeedIntake.Bytes.Basic

/-!
The repertoires of the double-byte charsets of East Asia: which single bytes are characters, which
bytes begin longer ones, and which cells of each row are assigned.
-/
namespace FeedIntake

/-- The bytes from `first` to `last`. -/
structure Span where
  first : UInt8
  last : UInt8
  deriving DecidableEq, Repr

def Span.anyHolds (spans : List Span) (b : UInt8) : Bool :=
  spans.any fun span => span.first ≤ b && b ≤ span.last

/-- Rows with the same cells: the bytes that select one of these rows, and the bytes that complete a
character in it. -/
structure Row where
  leads : List Span
  cells : List Span
  deriving DecidableEq, Repr

def Row.anyHolds (rows : List Row) (lead b : UInt8) : Bool :=
  rows.any fun row => Span.anyHolds row.leads lead && Span.anyHolds row.cells b

/-- A charset of one to three bytes a character. -/
structure DoubleByte where
  /-- The bytes that are characters by themselves. -/
  singles : List Span
  /-- The bytes that begin a longer character, whether or not any cell behind them is assigned. -/
  leads : List Span
  rows : List Row
  /-- The byte that shifts to a second plane, the bytes that may select a row of it, and its rows.
  -/
  shift : Option (UInt8 × List Span × List Row) := none
  deriving DecidableEq, Repr

namespace DoubleByte

/-- GB 2312 with its extension to the repertoire of Unicode 1.1. -/
def gbk : DoubleByte where
  singles := [⟨0x00, 0x80⟩]
  leads := [⟨0x81, 0xFE⟩]
  rows := [
    ⟨[⟨0x81, 0xA0⟩, ⟨0xB0, 0xD6⟩, ⟨0xD8, 0xF7⟩], [⟨0x40, 0x7E⟩, ⟨0x80, 0xFE⟩]⟩,
    ⟨[⟨0xA1, 0xA1⟩, ⟨0xA3, 0xA3⟩], [⟨0xA1, 0xFE⟩]⟩,
    ⟨[⟨0xA2, 0xA2⟩], [⟨0xA1, 0xAA⟩, ⟨0xB1, 0xE2⟩, ⟨0xE5, 0xEE⟩, ⟨0xF1, 0xFC⟩]⟩,
    ⟨[⟨0xA4, 0xA4⟩], [⟨0xA1, 0xF3⟩]⟩,
    ⟨[⟨0xA5, 0xA5⟩], [⟨0xA1, 0xF6⟩]⟩,
    ⟨[⟨0xA6, 0xA6⟩], [⟨0xA1, 0xB8⟩, ⟨0xC1, 0xD8⟩, ⟨0xE0, 0xEB⟩, ⟨0xEE, 0xF2⟩, ⟨0xF4, 0xF5⟩]⟩,
    ⟨[⟨0xA7, 0xA7⟩], [⟨0xA1, 0xC1⟩, ⟨0xD1, 0xF1⟩]⟩,
    ⟨[⟨0xA8, 0xA8⟩], [⟨0x40, 0x7E⟩, ⟨0x80, 0x95⟩, ⟨0xA1, 0xBB⟩, ⟨0xBD, 0xBE⟩, ⟨0xC0, 0xC0⟩,
      ⟨0xC5, 0xE9⟩]⟩,
    ⟨[⟨0xA9, 0xA9⟩], [⟨0x40, 0x57⟩, ⟨0x59, 0x5A⟩, ⟨0x5C, 0x5C⟩, ⟨0x60, 0x7E⟩, ⟨0x80, 0x88⟩,
      ⟨0x96, 0x96⟩, ⟨0xA4, 0xEF⟩]⟩,
    ⟨[⟨0xAA, 0xAF⟩, ⟨0xF8, 0xFD⟩], [⟨0x40, 0x7E⟩, ⟨0x80, 0xA0⟩]⟩,
    ⟨[⟨0xD7, 0xD7⟩], [⟨0x40, 0x7E⟩, ⟨0x80, 0xF9⟩]⟩,
    ⟨[⟨0xFE, 0xFE⟩], [⟨0x40, 0x4F⟩]⟩]

/-- The simplified Chinese of GB 2312-80. -/
def gb2312 : DoubleByte where
  singles := [⟨0x00, 0x7F⟩]
  leads := [⟨0x8E, 0x8F⟩, ⟨0xA1, 0xFE⟩]
  rows := [
    ⟨[⟨0xA1, 0xA1⟩, ⟨0xA3, 0xA3⟩, ⟨0xB0, 0xD6⟩, ⟨0xD8, 0xF7⟩], [⟨0xA1, 0xFE⟩]⟩,
    ⟨[⟨0xA2, 0xA2⟩], [⟨0xB1, 0xE2⟩, ⟨0xE5, 0xEE⟩, ⟨0xF1, 0xFC⟩]⟩,
    ⟨[⟨0xA4, 0xA4⟩], [⟨0xA1, 0xF3⟩]⟩,
    ⟨[⟨0xA5, 0xA5⟩], [⟨0xA1, 0xF6⟩]⟩,
    ⟨[⟨0xA6, 0xA6⟩], [⟨0xA1, 0xB8⟩, ⟨0xC1, 0xD8⟩]⟩,
    ⟨[⟨0xA7, 0xA7⟩], [⟨0xA1, 0xC1⟩, ⟨0xD1, 0xF1⟩]⟩,
    ⟨[⟨0xA8, 0xA8⟩], [⟨0xA1, 0xBA⟩, ⟨0xC5, 0xE9⟩]⟩,
    ⟨[⟨0xA9, 0xA9⟩], [⟨0xA4, 0xEF⟩]⟩,
    ⟨[⟨0xD7, 0xD7⟩], [⟨0xA1, 0xF9⟩]⟩]

/-- The traditional Chinese of Big Five with the usual extensions. -/
def big5 : DoubleByte where
  singles := [⟨0x00, 0x80⟩]
  leads := [⟨0xA1, 0xF9⟩]
  rows := [
    ⟨[⟨0xA1, 0xA2⟩, ⟨0xA4, 0xF9⟩], [⟨0x40, 0x7E⟩, ⟨0xA1, 0xFE⟩]⟩,
    ⟨[⟨0xA3, 0xA3⟩], [⟨0x40, 0x7E⟩, ⟨0xA1, 0xBF⟩, ⟨0xE1, 0xE1⟩]⟩]

/-- The Japanese of JIS X 0208, shifted to leave room for half-width katakana. -/
def shiftJis : DoubleByte where
  singles := [⟨0x00, 0x7F⟩, ⟨0xA1, 0xDF⟩]
  leads := [⟨0x81, 0x9F⟩, ⟨0xE0, 0xEA⟩]
  rows := [
    ⟨[⟨0x81, 0x81⟩], [⟨0x40, 0x7E⟩, ⟨0x80, 0xAC⟩, ⟨0xB8, 0xBF⟩, ⟨0xC8, 0xCE⟩, ⟨0xDA, 0xE8⟩,
      ⟨0xF0, 0xF7⟩, ⟨0xFC, 0xFC⟩]⟩,
    ⟨[⟨0x82, 0x82⟩], [⟨0x4F, 0x58⟩, ⟨0x60, 0x79⟩, ⟨0x81, 0x9A⟩, ⟨0x9F, 0xF1⟩]⟩,
    ⟨[⟨0x83, 0x83⟩], [⟨0x40, 0x7E⟩, ⟨0x80, 0x96⟩, ⟨0x9F, 0xB6⟩, ⟨0xBF, 0xD6⟩]⟩,
    ⟨[⟨0x84, 0x84⟩], [⟨0x40, 0x60⟩, ⟨0x70, 0x7E⟩, ⟨0x80, 0x91⟩, ⟨0x9F, 0xBE⟩]⟩,
    ⟨[⟨0x88, 0x88⟩], [⟨0x9F, 0xFC⟩]⟩,
    ⟨[⟨0x89, 0x97⟩, ⟨0x99, 0x9F⟩, ⟨0xE0, 0xE9⟩], [⟨0x40, 0x7E⟩, ⟨0x80, 0xFC⟩]⟩,
    ⟨[⟨0x98, 0x98⟩], [⟨0x40, 0x72⟩, ⟨0x9F, 0xFC⟩]⟩,
    ⟨[⟨0xEA, 0xEA⟩], [⟨0x40, 0x7E⟩, ⟨0x80, 0xA4⟩]⟩]

/-- The Japanese of JIS X 0208, half-width katakana behind 8E, and JIS X 0212 behind 8F. -/
def eucJp : DoubleByte where
  singles := [⟨0x00, 0x8D⟩, ⟨0x90, 0x9F⟩]
  leads := [⟨0x8E, 0x8E⟩, ⟨0xA0, 0xFE⟩]
  rows := [
    ⟨[⟨0x8E, 0x8E⟩], [⟨0xA1, 0xDF⟩]⟩,
    ⟨[⟨0xA1, 0xA1⟩, ⟨0xB0, 0xCE⟩, ⟨0xD0, 0xF3⟩], [⟨0xA1, 0xFE⟩]⟩,
    ⟨[⟨0xA2, 0xA2⟩], [⟨0xA1, 0xAE⟩, ⟨0xBA, 0xC1⟩, ⟨0xCA, 0xD0⟩, ⟨0xDC, 0xEA⟩, ⟨0xF2, 0xF9⟩,
      ⟨0xFE, 0xFE⟩]⟩,
    ⟨[⟨0xA3, 0xA3⟩], [⟨0xB0, 0xB9⟩, ⟨0xC1, 0xDA⟩, ⟨0xE1, 0xFA⟩]⟩,
    ⟨[⟨0xA4, 0xA4⟩], [⟨0xA1, 0xF3⟩]⟩,
    ⟨[⟨0xA5, 0xA5⟩], [⟨0xA1, 0xF6⟩]⟩,
    ⟨[⟨0xA6, 0xA6⟩], [⟨0xA1, 0xB8⟩, ⟨0xC1, 0xD8⟩]⟩,
    ⟨[⟨0xA7, 0xA7⟩], [⟨0xA1, 0xC1⟩, ⟨0xD1, 0xF1⟩]⟩,
    ⟨[⟨0xA8, 0xA8⟩], [⟨0xA1, 0xC0⟩]⟩,
    ⟨[⟨0xCF, 0xCF⟩], [⟨0xA1, 0xD3⟩]⟩,
    ⟨[⟨0xF4, 0xF4⟩], [⟨0xA1, 0xA6⟩]⟩]
  shift := some (0x8F, [⟨0xA2, 0xED⟩], [
    ⟨[⟨0xA2, 0xA2⟩], [⟨0xAF, 0xB9⟩, ⟨0xC2, 0xC4⟩, ⟨0xEB, 0xF1⟩]⟩,
    ⟨[⟨0xA6, 0xA6⟩], [⟨0xE1, 0xE5⟩, ⟨0xE7, 0xE7⟩, ⟨0xE9, 0xEA⟩, ⟨0xEC, 0xEC⟩, ⟨0xF1, 0xFC⟩]⟩,
    ⟨[⟨0xA7, 0xA7⟩], [⟨0xC2, 0xCE⟩, ⟨0xF2, 0xFE⟩]⟩,
    ⟨[⟨0xA9, 0xA9⟩], [⟨0xA1, 0xA2⟩, ⟨0xA4, 0xA4⟩, ⟨0xA6, 0xA6⟩, ⟨0xA8, 0xA9⟩, ⟨0xAB, 0xAD⟩,
      ⟨0xAF, 0xB0⟩, ⟨0xC1, 0xD0⟩]⟩,
    ⟨[⟨0xAA, 0xAA⟩], [⟨0xA1, 0xB8⟩, ⟨0xBA, 0xF7⟩]⟩,
    ⟨[⟨0xAB, 0xAB⟩], [⟨0xA1, 0xBB⟩, ⟨0xBD, 0xC3⟩, ⟨0xC5, 0xF7⟩]⟩,
    ⟨[⟨0xB0, 0xEC⟩], [⟨0xA1, 0xFE⟩]⟩,
    ⟨[⟨0xED, 0xED⟩], [⟨0xA1, 0xE3⟩]⟩])

/-- The Korean of KS X 1001. -/
def eucKr : DoubleByte where
  singles := [⟨0x00, 0x9F⟩]
  leads := [⟨0xA1, 0xFF⟩]
  rows := [
    ⟨[⟨0xA1, 0xA1⟩, ⟨0xA3, 0xA4⟩, ⟨0xA9, 0xA9⟩, ⟨0xB0, 0xC8⟩, ⟨0xCA, 0xFD⟩], [⟨0xA1, 0xFE⟩]⟩,
    ⟨[⟨0xA2, 0xA2⟩], [⟨0xA1, 0xE8⟩]⟩,
    ⟨[⟨0xA5, 0xA5⟩], [⟨0xA1, 0xAA⟩, ⟨0xB0, 0xB9⟩, ⟨0xC1, 0xD8⟩, ⟨0xE1, 0xF8⟩]⟩,
    ⟨[⟨0xA6, 0xA6⟩], [⟨0xA1, 0xE4⟩]⟩,
    ⟨[⟨0xA7, 0xA7⟩], [⟨0xA1, 0xEF⟩]⟩,
    ⟨[⟨0xA8, 0xA8⟩], [⟨0xA1, 0xA4⟩, ⟨0xA6, 0xA6⟩, ⟨0xA8, 0xAF⟩, ⟨0xB1, 0xFE⟩]⟩,
    ⟨[⟨0xAA, 0xAA⟩], [⟨0xA1, 0xF3⟩]⟩,
    ⟨[⟨0xAB, 0xAB⟩], [⟨0xA1, 0xF6⟩]⟩,
    ⟨[⟨0xAC, 0xAC⟩], [⟨0xA1, 0xC1⟩, ⟨0xD1, 0xF1⟩]⟩]

end DoubleByte

end FeedIntake
