import FeedIntake.Bytes.Ascii
import FeedIntake.Charset.Cells

/-!
Charsets and their decoders. A decoder is a judgement on the bytes of one character: whether they
are a whole one, the beginning of one, or neither. A body decodes if it is a sequence of whole
characters, except that one cut off at its end may leave a beginning there.

The table has the charsets that pages come in most. There are some hundreds more, which only a
library knows; so does it alone know which charsets bytes look like. `Library` is what is asked of
it.
-/
namespace FeedIntake

inductive Charset where
  | utf8
  | ascii
  | latin1
  | windows1252
  | windows1251
  | utf16 (bigEndian : Bool)
  | doubleByte (cells : DoubleByte)
  deriving DecidableEq, Repr

namespace Charset

/-- What some bytes behind a whole number of characters are. -/
inductive Judgement where
  | whole
  /-- The beginning of a character, which may yet turn out not to be one. -/
  | part
  | invalid
  deriving DecidableEq, Repr

/-- A charset of one byte a character, by its unassigned bytes. -/
def judgeSingle (unassigned : UInt8 → Bool) : Bytes → Judgement
  | [b] => if unassigned b then .invalid else .whole
  | _ => .invalid

/-- The number of bytes in the UTF-8 form that a byte begins, with forms of up to six bytes. -/
def utf8Width? (b : UInt8) : Option Nat :=
  if b < 0x80 then some 1
  else if b < 0xC2 then none
  else if b < 0xE0 then some 2
  else if b < 0xF0 then some 3
  else if b < 0xF8 then some 4
  else if b < 0xFC then some 5
  else if b < 0xFE then some 6
  else none

/-- The number that a UTF-8 form of `width` bytes encodes. -/
def utf8Value (width : Nat) (first : UInt8) (rest : Bytes) : Nat :=
  rest.foldl (fun n b => n * 64 + b.toNat % 64) (first.toNat % (1 <<< (7 - width)))

/-- UTF-8 for numbers below 2^31: no overlong form and no surrogate, each told only from a form with
all its bytes. -/
def judgeUtf8 : Bytes → Judgement
  | [] => .part
  | first :: rest =>
    match utf8Width? first with
    | none => .invalid
    | some width =>
      if rest.any fun b => b &&& 0xC0 != 0x80 then .invalid
      else if rest.length + 1 < width then .part
      else
        let value := utf8Value width first rest
        if 2 < width && value < 1 <<< (5 * width - 4) then .invalid
        else if 0xD800 ≤ value && value < 0xE000 then .invalid
        else .whole

/-- UTF-16: a unit of two bytes, or a pair of surrogates. -/
def judgeUtf16 (bigEndian : Bool) : Bytes → Judgement
  | [a, b] =>
    let high := if bigEndian then a else b
    if 0xD8 ≤ high && high < 0xDC then .part
    else if 0xDC ≤ high && high < 0xE0 then .invalid
    else .whole
  | [_, _, c, d] =>
    let high := if bigEndian then c else d
    if 0xDC ≤ high && high < 0xE0 then .whole else .invalid
  | _ => .part

/-- One to three bytes by the tables of a charset. -/
def judgeDoubleByte (cells : DoubleByte) : Bytes → Judgement
  | [b] =>
    if Span.anyHolds cells.singles b then .whole
    else if Span.anyHolds cells.leads b || cells.shift.any (·.1 == b) then .part
    else .invalid
  | [a, b] =>
    match cells.shift with
    | some (shift, leads, _) =>
      if a == shift then if Span.anyHolds leads b then .part else .invalid
      else if Row.anyHolds cells.rows a b then .whole else .invalid
    | none => if Row.anyHolds cells.rows a b then .whole else .invalid
  | [_, b, c] =>
    match cells.shift with
    | some (_, _, rows) => if Row.anyHolds rows b c then .whole else .invalid
    | none => .invalid
  | _ => .part

def judge : Charset → Bytes → Judgement
  | utf8 => judgeUtf8
  | ascii => judgeSingle (0x80 ≤ ·)
  | latin1 => judgeSingle fun _ => false
  | windows1252 => judgeSingle [0x81, 0x8D, 0x8F, 0x90, 0x9D].contains
  | windows1251 => judgeSingle [0x98].contains
  | utf16 bigEndian => judgeUtf16 bigEndian
  | doubleByte cells => judgeDoubleByte cells

/-- Whether a body that goes on behind the bytes `part` of a character decodes; a beginning of a
character may be left over at the end if the body was cut off there. -/
def decodesFrom (charset : Charset) (isCut : Bool) (part : Bytes) : Bytes → Bool
  | [] => part.isEmpty || isCut
  | b :: rest =>
    match charset.judge (part ++ [b]) with
    | .whole => charset.decodesFrom isCut [] rest
    | .part => charset.decodesFrom isCut (part ++ [b]) rest
    | .invalid => false

/-- Whether a body decodes; `isCut` tells that it is only the beginning of one. -/
def decodes (charset : Charset) (isCut : Bool) (body : Bytes) : Bool :=
  charset.decodesFrom isCut [] body

def names : List (List String × Charset) := [
  (["UTF-8", "UTF8", "ISO-IR-193", "OSF05010001", "ISO-10646/UTF8", "ISO-10646/UTF-8"], utf8),
  (["", "US-ASCII", "ASCII", "US", "ANSI_X3.4-1968", "ANSI_X3.4-1986", "ISO-IR-6",
    "ISO_646.IRV:1991", "ISO646-US", "IBM367", "CP367", "CSASCII", "OSF00010020"], ascii),
  (["ISO-8859-1", "ISO_8859-1", "ISO8859-1", "ISO88591", "ISO_8859-1:1987", "8859_1", "LATIN1",
    "L1", "CP819", "IBM819", "ISO-IR-100", "CSISOLATIN1", "OSF00010001"], latin1),
  (["WINDOWS-1252", "CP1252", "MS-ANSI"], windows1252),
  (["WINDOWS-1251", "CP1251", "MS-CYRL"], windows1251),
  (["UTF-16LE", "UTF16LE"], utf16 false),
  (["UTF-16BE", "UTF16BE"], utf16 true),
  (["GBK", "CP936", "MS936", "WINDOWS-936", "GB13000"], doubleByte .gbk),
  (["GB2312", "EUC-CN", "EUCCN", "CN-GB", "CSGB2312"], doubleByte .gb2312),
  (["BIG5", "BIG-5", "BIG-FIVE", "BIGFIVE", "CN-BIG5", "CP950"], doubleByte .big5),
  (["SHIFT_JIS", "SHIFT-JIS", "SJIS", "MS_KANJI", "CSSHIFTJIS"], doubleByte .shiftJis),
  (["EUC-JP", "EUCJP", "UJIS", "CSEUCPKDFMTJAPANESE", "OSF00030010"], doubleByte .eucJp),
  (["EUC-KR", "EUCKR", "CSEUCKR", "OSF0004000A"], doubleByte .eucKr)]

/-- A byte that counts in the name of a charset; all others are passed over. -/
def isNameByte (b : UInt8) : Bool :=
  Bytes.isLetter b || Bytes.isDigit b || b == Mark.underscore || b == Mark.hyphen
    || b == Mark.colon || b == Mark.dot || b == Mark.comma || b == Mark.slash

/-- Without separators and blanks at the end. -/
def dropSeparators (s : Bytes) : Bytes :=
  Bytes.dropEndWhile (fun b => Bytes.isBlank b || b == Mark.comma || b == Mark.slash) s

/-- The part of a name in front of its second slash, behind which only options stand. -/
def dropOptions (s : Bytes) : Bytes :=
  let s := dropSeparators s
  match Bytes.splitOn Mark.slash s with
  | first :: second :: _ :: _ => dropSeparators (first ++ [Mark.slash] ++ second)
  | _ => s

/-- A name as the table has it: in upper case, with the bytes that count, and without a slash behind
which none is left. -/
def plainName (name : Bytes) : Bytes :=
  Bytes.dropEndWhile (· == Mark.slash)
    (Bytes.upper ((dropOptions (Bytes.untilNul name)).filter isNameByte))

/-- The charset with this name, in any case and up to a zero byte; no name at all means ASCII. -/
def ofName? (name : Bytes) : Option Charset :=
  let plain := plainName name
  (names.find? fun entry => entry.1.any fun known => Bytes.ofString known == plain).map (·.2)

/-- What a library knows of charsets. -/
class Library where
  /-- Whether a body, or the beginning of one that is cut off, decodes under a charset that is not
  in the table. -/
  decodes (name : Bytes) (isCut : Bool) (body : Bytes) : Bool
  /-- The charsets that some bytes look like by their statistic, the likeliest first. -/
  guesses (front : Bytes) : List Bytes
  /-- Names are made of letters, digits, hyphens and underscores. -/
  isPlain_of_mem_guesses : ∀ front, ∀ name ∈ guesses front, ∀ b ∈ name,
    (Bytes.isLetter b || Bytes.isDigit b || b == Mark.hyphen || b == Mark.underscore) = true

/-- A library that knows nothing beyond the table, and makes no guesses. -/
instance (priority := low) Library.blank : Library where
  decodes _ _ _ := false
  guesses _ := []
  isPlain_of_mem_guesses _ _ guess := absurd guess List.not_mem_nil

variable [Library]

/-- Whether a body decodes under the charset with this name, of the table or of the library. -/
def decodesAs (name : Bytes) (isCut : Bool) (body : Bytes) : Bool :=
  match ofName? name with
  | some charset => charset.decodes isCut body
  | none => Library.decodes name isCut body

end Charset

end FeedIntake
