import FeedIntake.Bytes.Ascii

/-!
Formulas in HTML: whether a document holds MathML, names a program that sets formulas, or has
delimiters of formulas in it.
-/
namespace FeedIntake.Formula

/-- What tells of formulas by itself, in letters of either case. -/
def signs : List Bytes := ["<math", "mathjax", "katex"].map Bytes.ofString

/-- What stands in front of a formula and what behind it. -/
def delimiters : List (Bytes × Bytes) :=
  [("$$", "$$"), ("\\(", "\\)"), ("\\[", "\\]")].map fun (opening, closing) =>
    (Bytes.ofString opening, Bytes.ofString closing)

/-- Whether the closing text occurs somewhere behind the first opening text. -/
def isDelimited (s opening closing : Bytes) : Bool :=
  match Bytes.after? opening s with
  | some rest => Bytes.occurs closing rest
  | none => false

def appears (s : Bytes) : Bool :=
  let lower := Bytes.lower s
  signs.any (Bytes.occurs · lower)
    || delimiters.any fun (opening, closing) => isDelimited s opening closing

end FeedIntake.Formula
