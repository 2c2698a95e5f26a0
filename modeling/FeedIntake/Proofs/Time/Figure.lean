import Mathlib.Data.List.DropRight
import FeedIntake.Proofs.Bytes.Decimal
import FeedIntake.Time.Field

/-!
The numbers of written dates. A `Figure` is a number as the readers let it be written, with blanks
and a sign in front. Main statements: a number is read from the front of a text exactly if a figure
stands there, with all the digits that it may take; and only one figure does.
-/
namespace FeedIntake.Time

namespace Field

theorem digits_append (width : Nat) (front rest : Bytes)
    (digits : ∀ b ∈ front, Bytes.isDigit b = true) (fits : front.length ≤ width)
    (stop : front.length = width ∨ ∀ b ∈ rest.head?, Bytes.isDigit b = false) :
    Field.digits width (front ++ rest) = front := by
  rw [Field.digits, List.take_append, List.take_of_length_le fits]
  refine Bytes.takeWhile_append_of_all _ front _ digits fun b first => ?_
  rcases stop with full | stop
  · simp [full] at first
  · exact stop b (by cases rest <;> cases h : width - front.length <;> simp_all)

theorem digits_append_drop (width : Nat) (s : Bytes) :
    Field.digits width s ++ s.drop (Field.digits width s).length = s :=
  List.prefix_iff_eq_append.1 ((List.takeWhile_prefix _).trans (List.take_prefix width s))

theorem isDigit_of_mem_digits (width : Nat) (s : Bytes) :
    ∀ b ∈ Field.digits width s, Bytes.isDigit b = true :=
  List.all_eq_true.1 List.all_takeWhile

theorem length_digits_le (width : Nat) (s : Bytes) : (Field.digits width s).length ≤ width := by
  have shorter := (List.takeWhile_prefix Bytes.isDigit (l := s.take width)).length_le
  rw [List.length_take] at shorter
  exact shorter.trans (Nat.min_le_left _ _)

theorem digits_stop (width : Nat) (s : Bytes) : (Field.digits width s).length = width ∨
    ∀ b ∈ (s.drop (Field.digits width s).length).head?, Bytes.isDigit b = false := by
  induction s generalizing width with
  | nil => simp
  | cons b s ih =>
    cases width with
    | zero => simp [Field.digits]
    | succ width =>
      by_cases digit : Bytes.isDigit b
      · simpa [Field.digits, digit] using ih width
      · simp [Field.digits, digit]

end Field

/-- What stands in front of a number. -/
inductive Sign where
  | none
  | plus
  | minus
  deriving DecidableEq, Repr

def Sign.text : Sign → Bytes
  | none => []
  | plus => [Mark.plus]
  | minus => [Mark.hyphen]

def Sign.apply (n : Nat) : Sign → Int
  | minus => -n
  | _ => n

namespace Sign

/-- Whether no sign stands in front of a text unless this one does. -/
def Precedes (sign : Sign) (body : Bytes) : Prop :=
  sign = none → ∀ b ∈ body.head?, b ≠ Mark.plus ∧ b ≠ Mark.hyphen

theorem exists_precedes (s : Bytes) :
    ∃ (sign : Sign) (body : Bytes), s = sign.text ++ body ∧ sign.Precedes body := by
  cases s with
  | nil => exact ⟨none, [], rfl, by simp [Precedes]⟩
  | cons b rest =>
    by_cases positive : b = Mark.plus
    · exact ⟨plus, rest, by simp [text, positive], by simp [Precedes]⟩
    · by_cases negative : b = Mark.hyphen
      · exact ⟨minus, rest, by simp [text, negative], by simp [Precedes]⟩
      · exact ⟨none, b :: rest, rfl, by simp [Precedes, positive, negative]⟩

theorem precedes_of_isDigit (sign : Sign) (b : UInt8) (rest : Bytes)
    (digit : Bytes.isDigit b = true) : sign.Precedes (b :: rest) := by
  rintro - c ⟨rfl⟩
  constructor <;> rintro rfl <;> exact absurd digit (by decide)

theorem unique (sign other : Sign) (body rest : Bytes)
    (same : sign.text ++ body = other.text ++ rest) (precedes : sign.Precedes body)
    (precedes' : other.Precedes rest) : sign = other ∧ body = rest := by
  cases sign <;> cases other <;> simp_all [text, Precedes] <;> grind

end Sign

theorem Field.number_dropWhile (width : Nat) (s : Bytes) :
    Field.number width (s.dropWhile Bytes.isBlank) = Field.number width s := by
  rw [Field.number, Field.number, List.dropWhile_idempotent]

/-- Behind blanks and a sign, a number is what digits come next. -/
theorem Field.number_of_precedes (width : Nat) (s body : Bytes) (sign : Sign)
    (front : s.dropWhile Bytes.isBlank = sign.text ++ body) (precedes : sign.Precedes body) :
    Field.number width s =
      let found := Field.digits (width - sign.text.length) body
      if found.isEmpty then none
      else some (sign.apply (Numeral.value 10 found), body.drop found.length) := by
  rw [Field.number, front]
  cases sign with
  | none =>
    cases body with
    | nil => simp [Sign.text, Field.digits]
    | cons b rest =>
      obtain ⟨notPlus, notMinus⟩ := precedes rfl b rfl
      simp [Sign.text, Sign.apply, notPlus, notMinus]
  | plus =>
    have other : (Mark.plus == Mark.hyphen) = false := by decide
    simp [Sign.text, Sign.apply, other]
  | minus => simp [Sign.text, Sign.apply]

/-- A number of at most `width` bytes, its sign among them, as it may be written behind blanks. -/
@[ext] structure Figure (width : Nat) where
  gap : Bytes
  sign : Sign
  digits : Bytes
  gap_blank : ∀ b ∈ gap, Bytes.isBlank b = true
  digits_isDigit : ∀ b ∈ digits, Bytes.isDigit b = true
  digits_ne_nil : digits ≠ []
  fits : sign.text.length + digits.length ≤ width

namespace Figure

variable {width : Nat}

def text (figure : Figure width) : Bytes := figure.gap ++ (figure.sign.text ++ figure.digits)

def value (figure : Figure width) : Int := figure.sign.apply (Numeral.value 10 figure.digits)

/-- Whether no more digits belong to the figure if `rest` follows. -/
def EndsBefore (figure : Figure width) (rest : Bytes) : Prop :=
  figure.sign.text.length + figure.digits.length = width ∨
    ∀ b ∈ rest.head?, Bytes.isDigit b = false

theorem text_ne_nil (figure : Figure width) : figure.text ≠ [] := by
  simp [text, figure.digits_ne_nil]

theorem comma_not_mem (figure : Figure width) : Mark.comma ∉ figure.text := by
  intro comma
  rcases List.mem_append.1 comma with blank | number
  · exact absurd (figure.gap_blank _ blank) (by decide)
  · rcases List.mem_append.1 number with signed | digit
    · exact absurd signed (by cases figure.sign <;> decide)
    · exact absurd (figure.digits_isDigit _ digit) (by decide)

theorem precedes (figure : Figure width) (rest : Bytes) :
    figure.sign.Precedes (figure.digits ++ rest) := by
  obtain ⟨first, more, digits⟩ := List.exists_cons_of_ne_nil figure.digits_ne_nil
  rw [digits, List.cons_append]
  exact Sign.precedes_of_isDigit _ _ _ (figure.digits_isDigit first (by simp [digits]))

theorem dropWhile_text_append (figure : Figure width) (rest : Bytes) :
    (figure.text ++ rest).dropWhile Bytes.isBlank =
      figure.sign.text ++ (figure.digits ++ rest) := by
  obtain ⟨first, more, digits⟩ := List.exists_cons_of_ne_nil figure.digits_ne_nil
  have unblank := Bytes.isBlank_of_isDigit first (figure.digits_isDigit first (by simp [digits]))
  rw [text, List.append_assoc, List.append_assoc]
  refine Bytes.dropWhile_append_of_all _ _ _ figure.gap_blank fun b start => ?_
  cases sign : figure.sign <;> simp [sign, Sign.text, digits] at start <;> subst start
  · exact unblank
  all_goals decide

theorem digits_body (figure : Figure width) (rest : Bytes) (stop : figure.EndsBefore rest) :
    Field.digits (width - figure.sign.text.length) (figure.digits ++ rest) = figure.digits := by
  have fits := figure.fits
  refine Field.digits_append _ _ _ figure.digits_isDigit (by omega) ?_
  exact stop.imp (fun full => by omega) id

theorem number_text_append (figure : Figure width) (rest : Bytes)
    (stop : figure.EndsBefore rest) :
    Field.number width (figure.text ++ rest) = some (figure.value, rest) := by
  rw [Field.number_of_precedes width _ _ _ (figure.dropWhile_text_append rest)
    (figure.precedes rest), figure.digits_body rest stop]
  simp [figure.digits_ne_nil, value]

theorem exists_of_number (s rest : Bytes) (n : Int)
    (read : Field.number width s = some (n, rest)) :
    ∃ figure : Figure width,
      s = figure.text ++ rest ∧ figure.value = n ∧ figure.EndsBefore rest := by
  obtain ⟨sign, body, front, precedes⟩ := Sign.exists_precedes (s.dropWhile Bytes.isBlank)
  rw [Field.number_of_precedes width s body sign front precedes] at read
  simp only at read
  split at read
  · contradiction
  · next some =>
    obtain ⟨rfl, rfl⟩ := Prod.mk.inj (Option.some.inj read)
    have short := Field.length_digits_le (width - sign.text.length) body
    have found := List.length_pos_iff.2 (by simpa using some)
    have stop := Field.digits_stop (width - sign.text.length) body
    refine ⟨⟨s.takeWhile Bytes.isBlank, sign, Field.digits (width - sign.text.length) body,
      List.all_eq_true.1 List.all_takeWhile, Field.isDigit_of_mem_digits _ body,
      by simpa using some, by omega⟩, ?_, rfl, stop.imp (fun full => ?_) id⟩
    · rw [text, List.append_assoc, List.append_assoc, Field.digits_append_drop, ← front,
        List.takeWhile_append_dropWhile]
    · simp only
      omega

/-- Two figures are one if they stand in one text and end where their digits do. -/
theorem unique (figure other : Figure width) (rest behind : Bytes)
    (same : figure.text ++ rest = other.text ++ behind) (stop : figure.EndsBefore rest)
    (stop' : other.EndsBefore behind) : figure = other ∧ rest = behind := by
  have fronts := congrArg (List.dropWhile Bytes.isBlank) same
  rw [dropWhile_text_append, dropWhile_text_append] at fronts
  obtain ⟨signs, bodies⟩ := Sign.unique _ _ _ _ fronts (figure.precedes rest)
    (other.precedes behind)
  have digits := congrArg (Field.digits (width - figure.sign.text.length)) bodies
  rw [figure.digits_body rest stop, signs, other.digits_body behind stop'] at digits
  rw [digits] at bodies
  have rests := List.append_cancel_left bodies
  have gaps : figure.gap = other.gap := by
    rw [text, text, digits, signs, rests] at same
    exact List.append_cancel_right (List.append_cancel_right same)
  exact ⟨Figure.ext gaps signs digits, rests⟩

end Figure

end FeedIntake.Time
