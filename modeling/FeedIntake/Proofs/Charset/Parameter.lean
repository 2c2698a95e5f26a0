import Mathlib.Logic.Function.Iterate
import FeedIntake.Charset.Label
import FeedIntake.Proofs.Bytes.Place

/-!
The charset that a header declares among its parameters. The parameters are gone through from
semicolon to semicolon, in as many turns as there are semicolons. Main statement: the first
parameter counts that names a charset with a label, so parameters that name none can be put in and
taken out anywhere.
-/
namespace FeedIntake.Label

open Bytes

/-- A parameter that declares a charset: its name is `charset`, in letters of either case and
between blanks, and the normal form of what stands behind the first equals sign is a label. -/
def Declares (parameter label : Bytes) : Prop :=
  ∃ name value, parameter = name ++ Mark.equal :: value ∧ Mark.equal ∉ name ∧
    lower (trim name) = ofString "charset" ∧ normalize value = label ∧ label ≠ []

/-- A parameter that declares none: one without a value, one of another name, or a charset without
a label. -/
inductive IsIdle (parameter : Bytes) : Prop where
  | bare (absent : Mark.equal ∉ parameter)
  | foreign (name value : Bytes) (whole : parameter = name ++ Mark.equal :: value)
      (absent : Mark.equal ∉ name) (other : lower (trim name) ≠ ofString "charset")
  | empty (name value : Bytes) (whole : parameter = name ++ Mark.equal :: value)
      (absent : Mark.equal ∉ name) (nothing : normalize value = [])

theorem ofParameter?_of_not_mem (parameter : Bytes) (absent : Mark.equal ∉ parameter) :
    ofParameter? parameter = none := by
  rw [ofParameter?, cut?_of_not_mem _ _ absent]

theorem ofParameter?_append_cons (name value : Bytes) (absent : Mark.equal ∉ name) :
    ofParameter? (name ++ Mark.equal :: value) =
      if lower (trim name) = ofString "charset" ∧ normalize value ≠ [] then some (normalize value)
      else none := by
  rw [ofParameter?, cut?_append_cons _ _ _ absent]
  by_cases named : lower (trim name) = ofString "charset" <;>
    by_cases empty : normalize value = [] <;> simp [named, empty]

theorem ofParameter?_eq_some_iff (parameter label : Bytes) :
    ofParameter? parameter = some label ↔ Declares parameter label := by
  constructor
  · intro found
    by_cases present : Mark.equal ∈ parameter
    · obtain ⟨name, value, rfl, absent⟩ := List.eq_append_cons_of_mem present
      rw [ofParameter?_append_cons name value absent] at found
      obtain ⟨⟨named, full⟩, same⟩ := Option.ite_none_right_eq_some.1 found
      obtain rfl := Option.some.inj same
      exact ⟨name, value, rfl, absent, named, rfl, full⟩
    · rw [ofParameter?_of_not_mem _ present] at found
      contradiction
  · rintro ⟨name, value, rfl, absent, named, rfl, full⟩
    rw [ofParameter?_append_cons name value absent, if_pos ⟨named, full⟩]

theorem ofParameter?_eq_none_iff (parameter : Bytes) :
    ofParameter? parameter = none ↔ IsIdle parameter := by
  constructor
  · intro missing
    by_cases present : Mark.equal ∈ parameter
    · obtain ⟨name, value, rfl, absent⟩ := List.eq_append_cons_of_mem present
      rw [ofParameter?_append_cons name value absent] at missing
      by_cases named : lower (trim name) = ofString "charset"
      · exact .empty name value rfl absent (by simpa [named] using missing)
      · exact .foreign name value rfl absent named
    · exact .bare present
  · intro idle
    cases idle with
    | bare absent => exact ofParameter?_of_not_mem _ absent
    | foreign name value whole absent other =>
      rw [whole, ofParameter?_append_cons name value absent, if_neg fun both => other both.1]
    | empty name value whole absent nothing =>
      rw [whole, ofParameter?_append_cons name value absent, if_neg fun both => both.2 nothing]

/-- Lists of parameters that become equal if some are put in and taken out that declare nothing. -/
inductive SameButIdle : List Bytes → List Bytes → Prop where
  | nil : SameButIdle [] []
  | kept (parameter : Bytes) (parameters others : List Bytes)
      (same : SameButIdle parameters others) :
      SameButIdle (parameter :: parameters) (parameter :: others)
  | inserted (parameter : Bytes) (parameters others : List Bytes) (idle : IsIdle parameter)
      (same : SameButIdle parameters others) : SameButIdle parameters (parameter :: others)
  | removed (parameter : Bytes) (parameters others : List Bytes) (idle : IsIdle parameter)
      (same : SameButIdle parameters others) : SameButIdle (parameter :: parameters) others

theorem SameButIdle.refl (parameters : List Bytes) : SameButIdle parameters parameters := by
  induction parameters with
  | nil => exact .nil
  | cons parameter parameters ih => exact .kept parameter _ _ ih

theorem SameButIdle.findSome?_eq (parameters others : List Bytes)
    (same : SameButIdle parameters others) :
    parameters.findSome? ofParameter? = others.findSome? ofParameter? := by
  induction same with
  | nil => rfl
  | kept parameter parameters others same ih => rw [List.findSome?_cons, List.findSome?_cons, ih]
  | inserted parameter parameters others idle same ih =>
    rw [List.findSome?_cons, (ofParameter?_eq_none_iff parameter).2 idle, ih]
  | removed parameter parameters others idle same ih =>
    rw [List.findSome?_cons, (ofParameter?_eq_none_iff parameter).2 idle, ih]

theorem ofContentType?_join (media : Bytes) (parameters : List Bytes)
    (apart : ∀ part ∈ media :: parameters, Mark.semicolon ∉ part) :
    ofContentType? (join Mark.semicolon (media :: parameters)) =
      parameters.findSome? ofParameter? := by
  rw [ofContentType?, splitOn_join _ _ (List.cons_ne_nil _ _) apart, List.tail_cons]

/-- How far the parameters of a header have been gone through: up to the semicolon at a place, or to
the end, with the label that was found. -/
inductive Scan where
  | at (start : Nat)
  | ended (label : Option Bytes)

/-- The place of the first semicolon from a place on. -/
def semicolonFrom? (header : Bytes) (start : Nat) : Option Nat :=
  (place? [Mark.semicolon] (header.drop start)).map (start + ·)

namespace Scan

def begin (header : Bytes) : Scan :=
  match semicolonFrom? header 0 with
  | some start => .at start
  | none => .ended none

/-- The parameter behind a semicolon is looked at, up to the next semicolon or the end. -/
def turn (header : Bytes) : Scan → Scan
  | .ended label => .ended label
  | .at start =>
    let stop := semicolonFrom? header (start + 1)
    let parameter := match stop with
      | some stop => (header.drop (start + 1)).take (stop - start - 1)
      | none => header.drop (start + 1)
    match ofParameter? parameter with
    | some label => .ended (some label)
    | none =>
      match stop with
      | some stop => .at stop
      | none => .ended none

theorem begin_of_not_mem (header : Bytes) (absent : Mark.semicolon ∉ header) :
    begin header = .ended none := by
  rw [begin, semicolonFrom?, List.drop_zero, place?_singleton_of_not_mem _ _ absent]
  rfl

theorem begin_append_cons (front rest : Bytes) (absent : Mark.semicolon ∉ front) :
    begin (front ++ Mark.semicolon :: rest) = .at front.length := by
  rw [begin, semicolonFrom?, List.drop_zero, place?_singleton_append_cons _ _ _ absent]
  simp

theorem drop_behind (front rest : Bytes) (sep : UInt8) :
    (front ++ sep :: rest).drop (front.length + 1) = rest := by
  rw [← List.drop_drop, List.drop_left]
  rfl

theorem turn_last (front parameter : Bytes) (absent : Mark.semicolon ∉ parameter) :
    turn (front ++ Mark.semicolon :: parameter) (.at front.length) =
      .ended (ofParameter? parameter) := by
  have stop : semicolonFrom? (front ++ Mark.semicolon :: parameter) (front.length + 1) = none := by
    rw [semicolonFrom?, drop_behind, place?_singleton_of_not_mem _ _ absent]
    rfl
  simp only [turn, stop, drop_behind]
  cases ofParameter? parameter <;> rfl

/-- A turn ends at a declared label, and goes on to the next semicolon otherwise. -/
theorem turn_next (front parameter rest : Bytes) (absent : Mark.semicolon ∉ parameter) :
    turn (front ++ Mark.semicolon :: (parameter ++ Mark.semicolon :: rest)) (.at front.length) =
      match ofParameter? parameter with
      | some label => .ended (some label)
      | none => .at (front ++ Mark.semicolon :: parameter).length := by
  have stop : semicolonFrom? (front ++ Mark.semicolon :: (parameter ++ Mark.semicolon :: rest))
      (front.length + 1) = some (front.length + 1 + parameter.length) := by
    rw [semicolonFrom?, drop_behind, place?_singleton_append_cons _ _ _ absent]
    rfl
  have width : front.length + 1 + parameter.length - front.length - 1 = parameter.length := by omega
  have place : (front ++ Mark.semicolon :: parameter).length =
      front.length + 1 + parameter.length := by
    simp only [List.length_append, List.length_cons]
    omega
  simp only [turn, stop, drop_behind, width, List.take_left, place]

/-- Each turn is for one parameter. -/
theorem iterate_turn (front parameter : Bytes) (parameters : List Bytes)
    (apart : ∀ part ∈ parameter :: parameters, Mark.semicolon ∉ part) :
    (turn (front ++ Mark.semicolon :: join Mark.semicolon (parameter :: parameters)))^[
        parameters.length + 1] (.at front.length) =
      .ended ((parameter :: parameters).findSome? ofParameter?) := by
  induction parameters generalizing front parameter with
  | nil =>
    rw [join_singleton, List.length_nil, Nat.zero_add, Function.iterate_one,
      turn_last front parameter (apart parameter List.mem_cons_self), List.findSome?_singleton]
  | cons next rest ih =>
    obtain ⟨first, others⟩ := List.forall_mem_cons.1 apart
    -- The parameter that was looked at joins the front of the header.
    have later := ih (front ++ Mark.semicolon :: parameter) next others
    rw [List.append_assoc] at later
    rw [join_cons_cons, List.length_cons, Function.iterate_succ_apply,
      turn_next front parameter _ first, List.findSome?_cons]
    cases ofParameter? parameter with
    | some label => exact Function.iterate_fixed rfl _
    | none => exact later

/-- The scan ends for every header, after one turn for each semicolon. -/
theorem iterate_turn_begin (header : Bytes) :
    (turn header)^[header.count Mark.semicolon] (begin header) =
      .ended (ofContentType? header) := by
  obtain ⟨media, parameters, split⟩ :=
    List.exists_cons_of_ne_nil (splitOn_ne_nil Mark.semicolon header)
  have apart := not_mem_of_mem_splitOn Mark.semicolon header
  have whole := join_splitOn Mark.semicolon header
  rw [split] at apart whole
  rw [← whole, count_join _ _ _ apart, ofContentType?_join _ _ apart]
  cases parameters with
  | nil => rw [join_singleton, begin_of_not_mem _ (apart media List.mem_cons_self)]; rfl
  | cons parameter parameters =>
    obtain ⟨first, others⟩ := List.forall_mem_cons.1 apart
    rw [join_cons_cons, begin_append_cons _ _ first]
    exact iterate_turn media parameter parameters others

end Scan

/-- The scan of a header ends after one turn for each semicolon. The label is that of the first
parameter that declares one, whatever stands in front of it and behind; there is none if no
parameter declares one; and it stays the same if parameters that declare none are put in and taken
out. -/
theorem first_declared_label (header : Bytes) :
    (Scan.turn header)^[header.count Mark.semicolon] (Scan.begin header) =
      .ended (ofContentType? header) ∧
    ∀ media parameters, (∀ part ∈ media :: parameters, Mark.semicolon ∉ part) →
      header = join Mark.semicolon (media :: parameters) →
      (∀ label, ofContentType? header = some label ↔
        ∃ before parameter after, parameters = before ++ parameter :: after ∧
          (∀ earlier ∈ before, IsIdle earlier) ∧ Declares parameter label) ∧
      (ofContentType? header = none ↔ ∀ parameter ∈ parameters, IsIdle parameter) ∧
      ∀ others, SameButIdle parameters others → (∀ part ∈ others, Mark.semicolon ∉ part) →
        ofContentType? (join Mark.semicolon (media :: others)) = ofContentType? header := by
  refine ⟨Scan.iterate_turn_begin header, ?_⟩
  rintro media parameters apart rfl
  rw [ofContentType?_join media parameters apart]
  refine ⟨fun label => ?_, ?_, fun others same apart' => ?_⟩
  · rw [List.findSome?_eq_some_iff]
    simp only [ofParameter?_eq_some_iff, ofParameter?_eq_none_iff]
    constructor
    · rintro ⟨before, parameter, after, split, declares, idle⟩
      exact ⟨before, parameter, after, split, idle, declares⟩
    · rintro ⟨before, parameter, after, split, idle, declares⟩
      exact ⟨before, parameter, after, split, declares, idle⟩
  · simp only [List.findSome?_eq_none_iff, ofParameter?_eq_none_iff]
  · have unseparated : ∀ part ∈ media :: others, Mark.semicolon ∉ part :=
      List.forall_mem_cons.2 ⟨apart media List.mem_cons_self, apart'⟩
    rw [ofContentType?_join media others unseparated, same.findSome?_eq]

/-- A charset without a label and another parameter, which has an equals sign in its value, stand in
front of the charset that counts. Without them the label is the same. -/
theorem first_declared_label_behind_empty :
    ofContentType? (join Mark.semicolon [ofString "text/html", ofString " Charset=\"\"",
      ofString "q=charset=x", ofString "\tCHARSET = Latin1", ofString "charset=utf-8"]) =
        some (ofString "iso-8859-1") ∧
      ofContentType? (join Mark.semicolon [ofString "text/html", ofString "\tCHARSET = Latin1",
        ofString "charset=utf-8"]) = some (ofString "iso-8859-1") := by
  have empty : IsIdle (ofString " Charset=\"\"") :=
    .empty (ofString " Charset") (ofString "\"\"") rfl (by decide) (by decide +kernel)
  have foreign : IsIdle (ofString "q=charset=x") :=
    .foreign (ofString "q") (ofString "charset=x") rfl (by decide) (by decide +kernel)
  have declares : Declares (ofString "\tCHARSET = Latin1") (ofString "iso-8859-1") :=
    ⟨ofString "\tCHARSET ", ofString " Latin1", rfl, by decide, by decide +kernel,
      by decide +kernel, by decide⟩
  obtain ⟨label, -, change⟩ := (first_declared_label _).2 (ofString "text/html")
    [ofString " Charset=\"\"", ofString "q=charset=x", ofString "\tCHARSET = Latin1",
      ofString "charset=utf-8"] (by decide) rfl
  have found := (label _).2 ⟨[ofString " Charset=\"\"", ofString "q=charset=x"], _, _, rfl,
    by simp [empty, foreign], declares⟩
  have fewer := change [ofString "\tCHARSET = Latin1", ofString "charset=utf-8"]
    (.removed _ _ _ empty (.removed _ _ _ foreign (.refl _))) (by decide)
  exact ⟨found, fewer.trans found⟩

end FeedIntake.Label
