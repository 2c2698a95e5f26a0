import FeedIntake.Proofs.Url.Reading
import FeedIntake.Url.Reference

/-!
Links with another scheme than those of pages: `javascript:`, `mailto:`, `file:` and whatever else
may stand in front of a colon. A link is searched for a scheme in one way and a URL in another,
which knows dots in schemes and a limit of their length, too; on these links both find the same.
Main statements: such a link is left as it is, and it may not be fetched or published.
-/
namespace FeedIntake.Url

open Bytes

/-- A scheme as it stands in a link: a letter, and letters, digits, `+` and `-` behind it. -/
def IsSchemeName (name : Bytes) : Prop :=
  ∃ first rest, name = first :: rest ∧ isLetter first = true ∧
    ∀ b ∈ rest, isLetter b = true ∨ isDigit b = true ∨ b = Mark.plus ∨ b = Mark.hyphen

/-- A text that begins with a scheme and a colon, and the scheme is not one of pages, whatever the
case of its letters. -/
def IsForeign (s : Bytes) : Prop :=
  ∃ name rest, s = name ++ Mark.colon :: rest ∧ IsSchemeName name ∧
    lower name ≠ ofString "http" ∧ lower name ≠ ofString "https"

namespace IsSchemeName

variable {name : Bytes} (named : IsSchemeName name)
include named

theorem all : ∀ b ∈ name,
    isLetter b = true ∨ isDigit b = true ∨ b = Mark.plus ∨ b = Mark.hyphen := by
  obtain ⟨first, rest, rfl, letter, others⟩ := named
  exact List.forall_mem_cons.2 ⟨.inl letter, others⟩

theorem colon_not_mem : Mark.colon ∉ name := fun colon =>
  absurd (named.all Mark.colon colon) (by decide)

theorem colon_not_mem_lower : Mark.colon ∉ lower name := by
  have table : ∀ b : UInt8, lowerByte b = Mark.colon → b = Mark.colon :=
    forall_of_all _ (by decide +kernel)
  intro colon
  obtain ⟨b, member, same⟩ := List.mem_map.1 colon
  exact named.colon_not_mem (table b same ▸ member)

theorem hasSchemeForm (rest : Bytes) : hasSchemeForm (name ++ Mark.colon :: rest) = true := by
  have all := named.all
  rw [Url.hasSchemeForm, cut?_append_cons _ _ _ named.colon_not_mem]
  obtain ⟨first, others, rfl, letter, -⟩ := named
  simpa [letter, or_assoc] using all

/-- A text begins with no other scheme than that in front of its first colon. -/
theorem not_startsWith (scheme tail rest : Bytes) (absent : Mark.colon ∉ scheme)
    (other : lower name ≠ scheme) :
    startsWith (lower (name ++ Mark.colon :: rest)) (scheme ++ Mark.colon :: tail) = false := by
  have lowered : lower (name ++ Mark.colon :: rest) = lower name ++ Mark.colon :: lower rest := by
    rw [lower, List.map_append]
    rfl
  rw [lowered]
  refine Bool.eq_false_iff.2 fun begins => other ?_
  obtain ⟨behind, whole⟩ := List.isPrefixOf_iff_prefix.1 begins
  rw [List.append_assoc] at whole
  exact (parts_unique _ _ _ _ _ absent named.colon_not_mem_lower whole).1.symm

end IsSchemeName

namespace IsForeign

variable {s : Bytes} (foreign : IsForeign s)
include foreign

theorem hasWebForm : hasWebForm s = false := by
  obtain ⟨name, rest, rfl, named, http, https⟩ := foreign
  have inHttp := named.not_startsWith (ofString "http") (ofString "//") rest (by decide) http
  have inHttps := named.not_startsWith (ofString "https") (ofString "//") rest (by decide) https
  exact Bool.or_eq_false_iff.2 ⟨inHttp, inHttps⟩

/-- A zero byte can only follow the colon. -/
theorem untilNul : IsForeign (untilNul s) := by
  obtain ⟨name, rest, rfl, named, others⟩ := foreign
  refine ⟨name, Bytes.untilNul rest, ?_, named, others⟩
  have front : ∀ b ∈ name, (b != 0) = true := by
    intro b member
    refine bne_iff_ne.2 fun zero => ?_
    exact absurd (named.all b member) (zero ▸ by decide)
  rw [Bytes.untilNul, List.takeWhile_append_of_pos front]
  rfl

/-- What is read of the scheme is what stands in front of the first colon. -/
theorem scheme_of_ofText? (url : Url) (read : ofText? s = some url) :
    url.scheme.isWeb = false := by
  obtain ⟨-, found, behind, split, known, -⟩ := exists_of_ofText? s url read
  obtain ⟨name, rest, whole, named, http, https⟩ := foreign.untilNul
  obtain ⟨front, whole', absent, rfl⟩ := Scheme.eq_of_split? _ _ _ split
  obtain ⟨rfl, -⟩ := parts_unique _ _ _ _ _ absent named.colon_not_mem (whole'.symm.trans whole)
  have same := Scheme.eq_name_of_ofName? _ _ known
  generalize url.scheme = scheme at same
  cases scheme <;> first | rfl | exact absurd same http | exact absurd same https

theorem isWeb_eq_false : isWeb s = false := by
  refine Bool.eq_false_iff.2 fun web => ?_
  obtain ⟨endpoint, served, page⟩ := exists_endpoint_of_isWeb s web
  obtain ⟨url, read, served⟩ := Option.bind_eq_some_iff.1 served
  obtain ⟨authority, -, rfl⟩ := Option.map_eq_some_iff.1 served
  exact Bool.false_ne_true ((foreign.scheme_of_ofText? url read).symm.trans page)

end IsForeign

/-- A link with another scheme is left as it is, whatever document it is found in. -/
theorem normalize_of_isForeign (link base : Bytes) (foreign : IsForeign (tidy link)) :
    normalize link base = tidy link := by
  have form : hasSchemeForm (tidy link) = true := by
    obtain ⟨name, rest, whole, named, -⟩ := foreign
    rw [whole]
    exact named.hasSchemeForm rest
  have slashes : startsWith (tidy link) (ofString "//") = false ∧ (tidy link).isEmpty = false := by
    obtain ⟨_, rest, whole, ⟨first, others, rfl, letter, -⟩, -⟩ := foreign
    rw [whole]
    refine ⟨Bool.eq_false_iff.2 fun begins => ?_, rfl⟩
    obtain ⟨rfl, -⟩ := List.cons_prefix_cons.1 (List.isPrefixOf_iff_prefix.1 begins)
    contradiction
  simp [normalize, slashes, foreign.hasWebForm, form]

end FeedIntake.Url
