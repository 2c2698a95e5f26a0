import FeedIntake.Fetch.Relay
import FeedIntake.Proofs.Json.RoundTrip
import FeedIntake.Proofs.Utf8.Repair

/-!
What a relay is asked. Main statement: the body of a request reads as an object of four members,
whatever bytes the URL, the token and the headers are made of; they come out as they were, but for
ill-formed parts, which are replaced.
-/
namespace FeedIntake

open Utf8

namespace Json

/-- Members that are texts. -/
def strings (pairs : List (Bytes × Bytes)) : List (Bytes × Json) :=
  pairs.map fun (name, text) => (name, string text)

@[simp] theorem strings_nil : strings [] = [] := rfl

@[simp] theorem strings_cons (name text : Bytes) (pairs : List (Bytes × Bytes)) :
    strings ((name, text) :: pairs) = (name, string text) :: strings pairs := rfl

theorem lookup_strings (name : Bytes) (pairs : List (Bytes × Bytes)) :
    (strings pairs).lookup name = (pairs.lookup name).map string := by
  induction pairs with
  | nil => rfl
  | cons pair pairs ih =>
    obtain ⟨key, text⟩ := pair
    rw [strings_cons, List.lookup_cons, List.lookup_cons, ih]
    cases name == key <;> rfl

theorem ascend_strings_iff (pairs : List (Bytes × Bytes)) :
    Ascend (strings pairs) ↔ Ascend pairs := by
  simp [Ascend, strings, List.pairwise_map]

theorem exists_strings (members : List (Bytes × Json))
    (texts : ∀ member ∈ members, ∃ text, member.2 = string text) :
    ∃ pairs, members = strings pairs := by
  induction members with
  | nil => exact ⟨[], rfl⟩
  | cons member members ih =>
    obtain ⟨⟨text, first⟩, others⟩ := List.forall_mem_cons.1 texts
    obtain ⟨pairs, rfl⟩ := ih others
    exact ⟨(member.1, text) :: pairs, by rw [strings_cons, ← first]⟩

/-- An object that is made of texts holds texts. -/
theorem exists_ofMembers_strings (pairs : List (Bytes × Bytes)) :
    ∃ sorted, ofMembers (strings pairs) = object (strings sorted) ∧ Ascend sorted ∧
      ∀ name, sorted.lookup name = pairs.reverse.lookup name := by
  obtain ⟨members, made, ascend, found⟩ := exists_ofMembers (strings pairs)
  have given : ∀ name, members.lookup name = (pairs.reverse.lookup name).map string := by
    intro name
    rw [found name, strings, ← List.map_reverse]
    exact lookup_strings name pairs.reverse
  obtain ⟨sorted, rfl⟩ := exists_strings members fun member inside => by
    have value := (lookup_eq_some_iff_mem member.1 member.2 members ascend).2 inside
    rw [given] at value
    obtain ⟨text, -, same⟩ := Option.map_eq_some_iff.1 value
    exact ⟨text, same.symm⟩
  refine ⟨sorted, made, (ascend_strings_iff sorted).1 ascend, fun name => ?_⟩
  exact Option.map_injective (fun _ _ => string.inj)
    ((lookup_strings name sorted).symm.trans (given name))

theorem repairedMembers_strings (pairs : List (Bytes × Bytes)) :
    repairedMembers (strings pairs) =
      strings (pairs.map fun (name, text) => (repair name, repair text)) := by
  induction pairs with
  | nil => rfl
  | cons pair pairs ih =>
    rw [List.map_cons, strings_cons, strings_cons, repairedMembers, ih, repaired]

theorem canonicalMembers_strings (pairs : List (Bytes × Bytes)) :
    canonicalMembers (strings pairs) = strings pairs := by
  induction pairs with
  | nil => rfl
  | cons pair pairs ih => rw [strings_cons, canonicalMembers, ih, canonical_string]

theorem memberLiterals_strings (pairs : List (Bytes × Bytes)) :
    memberLiterals (strings pairs) = [] := by
  induction pairs with
  | nil => rfl
  | cons pair pairs ih => rw [strings_cons, memberLiterals, ih, literals_string, List.append_nil]

theorem isText_strings (pairs : List (Bytes × Bytes))
    (valid : ∀ pair ∈ pairs, isValid pair.1 = true ∧ isValid pair.2 = true) :
    (object (strings pairs)).IsText := by
  refine (isText_object_iff _).2 fun member inside => ?_
  obtain ⟨pair, known, rfl⟩ := List.mem_map.1 inside
  exact ⟨(valid pair known).1, (isText_string_iff _).2 (valid pair known).2⟩

/-- Under changed names the greatest of those that become the same counts. -/
theorem lookup_reverse_map_iff (rename change : Bytes → Bytes) (sorted : List (Bytes × Bytes))
    (ascend : Ascend sorted) (name shown : Bytes) :
    (sorted.map fun (key, text) => (rename key, change text)).reverse.lookup name = some shown ↔
      ∃ key text, (key, text) ∈ sorted ∧ rename key = name ∧ change text = shown ∧
        ∀ other ∈ sorted, rename other.1 = name → ¬ key < other.1 := by
  induction sorted using List.reverseRecOn with
  | nil => simp
  | append_singleton front last ih =>
    obtain ⟨ordered, -, apart⟩ := List.pairwise_append.1 ascend
    have before : ∀ member ∈ front, member.1 < last.1 :=
      fun member inside => apart member inside last (List.mem_singleton_self _)
    rw [List.map_append, List.reverse_append, List.map_singleton, List.reverse_singleton,
      List.singleton_append, List.lookup_cons]
    split
    · next same =>
      obtain rfl := eq_of_beq same
      constructor
      · intro found
        refine ⟨last.1, last.2, by simp, rfl, Option.some.inj found, fun other inside _ => ?_⟩
        rcases List.mem_append.1 inside with earlier | here
        · exact List.lt_asymm (before other earlier)
        · rw [List.mem_singleton.1 here]
          exact List.lt_irrefl _
      · rintro ⟨key, text, inside, -, rfl, greatest⟩
        rcases List.mem_append.1 inside with earlier | here
        · exact absurd (before _ earlier) (greatest last (by simp) rfl)
        · rw [← List.mem_singleton.1 here]
    · next other =>
      have apart : rename last.1 ≠ name := fun same => by simp [same] at other
      rw [ih ordered]
      constructor
      · rintro ⟨key, text, inside, named, shows, greatest⟩
        refine ⟨key, text, by simp [inside], named, shows, fun member known renamed => ?_⟩
        rcases List.mem_append.1 known with earlier | here
        · exact greatest member earlier renamed
        · exact absurd (List.mem_singleton.1 here ▸ renamed) apart
      · rintro ⟨key, text, inside, named, shows, greatest⟩
        rcases List.mem_append.1 inside with earlier | here
        · exact ⟨key, text, earlier, named, shows, fun member known =>
            greatest member (List.mem_append_left _ known)⟩
        · obtain rfl := List.mem_singleton.1 here
          exact absurd named apart

end Json

namespace Relay

/-- What a relay is told: to get the page at `url`, with these headers and with its token. -/
def question (url : Bytes) (headers : List (Bytes × Bytes)) (token : Bytes) : Json :=
  .object [
    (Bytes.ofString "headers", .object (Json.strings headers)),
    (Bytes.ofString "method", .string (Bytes.ofString "GET")),
    (Bytes.ofString "token", .string token),
    (Bytes.ofString "url", .string url)]

def repairHeaders (headers : List (Bytes × Bytes)) : List (Bytes × Bytes) :=
  headers.map fun (name, text) => (repair name, repair text)

/-- The body of a request asks with the last value of each header, everything repaired. -/
theorem requestBody_eq (url token : Bytes) (headers sorted : List (Bytes × Bytes))
    (made : Json.ofMembers (Json.strings headers) = .object (Json.strings sorted)) :
    requestBody url headers token =
      (question (repair url) (repairHeaders sorted) (repair token)).render .compact := by
  have asked : (Json.ofMembers [
      (Bytes.ofString "token", .string token),
      (Bytes.ofString "method", .string (Bytes.ofString "GET")),
      (Bytes.ofString "url", .string url),
      (Bytes.ofString "headers", .ofMembers (Json.strings headers))]) =
      question url sorted token := by
    rw [made]
    rfl
  have plain : ∀ text, isValid text = true → repair text = text := repair_of_isValid
  have repaired : (question url sorted token).repaired =
      question (repair url) (repairHeaders sorted) (repair token) := by
    simp only [question, repairHeaders, Json.repaired, Json.repairedMembers,
      Json.repairedMembers_strings]
    rw [plain (Bytes.ofString "headers") (by decide), plain (Bytes.ofString "method") (by decide),
      plain (Bytes.ofString "GET") (by decide), plain (Bytes.ofString "token") (by decide),
      plain (Bytes.ofString "url") (by decide)]
  exact congrArg (Json.render .compact) ((congrArg Json.repaired asked).trans repaired)

theorem isText_question (url token : Bytes) (headers : List (Bytes × Bytes))
    (named : isValid url = true) (secret : isValid token = true)
    (valid : ∀ header ∈ headers, isValid header.1 = true ∧ isValid header.2 = true) :
    (question url headers token).IsText := by
  have texts := Json.isText_strings headers valid
  simp only [question, Json.isText_object_iff _, List.forall_mem_cons, Json.MemberIsText,
    Json.isText_string_iff] at texts ⊢
  exact ⟨⟨by decide, texts⟩, ⟨by decide, by decide⟩, ⟨by decide, secret⟩, ⟨by decide, named⟩,
    List.forall_mem_nil _⟩

theorem not_mem_literals_question (url token literal : Bytes) (headers : List (Bytes × Bytes)) :
    literal ∉ (question url headers token).literals := by
  simp [question, Json.literals, Json.memberLiterals, Json.memberLiterals_strings]

/-- Read from its text, a question has the last of several headers with one name. -/
theorem ofText_question (url token : Bytes) (headers sorted : List (Bytes × Bytes))
    (whole : (question url headers token).IsText)
    (made : Json.ofMembers (Json.strings headers) = .object (Json.strings sorted)) :
    Json.ofText ((question url headers token).render .compact) =
      .ok (question url sorted token) := by
  rw [Json.ofText_render .compact _ whole fun literal inside =>
    absurd inside (not_mem_literals_question url token literal headers)]
  simp only [question, Json.canonical, Json.canonicalMembers, Json.canonicalMembers_strings, made]
  rfl

theorem isText_question_repair (url token : Bytes) (headers : List (Bytes × Bytes)) :
    (question (repair url) (repairHeaders headers) (repair token)).IsText := by
  refine isText_question _ _ _ (isValid_repair url) (isValid_repair token) fun header inside => ?_
  obtain ⟨given, -, rfl⟩ := List.mem_map.1 inside
  exact ⟨isValid_repair given.1, isValid_repair given.2⟩

theorem isValid_requestBody (url token : Bytes) (headers : List (Bytes × Bytes)) :
    isValid (requestBody url headers token) = true := by
  obtain ⟨sorted, made, -, -⟩ := Json.exists_ofMembers_strings headers
  rw [requestBody_eq url token headers sorted made]
  exact Json.isValid_renderAt .compact _ 0 (isText_question_repair url token sorted)
    fun literal inside => absurd inside (not_mem_literals_question _ _ literal _)

theorem mem_iff_of_lookup_eq (headers sorted : List (Bytes × Bytes)) (ascend : Json.Ascend sorted)
    (found : ∀ name, sorted.lookup name = headers.reverse.lookup name) (name text : Bytes) :
    headers.reverse.lookup name = some text ↔ (name, text) ∈ sorted := by
  rw [← found, Json.lookup_eq_some_iff_mem name text sorted ascend]

/-- Whatever the bytes, a body reads as a question with the repairs of what is asked. -/
theorem exists_ofText_requestBody (url token : Bytes) (headers : List (Bytes × Bytes)) :
    ∃ url' sorted token',
      Json.ofText (requestBody url headers token) = .ok (question url' sorted token') ∧
      Repairs url url' ∧ Repairs token token' ∧ Json.Ascend sorted ∧
      ∀ name shown, sorted.lookup name = some shown ↔
        ∃ sent text, headers.reverse.lookup sent = some text ∧ Repairs sent name ∧
          Repairs text shown ∧ ∀ other, (headers.reverse.lookup other).isSome →
            Repairs other name → ¬ sent < other := by
  obtain ⟨sorted, made, ascend, found⟩ := Json.exists_ofMembers_strings headers
  have held := mem_iff_of_lookup_eq headers sorted ascend found
  obtain ⟨last, again, ordered, known⟩ := Json.exists_ofMembers_strings (repairHeaders sorted)
  refine ⟨repair url, last, repair token, ?_, repairs_repair url, repairs_repair token, ordered,
    fun name text => ?_⟩
  · rw [requestBody_eq url token headers sorted made,
      ofText_question _ _ _ last (isText_question_repair url token sorted) again]
  · rw [known name, repairHeaders,
      Json.lookup_reverse_map_iff repair repair sorted ascend name text]
    simp only [held, repairs_iff, Option.isSome_iff_exists, Prod.forall, eq_comm (b := repair _)]
    grind

/-- Well-formed text comes out as it was. -/
theorem exists_ofText_requestBody_of_isValid (url token : Bytes) (headers : List (Bytes × Bytes))
    (named : isValid url = true) (secret : isValid token = true)
    (given : ∀ header ∈ headers, isValid header.1 = true ∧ isValid header.2 = true) :
    ∃ sorted, Json.ofText (requestBody url headers token) = .ok (question url sorted token) ∧
      Json.Ascend sorted ∧ ∀ name, sorted.lookup name = headers.reverse.lookup name := by
  obtain ⟨sorted, made, ascend, found⟩ := Json.exists_ofMembers_strings headers
  have held := mem_iff_of_lookup_eq headers sorted ascend found
  have kept : ∀ header ∈ sorted, (repair header.1, repair header.2) = header := by
    intro header inside
    obtain ⟨front, behind, whole, -⟩ :=
      List.lookup_eq_some_iff.1 ((held header.1 header.2).2 inside)
    have texts := given header (List.mem_reverse.1 (whole ▸ by simp))
    exact Prod.ext (repair_of_isValid _ texts.1) (repair_of_isValid _ texts.2)
  have same : repairHeaders sorted = sorted := (List.map_congr_left kept).trans (List.map_id sorted)
  have whole := isText_question_repair url token sorted
  have again : Json.ofMembers (Json.strings sorted) = .object (Json.strings sorted) :=
    Json.ofMembers_of_ascend _ ((Json.ascend_strings_iff sorted).2 ascend)
  rw [same] at whole
  refine ⟨sorted, ?_, ascend, found⟩
  rw [requestBody_eq url token headers sorted made, same, ofText_question _ _ _ sorted whole again,
    repair_of_isValid url named, repair_of_isValid token secret]

/-- A body reads as a question with the URL, the token and the last value of each header, in the
order of the header names, whatever bytes these are. Nothing is lost of well-formed text; ill-formed
parts are replaced, and where that makes several header names the same, the greatest of them counts.
-/
theorem ofText_requestBody (url token : Bytes) (headers : List (Bytes × Bytes)) :
    isValid (requestBody url headers token) = true ∧
    (∃ url' sorted token',
      Json.ofText (requestBody url headers token) = .ok (question url' sorted token') ∧
      Repairs url url' ∧ Repairs token token' ∧ Json.Ascend sorted ∧
      ∀ name shown, sorted.lookup name = some shown ↔
        ∃ sent text, headers.reverse.lookup sent = some text ∧ Repairs sent name ∧
          Repairs text shown ∧ ∀ other, (headers.reverse.lookup other).isSome →
            Repairs other name → ¬ sent < other) ∧
    (isValid url = true → isValid token = true →
      (∀ header ∈ headers, isValid header.1 = true ∧ isValid header.2 = true) →
      ∃ sorted, Json.ofText (requestBody url headers token) = .ok (question url sorted token) ∧
        Json.Ascend sorted ∧ ∀ name, sorted.lookup name = headers.reverse.lookup name) :=
  ⟨isValid_requestBody url token headers, exists_ofText_requestBody url token headers,
    exists_ofText_requestBody_of_isValid url token headers⟩

end Relay

end FeedIntake
