import Mathlib.Data.List.TakeWhile
import FeedIntake.Proofs.Url.Text

/-!
Links that lead somewhere. What is made of a well-formed link is the text of the URL that it leads
to, or the link itself. Main statements: it is well-formed exactly if what is written of that URL
is; and behind a base that is well-formed it is so exactly if the host of that URL is.
-/
namespace FeedIntake.Url

open Utf8 Bytes

/-- The URL that a link found in the document at `base` leads to. -/
def target? (link base : Bytes) : Option Url :=
  let link := tidy link
  if link.isEmpty then none
  else if startsWith link (ofString "//") then
    let scheme := ((Endpoint.ofText? base).map (·.scheme)).getD .http
    ofText? (scheme.name ++ [Mark.colon] ++ link)
  else if hasWebForm link then ofText? link
  else if hasSchemeForm link then none
  else if base.isEmpty then ofText? (ofString "http://" ++ link)
  else (ofText? base).bind (resolve? · link)

/-- The URL that a link leads to, if it can be published. -/
def published? (link base : Bytes) : Option Url :=
  (target? link base).filter fun url => url.text?.any isWeb

theorem eq_render_of_text? (url : Url) (s : Bytes) (written : url.text? = some s) :
    s = url.render := by
  rw [text?, short?] at written
  split at written
  · exact (Option.some.inj written).symm
  · contradiction

theorem isValid_tidy (s : Bytes) (valid : isValid s = true) : isValid (tidy s) = true := by
  refine isValid_trim _ (isValid_filter _ s valid fun b gone => ?_)
  simp only [Bool.and_eq_false_iff, bne_eq_false_iff_eq] at gone
  rcases gone with (rfl | rfl) | rfl <;> decide

theorem exists_of_resolve? (base url : Url) (reference : Bytes)
    (read : base.resolve? reference = some url) : ∃ s, ofText? s = some url := by
  rw [resolve?] at read
  split at read
  · contradiction
  split at read
  · exact ⟨_, read⟩
  · obtain ⟨-, -, read⟩ := Option.bind_eq_some_iff.1 read
    obtain ⟨joined, -, read⟩ := Option.bind_eq_some_iff.1 read
    exact ⟨joined, read⟩

/-- A text that a scheme was put in front of. -/
theorem isValid_scheme_append (scheme : Scheme) (s : Bytes) (valid : isValid s = true) :
    isValid (scheme.name ++ [Mark.colon] ++ s) = true := by
  have colon : isValid [Mark.colon] = true := by decide
  exact isValid_append _ _ (isValid_append _ _ (scheme.inherits_name inherited_isValid) colon) valid

/-- A blank link leads nowhere. -/
theorem target?_of_isAllBlank (link base : Bytes) (blank : isAllBlank link = true) :
    target? link base = none := by
  have gone : tidy link = [] := by
    rw [tidy]
    generalize kept : link.filter _ = rest
    have front : rest.dropWhile isBlank = [] := List.dropWhile_eq_nil_iff.2 fun b member =>
      List.all_eq_true.1 blank b (List.mem_filter.1 (kept ▸ member)).1
    rw [trim, front]
    rfl
  simp [target?, gone]

/-- What is made of a link is the text of the URL that it leads to, or the tidied link, which may
have got a front. -/
theorem exists_normalize_eq (link base : Bytes) :
    ∃ front, (front = [] ∨ front = ofString "http://" ∨
        ∃ scheme : Scheme, front = scheme.name ++ [Mark.colon]) ∧
      normalize link base = ((target? link base).bind text?).getD (front ++ tidy link) := by
  simp only [normalize, target?, normalizeAbsolute]
  split
  · exact ⟨[], .inl rfl, rfl⟩
  · split
    · exact ⟨_, .inr (.inr ⟨_, rfl⟩), rfl⟩
    · split
      · exact ⟨[], .inl rfl, rfl⟩
      · split
        · exact ⟨[], .inl rfl, rfl⟩
        · split
          · exact ⟨_, .inr (.inl rfl), rfl⟩
          · exact ⟨[], .inl rfl, rfl⟩

/-- A URL that a link leads to was read from some text. -/
theorem exists_of_target? (link base : Bytes) (url : Url) (leads : target? link base = some url) :
    ∃ s, ofText? s = some url := by
  simp only [target?] at leads
  split at leads
  · contradiction
  · split at leads
    · exact ⟨_, leads⟩
    · split at leads
      · exact ⟨_, leads⟩
      · split at leads
        · contradiction
        · split at leads
          · exact ⟨_, leads⟩
          · obtain ⟨source, -, leads⟩ := Option.bind_eq_some_iff.1 leads
            exact exists_of_resolve? source url _ leads

/-- The text that is left where a well-formed link leads to no URL is well-formed. -/
theorem normalize_eq (link base : Bytes) (valid : isValid link = true) :
    ∃ other, isValid other = true ∧
      normalize link base = ((target? link base).bind text?).getD other := by
  have tidied := isValid_tidy link valid
  obtain ⟨front, kind, made⟩ := exists_normalize_eq link base
  refine ⟨front ++ tidy link, ?_, made⟩
  rcases kind with rfl | rfl | ⟨scheme, rfl⟩
  · exact tidied
  · exact isValid_append _ _ (by decide) tidied
  · exact isValid_scheme_append scheme _ tidied

theorem isTextAround_target? (link base : Bytes) (url : Url) (leads : target? link base = some url)
    (valid : isValid link = true)
    (whole : ∀ source, ofText? base = some source → isValid source.render = true) :
    url.IsTextAround := by
  have tidied := isValid_tidy link valid
  simp only [target?] at leads
  split at leads
  · contradiction
  · split at leads
    · exact isTextAround_ofText? _ url leads (isValid_scheme_append _ _ tidied)
    · split at leads
      · exact isTextAround_ofText? _ url leads tidied
      · split at leads
        · contradiction
        · split at leads
          · exact isTextAround_ofText? _ url leads (isValid_append _ _ (by decide) tidied)
          · obtain ⟨source, read, leads⟩ := Option.bind_eq_some_iff.1 leads
            exact isTextAround_resolve? source url _ leads (whole source read) tidied

/-- What is published of a well-formed link is well-formed exactly if what is written of the URL
that it leads to is. -/
theorem isValid_web?_iff (link base : Bytes) (valid : isValid link = true) :
    (∀ s ∈ web? (normalize link base), isValid s = true) ↔
      ∀ url ∈ published? link base, isValid url.render = true := by
  obtain ⟨other, plain, made⟩ := normalize_eq link base valid
  cases leads : (target? link base).bind text? with
  | none =>
    -- The link is left as it is, and no URL is published.
    rw [leads, Option.getD_none] at made
    refine iff_of_true ?_ ?_
    · intro s published
      rw [made, web?] at published
      split at published
      · exact Option.some.inj published ▸ plain
      · contradiction
    · intro url published
      obtain ⟨found, web⟩ := Option.mem_filter_iff.1 published
      rw [Option.mem_def.1 found, Option.bind_some] at leads
      simp [leads] at web
  | some s =>
    obtain ⟨url, found, written⟩ := Option.bind_eq_some_iff.1 leads
    rw [leads, Option.getD_some] at made
    rw [made, published?, found, web?, eq_render_of_text? url s written]
    rw [eq_render_of_text? url s written] at written
    cases web : isWeb url.render <;> simp [Option.filter, written, web]

/-- Where the base is written well-formed, only the host of a published URL can be ill-formed. -/
theorem isValid_render_published?_iff (link base : Bytes) (url : Url)
    (published : url ∈ published? link base) (valid : isValid link = true)
    (whole : ∀ source, ofText? base = some source → isValid source.render = true) :
    isValid url.render = true ↔ url.HasTextHost := by
  obtain ⟨leads, -⟩ := Option.mem_filter_iff.1 published
  exact (isTextAround_target? link base url leads valid whole).isValid_render_iff

end FeedIntake.Url
