import FeedIntake.Proofs.Url.Inheritance
import FeedIntake.Proofs.Utf8.Valid
import FeedIntake.Url.Reference

/-!
URLs of well-formed texts. Everything that is read from a well-formed text is well-formed, but for
the host, whose name is percent-decoded. Main statement: what is written of such a URL is
well-formed exactly if its host is.
-/
namespace FeedIntake

open Utf8 Bytes

namespace Utf8

theorem isValid_cutLast? (sep : UInt8) (ascii : sep < 0x80) (s front rest : Bytes)
    (cut : cutLast? sep s = some (front, rest)) (valid : isValid s = true) :
    isValid front = true ∧ isValid rest = true := by
  rw [eq_of_cutLast? sep s front rest cut, isValid_append_ascii_iff _ _ _ ascii] at valid
  exact valid

/-- In front of a well-formed text stands a well-formed one, or none does. -/
theorem isValid_append_right_iff (s t : Bytes) (valid : isValid t = true) :
    isValid (s ++ t) = true ↔ isValid s = true := by
  cases t with
  | nil => rw [List.append_nil]
  | cons b t =>
    have first : isContinuation b = false := by
      refine Bool.eq_false_iff.2 fun continues => ?_
      rw [isValid_iff, State.run, State.step_start_of_continuation b continues] at valid
      contradiction
    rw [isValid_append_cons_iff s t b first]
    exact and_iff_left valid

theorem inherited_isValid : Inherited fun s => isValid s = true where
  nil := isValid_nil
  append := isValid_append
  sign b _ ascii := isValid_of_ascii [b] (List.forall_mem_singleton.2 ascii)
  cut front rest b ascii valid := by
    obtain ⟨before, behind⟩ := (isValid_append_ascii_iff front rest b ascii).1 valid
    exact ⟨before, isValid_of_ascii [b] (List.forall_mem_singleton.2 ascii), behind⟩

end Utf8

theorem Bytes.isValid_untilNul (s : Bytes) (valid : isValid s = true) :
    isValid (untilNul s) = true := by
  refine (inherited_isValid.takeWhile_dropWhile (· != 0) (fun b stop => ?_) s valid).1
  simp only [bne_eq_false_iff_eq] at stop
  rw [stop]
  decide

/-- A host of well-formed texts. -/
def Host.IsText : Host → Prop
  | name text => isValid text = true
  | bracketed text zone => isValid text = true ∧ ∀ s ∈ zone, isValid s = true

/-- What is written of a host has the faults of its texts. -/
theorem Host.isValid_render_iff (host : Host) : isValid host.render = true ↔ host.IsText := by
  cases host with
  | name text =>
    refine isValid_flatMap_iff _ text (fun b ascii => ?_) (fun b other => ?_)
    · by_cases percent : b = Mark.percent
      · subst percent
        decide +kernel
      · simp [percent, ascii]
    · have different : b ≠ Mark.percent := by
        rintro rfl
        exact other (by decide)
      simp [different]
  | bracketed text zone =>
    have close : isValid [Mark.closeBracket] = true := by decide
    cases zone with
    | none =>
      have whole : (bracketed text none).render =
          Mark.openBracket :: (text ++ [] ++ [Mark.closeBracket]) := rfl
      rw [whole, isValid_cons_iff _ _ (by decide), isValid_append_right_iff _ _ close, IsText]
      simp
    | some zone =>
      have whole : (bracketed text (some zone)).render =
          Mark.openBracket :: (text ++ Mark.percent :: 0x32 :: 0x35 :: zone
            ++ [Mark.closeBracket]) := rfl
      rw [whole, isValid_cons_iff _ _ (by decide), isValid_append_right_iff _ _ close,
        isValid_append_ascii_iff _ _ _ (by decide), isValid_cons_iff _ _ (by decide),
        isValid_cons_iff _ _ (by decide), IsText]
      simp

namespace Url

/-- A URL of which everything but the host is well-formed. -/
structure IsTextAround (url : Url) : Prop where
  login : ∀ authority ∈ url.authority, ∀ login ∈ authority.login, isValid login.render = true
  path : ∀ path ∈ url.path, isValid path = true
  query : isValid url.query = true
  fragment : isValid url.fragment = true

def HasTextHost (url : Url) : Prop := ∀ authority ∈ url.authority, authority.host.IsText

theorem isTextAround_iff (url : Url) :
    url.IsTextAround ↔ url.HasAround fun s => isValid s = true :=
  ⟨fun ⟨login, path, query, fragment⟩ => ⟨login, path, query, fragment⟩,
    fun ⟨login, path, query, fragment⟩ => ⟨login, path, query, fragment⟩⟩

/-- Of a URL that is well-formed but perhaps for its host, what is written is well-formed exactly if
the host is, too. -/
theorem IsTextAround.isValid_render_iff (url : Url) (around : url.IsTextAround) :
    isValid url.render = true ↔ url.HasTextHost := by
  have around := (isTextAround_iff url).1 around
  cases served : url.authority with
  | none => simp [around.inherits_render inherited_isValid url served, HasTextHost, served]
  | some authority =>
    obtain ⟨before, after, written, front, back⟩ :=
      around.exists_render_eq inherited_isValid url authority served
    rw [written, isValid_append_right_iff _ _ back, isValid_append_iff _ _ front,
      authority.host.isValid_render_iff]
    simp [HasTextHost, served]

theorem isTextAround_ofText? (s : Bytes) (url : Url) (read : ofText? s = some url)
    (valid : isValid s = true) : url.IsTextAround :=
  (isTextAround_iff url).2
    (hasAround_ofText? inherited_isValid s url read (isValid_untilNul s valid))

theorem isValid_encode (reference : Bytes) : isValid (encode reference) = true := by
  have ascii : ∀ b, (encodeByte false b).all (· < 0x80) = true ∧
      (encodeByte true b).all (· < 0x80) = true := forall_of_all _ (by decide +kernel)
  simp only [List.all_eq_true, decide_eq_true_eq] at ascii
  refine isValid_of_ascii _ fun c member => ?_
  rcases List.mem_append.1 member with front | behind
  · obtain ⟨b, -, written⟩ := List.mem_flatMap.1 front
    exact (ascii b).1 c written
  · obtain ⟨b, -, written⟩ := List.mem_flatMap.1 behind
    exact (ascii b).2 c written

theorem isValid_dropPart (s : Bytes) (valid : isValid s = true) : isValid (dropPart s) = true := by
  rw [dropPart]
  cases cut : cutLast? Mark.slash s with
  | none => rfl
  | some parts => exact (isValid_cutLast? _ (by decide) s parts.1 parts.2 cut valid).1

theorem isValid_repeat_dropPart (level : Nat) (s : Bytes) (valid : isValid s = true) :
    isValid (level.repeat dropPart s) = true := by
  induction level with
  | zero => exact valid
  | succ level ih => exact isValid_dropPart _ ih

/-- Only the base counts, for bytes beyond ASCII are encoded in a reference. -/
theorem isValid_joinBeside (base reference : Bytes) (valid : isValid base = true) :
    isValid (joinBeside base reference) = true := by
  have slash : isValid [Mark.slash] = true := by decide
  have between : ∀ alone : Bool, isValid (if alone then [] else [Mark.slash]) = true := by decide
  have page : isValid (base.takeWhile (· != Mark.question)) = true := by
    refine (inherited_isValid.takeWhile_dropWhile _ (fun b stop => ?_) _ valid).1
    simp only [bne_eq_false_iff_eq] at stop
    subst stop
    decide
  have place : ∀ page : Bytes, isValid page = true →
      isValid (((cutLast? Mark.slash page).map (·.1)).getD page) = true := by
    intro page valid
    cases cut : cutLast? Mark.slash page with
    | none => exact valid
    | some parts => exact (isValid_cutLast? _ (by decide) page parts.1 parts.2 cut valid).1
  have kept : isValid (if reference.head? == some Mark.question
      then base.takeWhile (· != Mark.question)
      else ((cutLast? Mark.slash (base.takeWhile (· != Mark.question))).map (·.1)).getD
        (base.takeWhile (· != Mark.question))) = true := by
    split
    · exact page
    · exact place _ page
  unfold joinBeside
  dsimp only
  split
  · exact isValid_append _ _ (isValid_append _ _ kept (between _)) (isValid_encode _)
  · next host path cut =>
    obtain ⟨host, path⟩ := inherited_isValid.of_cut? _ (by decide) _ _ _ cut kept
    refine isValid_append _ _ (isValid_append _ _ (isValid_append _ _
      (isValid_append _ _ host slash) ?_) (between _)) (isValid_encode _)
    exact isValid_repeat_dropPart _ _ path

theorem isValid_join (base : Url) (reference : Bytes) (valid : isValid base.render = true) :
    isValid (base.join reference) = true := by
  rw [render, isValid_append_iff _ _ (inherits_renderFront inherited_isValid base)] at valid
  refine isValid_append _ _ (inherits_renderFront inherited_isValid base) ?_
  split
  · refine isValid_append _ _ ?_ (isValid_encode reference)
    refine (inherited_isValid.takeWhile_dropWhile _ (fun b stop => ?_) _ valid).1
    simp only [Bool.and_eq_false_iff, bne_eq_false_iff_eq] at stop
    rcases stop with rfl | rfl <;> decide
  · exact isValid_joinBeside _ reference valid

theorem isTextAround_resolve? (base url : Url) (reference : Bytes)
    (read : base.resolve? reference = some url) (whole : isValid base.render = true)
    (valid : isValid reference = true) : url.IsTextAround := by
  rw [resolve?] at read
  split at read
  · contradiction
  split at read
  · exact isTextAround_ofText? _ url read (isValid_untilNul reference valid)
  · obtain ⟨-, -, read⟩ := Option.bind_eq_some_iff.1 read
    obtain ⟨joined, short, read⟩ := Option.bind_eq_some_iff.1 read
    rw [short?] at short
    split at short
    · exact isTextAround_ofText? joined url read
        (Option.some.inj short ▸ isValid_join base _ whole)
    · contradiction

end Url

end FeedIntake
