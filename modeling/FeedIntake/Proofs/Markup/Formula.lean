import FeedIntake.Markup.Formula
import FeedIntake.Proofs.Bytes.Place

/-!
Where a document holds a formula. The closing delimiter is looked for behind the first opening one
only, which passes over no pair: whatever stands behind a later opening delimiter stands behind the
first one too. Main statement: a formula is found exactly if there is a sign of one or a pair of
delimiters anywhere, so text around a document takes none away.
-/
namespace FeedIntake.Formula

open Bytes

/-- An opening and a closing text that stand one behind the other, without sharing bytes. -/
def Encloses (opening closing s : Bytes) : Prop :=
  ∃ i j, StandsAt opening s i ∧ StandsAt closing s j ∧ i + opening.length ≤ j

theorem Encloses.append (opening closing s : Bytes) (encloses : Encloses opening closing s)
    (before after : Bytes) : Encloses opening closing (before ++ s ++ after) := by
  obtain ⟨i, j, opens, closes, apart⟩ := encloses
  refine ⟨before.length + i, before.length + j, opens.append before after,
    closes.append before after, ?_⟩
  omega

/-- The search behind the first opening text finds a closing one if there is any pair. -/
theorem isDelimited_iff (s opening closing : Bytes) :
    isDelimited s opening closing = true ↔ Encloses opening closing s := by
  rw [isDelimited]
  constructor
  · intro delimited
    split at delimited
    · next back found =>
      obtain ⟨front, rfl, opens, -⟩ := (after?_eq_some_iff _ _ _).1 found
      obtain ⟨m, closes⟩ := (occurs_iff _ _).1 delimited
      refine ⟨front.length, (front ++ opening).length + m, opens, ?_, ?_⟩
      · exact (standsAt_append_iff _ _ _ _).2 closes
      · rw [List.length_append]
        omega
    · contradiction
  · rintro ⟨i, j, opens, closes, apart⟩
    obtain ⟨first, le, isFirst⟩ := exists_standsFirstAt opening s i opens
    obtain ⟨front, back, whole, rfl⟩ := isFirst.1
    -- The first opening text ends no later than the given one, so the closing text is behind it.
    have behind : (front ++ opening).length ≤ j := by
      rw [List.length_append]
      omega
    obtain ⟨m, rfl⟩ := Nat.exists_eq_add_of_le behind
    rw [whole, standsAt_append_iff] at closes
    rw [(after?_eq_some_iff _ _ back).2 ⟨front, whole, isFirst⟩]
    exact (occurs_iff _ _).2 ⟨m, closes⟩

theorem any_signs_iff (s : Bytes) :
    signs.any (occurs · (lower s)) = true ↔ ∃ sign ∈ signs, ∃ n, StandsInAnyCaseAt sign s n := by
  simp only [List.any_eq_true, occurs_lower_iff]

theorem appears_iff_exists (s : Bytes) :
    appears s = true ↔ (∃ sign ∈ signs, ∃ n, StandsInAnyCaseAt sign s n) ∨
      ∃ pair ∈ delimiters, Encloses pair.1 pair.2 s := by
  rw [appears, Bool.or_eq_true, any_signs_iff, List.any_eq_true]
  simp only [isDelimited_iff]

/-- What makes a formula appear in a document does so in every text around it. -/
theorem appears_append (s : Bytes) (appear : appears s = true) (before after : Bytes) :
    appears (before ++ s ++ after) = true := by
  rw [appears_iff_exists] at appear ⊢
  rcases appear with ⟨sign, listed, n, stands⟩ | ⟨pair, listed, encloses⟩
  · exact .inl ⟨sign, listed, _, stands.append before after⟩
  · exact .inr ⟨pair, listed, encloses.append _ _ _ before after⟩

/-- A formula appears in a document exactly if the document names MathML, MathJax or KaTeX in
letters of either case, or holds an opening delimiter and, at least two bytes later, a closing one
of the same kind. It still does so with any text in front and behind. -/
theorem appears_iff_somewhere (s : Bytes) :
    (appears s = true ↔
      (∃ n, StandsInAnyCaseAt (ofString "<math") s n) ∨
      (∃ n, StandsInAnyCaseAt (ofString "mathjax") s n) ∨
      (∃ n, StandsInAnyCaseAt (ofString "katex") s n) ∨
      (∃ i j, i + 2 ≤ j ∧ StandsAt (ofString "$$") s i ∧ StandsAt (ofString "$$") s j) ∨
      (∃ i j, i + 2 ≤ j ∧ StandsAt (ofString "\\(") s i ∧ StandsAt (ofString "\\)") s j) ∨
      ∃ i j, i + 2 ≤ j ∧ StandsAt (ofString "\\[") s i ∧ StandsAt (ofString "\\]") s j) ∧
    (appears s = true → ∀ before after, appears (before ++ s ++ after) = true) := by
  refine ⟨?_, appears_append s⟩
  have pairs (opening closing : Bytes) (two : opening.length = 2) :
      Encloses opening closing s ↔
        ∃ i j, i + 2 ≤ j ∧ StandsAt opening s i ∧ StandsAt closing s j := by
    simp only [Encloses, two, and_comm, and_left_comm]
  rw [appears_iff_exists]
  simp only [signs, delimiters, List.map_cons, List.map_nil, List.mem_cons, List.not_mem_nil,
    or_false, exists_eq_or_imp, exists_eq_left, or_assoc]
  rw [pairs _ _ rfl, pairs _ _ rfl, pairs _ _ rfl]

/-- A formula is still found behind text that has its delimiters in another order. -/
theorem appears_iff_somewhere_behind_closing :
    appears (ofString "\\(x\\)") = true ∧
      appears (ofString "\\) $$$ \\(" ++ ofString "\\(x\\)" ++ ofString "\\[") = true := by
  have opens : StandsAt (ofString "\\(") (ofString "\\(x\\)") 0 := ⟨[], ofString "x\\)", rfl, rfl⟩
  have closes : StandsAt (ofString "\\)") (ofString "\\(x\\)") 3 := ⟨ofString "\\(x", [], rfl, rfl⟩
  have inside : appears (ofString "\\(x\\)") = true := (appears_iff_somewhere _).1.2
    (.inr (.inr (.inr (.inr (.inl ⟨0, 3, by decide, opens, closes⟩)))))
  exact ⟨inside, (appears_iff_somewhere _).2 inside _ _⟩

/-- Three dollars are no pair of delimiters: the two places share a byte. -/
example : appears (ofString "costs $$$ once") = false := by decide +kernel

end FeedIntake.Formula
