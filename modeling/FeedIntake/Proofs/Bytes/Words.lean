import Mathlib.Data.List.Basic
import FeedIntake.Proofs.Bytes.Blank

/-!
Texts in words. `InWords` says how a text is written in words with blanks around them. Main
statements: every text is written so in exactly one way; collapsing it leaves these words with one
space between neighbours; and what blanks stand around a line or between two lines makes no
difference to them.
-/
namespace FeedIntake.Bytes

/-- A text in words without blanks, which stand between blanks, at least one between two words. -/
inductive InWords : List Bytes → Bytes → Prop
  | blanks (gap : Bytes) (blank : ∀ b ∈ gap, isBlank b = true) : InWords [] gap
  | word (gap word rest : Bytes) (words : List Bytes) (blank : ∀ b ∈ gap, isBlank b = true)
      (full : word ≠ []) (unblank : ∀ b ∈ word, isBlank b = false)
      (ends : ∀ b ∈ rest.head?, isBlank b = true) (behind : InWords words rest) :
      InWords (word :: words) (gap ++ word ++ rest)

theorem InWords.cons_blank (b : UInt8) (s : Bytes) (words : List Bytes) (blank : isBlank b = true)
    (inWords : InWords words s) : InWords words (b :: s) := by
  cases inWords with
  | blanks gap all => exact .blanks (b :: s) (List.forall_mem_cons.2 ⟨blank, all⟩)
  | word gap word rest words all full unblank ends behind =>
    exact .word (b :: gap) word rest words (List.forall_mem_cons.2 ⟨blank, all⟩) full unblank ends
      behind

/-- A byte that is not blank begins a word, or joins the one that it stands in front of. -/
theorem InWords.exists_cons (b : UInt8) (s : Bytes) (words : List Bytes) (other : isBlank b = false)
    (inWords : InWords words s) : ∃ words, InWords words (b :: s) := by
  have alone : ∀ c ∈ [b], isBlank c = false := List.forall_mem_singleton.2 other
  cases inWords with
  | blanks gap all =>
    exact ⟨[[b]], .word [] [b] s [] nofun (List.cons_ne_nil _ _) alone
      (fun c first => all c (List.mem_of_mem_head? first)) (.blanks s all)⟩
  | word gap word rest words all full unblank ends behind =>
    cases gap with
    | nil =>
      exact ⟨(b :: word) :: words, .word [] (b :: word) rest words nofun (List.cons_ne_nil _ _)
        (List.forall_mem_cons.2 ⟨other, unblank⟩) ends behind⟩
    | cons c gap =>
      refine ⟨[b] :: word :: words, .word [] [b] _ _ nofun (List.cons_ne_nil _ _) alone ?_
        (.word (c :: gap) word rest words all full unblank ends behind)⟩
      rintro _ ⟨⟩
      exact all c List.mem_cons_self

theorem exists_inWords (s : Bytes) : ∃ words, InWords words s := by
  induction s with
  | nil => exact ⟨[], .blanks [] nofun⟩
  | cons b s ih =>
    obtain ⟨words, inWords⟩ := ih
    cases blank : isBlank b with
    | true => exact ⟨words, inWords.cons_blank b s words blank⟩
    | false => exact inWords.exists_cons b s words blank

theorem words_nil : words [] = [] := rfl

theorem words_cons_blank (b : UInt8) (s : Bytes) (blank : isBlank b = true) :
    words (b :: s) = words s := by
  simp [words, blank]

theorem words_blanks_append (gap s : Bytes) (blank : ∀ b ∈ gap, isBlank b = true) :
    words (gap ++ s) = words s := by
  induction gap with
  | nil => rfl
  | cons b gap ih =>
    obtain ⟨first, others⟩ := List.forall_mem_cons.1 blank
    rw [List.cons_append, words_cons_blank b _ first, ih others]

/-- Words are put together byte by byte from the end: a blank begins a new part, and another byte
joins the one behind it. -/
theorem exists_step : ∃ step : UInt8 → List Bytes → List Bytes,
    (∀ s, words s = (s.foldr step [[]]).filter (!·.isEmpty)) ∧
    (∀ b parts, isBlank b = true → step b parts = [] :: parts) ∧
    ∀ b part parts, isBlank b = false → step b (part :: parts) = (b :: part) :: parts := by
  refine ⟨_, fun s => rfl, fun b parts blank => if_pos blank, fun b part parts other => ?_⟩
  exact if_neg (by simp [other])

/-- A word ends at the first blank. -/
theorem words_word_append (word rest : Bytes) (full : word ≠ [])
    (unblank : ∀ b ∈ word, isBlank b = false) (ends : ∀ b ∈ rest.head?, isBlank b = true) :
    words (word ++ rest) = word :: words rest := by
  obtain ⟨step, split, blank, other⟩ := exists_step
  -- Behind the word the parts begin anew.
  obtain ⟨parts, behind⟩ : ∃ parts, rest.foldr step [[]] = [] :: parts := by
    cases rest with
    | nil => exact ⟨[], rfl⟩
    | cons b rest => exact ⟨rest.foldr step [[]], blank b _ (ends b rfl)⟩
  have whole : (word ++ rest).foldr step [[]] = word :: parts := by
    clear full
    induction word with
    | nil => exact behind
    | cons b word ih =>
      obtain ⟨first, others⟩ := List.forall_mem_cons.1 unblank
      rw [List.cons_append, List.foldr_cons, ih others, other b word parts first]
  rw [split, split, whole, behind]
  simp [full]

theorem words_of_inWords (s : Bytes) (parts : List Bytes) (inWords : InWords parts s) :
    words s = parts := by
  induction inWords with
  | blanks gap blank =>
    have none := words_blanks_append gap [] blank
    rwa [List.append_nil] at none
  | word gap word rest words blank full unblank ends behind ih =>
    rw [List.append_assoc, words_blanks_append gap _ blank, words_word_append word rest full unblank
      ends, ih]

/-- A text is written in its words and in no others. -/
theorem inWords_iff (s : Bytes) (parts : List Bytes) : InWords parts s ↔ parts = words s := by
  obtain ⟨own, inWords⟩ := exists_inWords s
  have same := words_of_inWords s own inWords
  constructor
  · intro other
    exact (words_of_inWords s parts other).symm
  · rintro rfl
    exact same ▸ inWords

theorem inWords_words (s : Bytes) : InWords (words s) s := (inWords_iff s _).2 rfl

theorem InWords.append_cons (front rest : Bytes) (b : UInt8) (before after : List Bytes)
    (blank : isBlank b = true) (inFront : InWords before front) (behind : InWords after rest) :
    InWords (before ++ after) (front ++ b :: rest) := by
  induction inFront with
  | blanks gap all =>
    induction gap with
    | nil => exact behind.cons_blank b rest after blank
    | cons c gap ih =>
      obtain ⟨first, others⟩ := List.forall_mem_cons.1 all
      exact (ih others).cons_blank c _ _ first
  | word gap word more words all full unblank ends others ih =>
    rw [List.append_assoc]
    refine .word gap word (more ++ b :: rest) (words ++ after) all full unblank ?_ ih
    cases more with
    | nil => rintro _ ⟨⟩; exact blank
    | cons c more => rintro _ ⟨⟩; exact ends c rfl

/-- What stands on both sides of a blank is made of words apart. -/
theorem words_append_cons (front rest : Bytes) (b : UInt8) (blank : isBlank b = true) :
    words (front ++ b :: rest) = words front ++ words rest :=
  words_of_inWords _ _ (.append_cons front rest b _ _ blank (inWords_words front)
    (inWords_words rest))

theorem words_join (sep : UInt8) (blank : isBlank sep = true) (lines : List Bytes) :
    words (join sep lines) = lines.flatMap words := by
  induction lines with
  | nil => rfl
  | cons line lines ih =>
    cases lines with
    | nil => simp
    | cons next lines =>
      rw [join_cons_cons, words_append_cons _ _ _ blank, ih]
      rfl

theorem words_trim (s : Bytes) : words (trim s) = words s := by
  obtain ⟨before, after, whole, front, back⟩ := exists_trim s
  have none : words after = [] := words_of_inWords _ _ (.blanks after back)
  have kept : words (trim s ++ after) = words (trim s) := by
    cases after with
    | nil => rw [List.append_nil]
    | cons b after =>
      rw [words_cons_blank b _ (back b List.mem_cons_self)] at none
      rw [words_append_cons _ _ b (back b List.mem_cons_self), none, List.append_nil]
  calc words (trim s)
      = words (before ++ (trim s ++ after)) := by rw [words_blanks_append _ _ front, kept]
    _ = words s := by rw [← List.append_assoc, ← whole]

theorem InWords.forall_word (s : Bytes) (parts : List Bytes) (inWords : InWords parts s) :
    ∀ word ∈ parts, word ≠ [] ∧ ∀ b ∈ word, isBlank b = false := by
  induction inWords with
  | blanks gap blank => exact nofun
  | word gap word rest words blank full unblank ends behind ih =>
    exact List.forall_mem_cons.2 ⟨⟨full, unblank⟩, ih⟩

theorem words_of_not_isBlank (word : Bytes) (full : word ≠ [])
    (unblank : ∀ b ∈ word, isBlank b = false) : words word = [word] := by
  have alone := words_word_append word [] full unblank nofun
  rwa [List.append_nil] at alone

/-- Words with single spaces between them are these words. -/
theorem words_join_words (s : Bytes) : words (join Mark.space (words s)) = words s := by
  have own := (inWords_words s).forall_word
  calc words (join Mark.space (words s))
      = (words s).flatMap words := words_join Mark.space rfl _
    _ = (words s).flatMap fun word => [word] := List.flatMap_congr fun word member =>
        words_of_not_isBlank word (own word member).1 (own word member).2
    _ = words s := List.flatMap_singleton' _

theorem foldl_step_blanks (gap : Bytes) (blank : ∀ b ∈ gap, isBlank b = true) (state : Squeeze) :
    gap.foldl Squeeze.step state =
      if gap = [] then state else ⟨state.kept, !state.kept.isEmpty⟩ := by
  induction gap generalizing state with
  | nil => rfl
  | cons b gap ih =>
    obtain ⟨first, others⟩ := List.forall_mem_cons.1 blank
    have noted : state.step b = ⟨state.kept, !state.kept.isEmpty⟩ := if_pos first
    rw [List.foldl_cons, noted, ih others, if_neg (List.cons_ne_nil b gap)]
    exact ite_self _

theorem foldl_step_word (word : Bytes) (full : word ≠ []) (unblank : ∀ b ∈ word, isBlank b = false)
    (state : Squeeze) :
    word.foldl Squeeze.step state =
      ⟨word.reverse ++ ((if state.pending then [Mark.space] else []) ++ state.kept), false⟩ := by
  induction word generalizing state with
  | nil => contradiction
  | cons b word ih =>
    obtain ⟨first, others⟩ := List.forall_mem_cons.1 unblank
    have kept : state.step b =
        ⟨b :: ((if state.pending then [Mark.space] else []) ++ state.kept), false⟩ := by
      cases pending : state.pending <;> simp [Squeeze.step, first, pending]
    rw [List.foldl_cons, kept]
    cases word with
    | nil => rfl
    | cons c word =>
      rw [ih (List.cons_ne_nil _ _) others]
      simp

/-- What has been kept counts as one more word in front, if it is anything at all. -/
theorem reverse_kept_foldl_step (s : Bytes) (words : List Bytes) (inWords : InWords words s)
    (state : Squeeze) (start : state.kept = [] → state.pending = false)
    (apart : state.kept ≠ [] → state.pending = true ∨ ∀ b ∈ s.head?, isBlank b = true) :
    (s.foldl Squeeze.step state).kept.reverse =
      join Mark.space (if state.kept = [] then words else state.kept.reverse :: words) := by
  induction inWords generalizing state with
  | blanks gap blank =>
    rw [foldl_step_blanks gap blank]
    by_cases none : state.kept = [] <;> by_cases empty : gap = [] <;> simp [none, empty]
  | word gap word rest words blank full unblank ends behind ih =>
    -- Behind the blanks a space is due exactly if anything has been kept.
    have pending : (gap.foldl Squeeze.step state).pending = !state.kept.isEmpty ∧
        (gap.foldl Squeeze.step state).kept = state.kept := by
      rw [foldl_step_blanks gap blank]
      split
      · next empty =>
        subst empty
        refine ⟨?_, rfl⟩
        by_cases none : state.kept = []
        · simp [none, start none]
        · obtain ⟨b, rest', rfl⟩ := List.exists_cons_of_ne_nil full
          have due := (apart none).resolve_right fun blank =>
            Bool.false_ne_true ((unblank b List.mem_cons_self).symm.trans (blank b rfl))
          simp [due, none]
      · exact ⟨rfl, rfl⟩
    rw [List.foldl_append, List.foldl_append, foldl_step_word word full unblank, pending.1,
      pending.2, ih _ (by simp [full]) fun _ => .inr ends]
    by_cases none : state.kept = []
    · simp [none, full]
    · simp [none, full, join_cons_cons, join_append_cons]

/-- Collapsing leaves the words of a text, with one space between neighbours. -/
theorem collapse_eq (s : Bytes) : collapse s = join Mark.space (words s) :=
  reverse_kept_foldl_step s (words s) (inWords_words s) ⟨[], false⟩ (fun _ => rfl) (absurd rfl)

theorem collapse_collapse (s : Bytes) : collapse (collapse s) = collapse s := by
  rw [collapse_eq s, collapse_eq, words_join_words]

end FeedIntake.Bytes
