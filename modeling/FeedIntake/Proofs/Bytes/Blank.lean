import FeedIntake.Bytes.Ascii
import FeedIntake.Proofs.Bytes.Ends

/-!
Blanks at the ends of a text: what trimming takes away is nothing but blanks.
-/
namespace FeedIntake.Bytes

theorem isBlank_of_isLetter (b : UInt8) (letter : isLetter b = true) : isBlank b = false :=
  forall_of_all (fun b => isLetter b = true → isBlank b = false) (by decide +kernel) b letter

/-- A text is what trimming leaves of it between blanks. -/
theorem exists_trim (s : Bytes) :
    ∃ before after, s = before ++ trim s ++ after ∧
      (∀ b ∈ before, isBlank b = true) ∧ ∀ b ∈ after, isBlank b = true :=
  exists_strip isBlank s

theorem mem_of_mem_trim (s : Bytes) (b : UInt8) (member : b ∈ trim s) : b ∈ s := by
  obtain ⟨before, after, whole, -⟩ := exists_trim s
  rw [whole]
  exact List.mem_append_left _ (List.mem_append_right _ member)

theorem endsWithout_trim (s : Bytes) : EndsWithout isBlank (trim s) := endsWithout_strip isBlank s

theorem trim_of_endsWithout (s : Bytes) (ends : EndsWithout isBlank s) : trim s = s :=
  strip_of_endsWithout isBlank s ends

theorem trim_of_not_isBlank (s : Bytes) (unblank : ∀ b ∈ s, isBlank b = false) : trim s = s :=
  trim_of_endsWithout s (endsWithout_of_all isBlank s unblank)

theorem isBlank_head?_trim (s : Bytes) : ∀ b ∈ (trim s).head?, isBlank b = false :=
  (endsWithout_trim s).head

theorem isBlank_getLast?_trim (s : Bytes) : ∀ b ∈ (trim s).getLast?, isBlank b = false :=
  (endsWithout_trim s).last

/-- Where no blank ends a text, only blanks in front are trimmed. -/
theorem trim_of_getLast? (s : Bytes) (last : ∀ b ∈ s.getLast?, isBlank b = false) :
    trim s = s.dropWhile isBlank := by
  obtain ⟨before, after, whole, blankBefore, blankAfter⟩ := exists_trim s
  have nothing : after = [] := by
    rcases List.eq_nil_or_concat after with none | ⟨front, b, ended⟩
    · exact none
    · have unblank := last b (by rw [whole, ended]; simp)
      have blank := blankAfter b (by simp [ended])
      exact absurd blank (by simp [unblank])
  rw [nothing, List.append_nil] at whole
  have start := dropWhile_append_of_all isBlank before (trim s) blankBefore (isBlank_head?_trim s)
  rw [← whole] at start
  exact start.symm

/-- A text whose first and last words have no blanks is trimmed already. -/
theorem trim_between (first middle last : Bytes) (nonempty : first ≠ []) (nonempty' : last ≠ [])
    (unblank : ∀ b ∈ first, isBlank b = false) (unblank' : ∀ b ∈ last, isBlank b = false) :
    trim (first ++ middle ++ last) = first ++ middle ++ last := by
  obtain ⟨start, rest, rfl⟩ := List.exists_cons_of_ne_nil nonempty
  have final : ∀ b ∈ (start :: rest ++ middle ++ last).getLast?, isBlank b = false := by
    intro b final
    rw [List.getLast?_append, List.getLast?_eq_some_getLast nonempty'] at final
    exact Option.some.inj final ▸ unblank' _ (List.getLast_mem nonempty')
  rw [trim_of_getLast? _ final]
  simp [unblank start List.mem_cons_self]

theorem trim_append_of_isBlank (gap s : Bytes) (blank : ∀ b ∈ gap, isBlank b = true) :
    trim (gap ++ s) = trim s := by
  rw [trim, trim, List.dropWhile_append_of_pos blank]

end FeedIntake.Bytes
