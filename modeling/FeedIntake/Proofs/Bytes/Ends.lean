import FeedIntake.Bytes.Ascii
import FeedIntake.Proofs.Bytes.Split

/-!
The ends of a text. Stripping takes away the bytes of one class at both ends, up to the first byte
of another class on either side. Main statement: what is left is the only part of the text that can
stand between bytes of the class and neither begins nor ends with one.
-/
namespace FeedIntake.Bytes

variable (p : UInt8 → Bool)

/-- A text that neither begins nor ends with a byte of a class. -/
structure EndsWithout (s : Bytes) : Prop where
  head : ∀ b ∈ s.head?, p b = false
  last : ∀ b ∈ s.getLast?, p b = false

-- Without the first two instances all bytes would be gone through where bytes count as finite.
instance (s : Bytes) : Decidable (EndsWithout p s) :=
  have : Decidable (∀ b ∈ s.head?, p b = false) := Option.decidableForallMem _
  have : Decidable (∀ b ∈ s.getLast?, p b = false) := Option.decidableForallMem _
  decidable_of_iff ((∀ b ∈ s.head?, p b = false) ∧ ∀ b ∈ s.getLast?, p b = false)
    ⟨fun ⟨head, last⟩ => ⟨head, last⟩, fun ⟨head, last⟩ => ⟨head, last⟩⟩

/-- A text without the bytes of a class at its ends. -/
def strip (s : Bytes) : Bytes := dropEndWhile p (s.dropWhile p)

theorem endsWithout_of_all (s : Bytes) (none : ∀ b ∈ s, p b = false) : EndsWithout p s :=
  ⟨fun b first => none b (List.mem_of_mem_head? first),
    fun b last => none b (List.mem_of_getLast? last)⟩

variable {p} in
theorem EndsWithout.append (s t : Bytes) (front : EndsWithout p s) (back : EndsWithout p t) :
    EndsWithout p (s ++ t) := by
  constructor
  · intro b first
    rw [List.head?_append, Option.mem_def, Option.or_eq_some_iff] at first
    rcases first with first | ⟨-, first⟩
    · exact front.head b first
    · exact back.head b first
  · intro b last
    rw [List.getLast?_append, Option.mem_def, Option.or_eq_some_iff] at last
    rcases last with last | ⟨-, last⟩
    · exact back.last b last
    · exact front.last b last

theorem exists_strip (s : Bytes) :
    ∃ before after, s = before ++ strip p s ++ after ∧
      (∀ b ∈ before, p b = true) ∧ ∀ b ∈ after, p b = true := by
  refine ⟨s.takeWhile p, ((s.dropWhile p).reverse.takeWhile p).reverse, ?_,
    List.all_eq_true.1 List.all_takeWhile, ?_⟩
  · have whole := List.takeWhile_append_dropWhile (p := p) (l := (s.dropWhile p).reverse)
    have ended : strip p s ++ ((s.dropWhile p).reverse.takeWhile p).reverse = s.dropWhile p := by
      rw [strip, dropEndWhile, ← List.reverse_append, whole, List.reverse_reverse]
    rw [List.append_assoc, ended, List.takeWhile_append_dropWhile]
  · intro b member
    exact List.all_eq_true.1 List.all_takeWhile b (List.mem_reverse.1 member)

theorem endsWithout_strip (s : Bytes) : EndsWithout p (strip p s) := by
  have start := List.head?_dropWhile_not p s
  have final := List.head?_dropWhile_not p (s.dropWhile p).reverse
  constructor
  · intro b first
    have front : strip p s <+: s.dropWhile p := by
      rw [strip, dropEndWhile, ← List.reverse_suffix, List.reverse_reverse]
      exact List.dropWhile_suffix _
    obtain ⟨rest, whole⟩ := front
    rw [← whole, List.head?_append, first] at start
    exact start
  · intro b last
    rw [strip, dropEndWhile, List.getLast?_reverse] at last
    rw [last] at final
    exact final

theorem dropEndWhile_append_of_all (front back : Bytes) (all : ∀ b ∈ back, p b = true)
    (stop : ∀ b ∈ front.getLast?, p b = false) : dropEndWhile p (front ++ back) = front := by
  have turned := dropWhile_append_of_all p back.reverse front.reverse
    (fun b member => all b (List.mem_reverse.1 member)) (by rwa [List.head?_reverse])
  rw [dropEndWhile, List.reverse_append, turned, List.reverse_reverse]

theorem strip_append (before middle after : Bytes) (front : ∀ b ∈ before, p b = true)
    (back : ∀ b ∈ after, p b = true) (ends : EndsWithout p middle) :
    strip p (before ++ middle ++ after) = middle := by
  rw [strip, List.append_assoc, List.dropWhile_append_of_pos front]
  cases middle with
  | nil =>
    have gone := dropWhile_append_of_all p after [] back (by simp)
    rw [List.append_nil] at gone
    rw [List.nil_append, gone]
    rfl
  | cons b middle =>
    have first : p b = false := ends.head b rfl
    rw [List.cons_append, List.dropWhile_cons_of_neg (by simp [first]), ← List.cons_append]
    exact dropEndWhile_append_of_all p _ after back ends.last

theorem strip_of_endsWithout (s : Bytes) (ends : EndsWithout p s) : strip p s = s := by
  have same := strip_append p [] s [] (by simp) (by simp) ends
  rwa [List.append_nil, List.nil_append] at same

theorem length_strip_le (s : Bytes) : (strip p s).length ≤ s.length := by
  obtain ⟨before, after, whole, -⟩ := exists_strip p s
  have counted := congrArg List.length whole
  simp only [List.length_append] at counted
  omega

/-- A text with bytes of the class at an end becomes shorter. -/
theorem length_strip_lt (s : Bytes) (wrapped : ¬ EndsWithout p s) :
    (strip p s).length < s.length := by
  obtain ⟨before, after, whole, -⟩ := exists_strip p s
  refine Nat.lt_of_le_of_ne (length_strip_le p s) fun same => wrapped ?_
  have counted := congrArg List.length whole
  simp only [List.length_append] at counted
  obtain rfl := List.length_eq_zero_iff.1 (show before.length = 0 by omega)
  obtain rfl := List.length_eq_zero_iff.1 (show after.length = 0 by omega)
  rw [List.nil_append, List.append_nil] at whole
  rw [whole]
  exact endsWithout_strip p s

end FeedIntake.Bytes
