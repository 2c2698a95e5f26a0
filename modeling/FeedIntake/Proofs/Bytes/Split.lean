import FeedIntake.Bytes.Basic

/-!
Splitting, cutting and joining at a byte. Text without a separator stays in one part, and a byte
that is no separator stands in the joined text exactly if it stands in a part. What a cut leaves in
front and behind makes the text together with the separator.
-/
namespace FeedIntake.Bytes

variable (sep : UInt8)

/-- A test of each byte of a text, which is decided without going through all bytes there are. -/
theorem forall_mem_of_all (p : UInt8 → Prop) [DecidablePred p] (s : Bytes)
    (all : s.all (fun b => decide (p b)) = true) : ∀ b ∈ s, p b := fun b member =>
  of_decide_eq_true (List.all_eq_true.1 all b member)

@[simp] theorem splitOn_nil : splitOn sep [] = [[]] := rfl

@[simp] theorem splitOn_cons_self (s : Bytes) : splitOn sep (sep :: s) = [] :: splitOn sep s := by
  simp [splitOn]

/-- Another byte joins the first part. -/
theorem splitOn_cons_ne (b : UInt8) (s : Bytes) (other : b ≠ sep) :
    ∃ part parts, splitOn sep s = part :: parts ∧ splitOn sep (b :: s) = (b :: part) :: parts := by
  cases split : splitOn sep s with
  | nil => exact absurd split (splitOn_ne_nil sep s)
  | cons part parts =>
    refine ⟨part, parts, rfl, ?_⟩
    rw [splitOn] at split ⊢
    rw [List.foldr_cons, split, if_neg (by simpa using other)]

/-- Text without a separator joins the first part of what is behind it. -/
theorem splitOn_append_of_not_mem (front rest part : Bytes) (parts : List Bytes)
    (absent : sep ∉ front) (behind : splitOn sep rest = part :: parts) :
    splitOn sep (front ++ rest) = (front ++ part) :: parts := by
  induction front with
  | nil => exact behind
  | cons b front ih =>
    have other : b ≠ sep := (List.ne_of_not_mem_cons absent).symm
    have later := ih (List.not_mem_of_not_mem_cons absent)
    obtain ⟨first, others, split, whole⟩ := splitOn_cons_ne sep b (front ++ rest) other
    rw [later] at split
    obtain ⟨rfl, rfl⟩ := List.cons.inj split
    exact whole

theorem splitOn_of_not_mem (s : Bytes) (absent : sep ∉ s) : splitOn sep s = [s] := by
  have whole := splitOn_append_of_not_mem sep s [] [] [] absent rfl
  rwa [List.append_nil] at whole

/-- A separator ends a part: what stands before it and what stands behind it are split apart. -/
theorem splitOn_append_cons (front rest : Bytes) :
    splitOn sep (front ++ sep :: rest) = splitOn sep front ++ splitOn sep rest := by
  induction front with
  | nil => simp
  | cons b front ih =>
    rw [List.cons_append]
    by_cases same : b = sep
    · rw [same, splitOn_cons_self, splitOn_cons_self, ih, List.cons_append]
    · obtain ⟨part, parts, split, whole⟩ := splitOn_cons_ne sep b (front ++ sep :: rest) same
      obtain ⟨part', parts', split', whole'⟩ := splitOn_cons_ne sep b front same
      rw [ih, split', List.cons_append] at split
      obtain ⟨rfl, rfl⟩ := List.cons.inj split
      rw [whole, whole', List.cons_append]

@[simp] theorem join_nil : join sep [] = [] := rfl

@[simp] theorem join_singleton (part : Bytes) : join sep [part] = part := by simp [join]

theorem join_cons_cons (part next : Bytes) (parts : List Bytes) :
    join sep (part :: next :: parts) = part ++ sep :: join sep (next :: parts) := by
  simp [join, List.intercalate, List.intersperse]

theorem join_concat (parts : List Bytes) (part : Bytes) (some : parts ≠ []) :
    join sep (parts ++ [part]) = join sep parts ++ sep :: part := by
  induction parts with
  | nil => contradiction
  | cons first parts ih =>
    cases parts with
    | nil => simp [join_cons_cons]
    | cons next parts =>
      have later := ih (List.cons_ne_nil _ _)
      rw [List.cons_append, List.cons_append] at *
      simp [join_cons_cons, later]

/-- A separator in the first part makes two parts of it. -/
theorem join_append_cons (front part : Bytes) (parts : List Bytes) :
    join sep ((front ++ sep :: part) :: parts) = front ++ sep :: join sep (part :: parts) := by
  cases parts with
  | nil => simp
  | cons next parts => simp [join_cons_cons]

theorem not_mem_of_mem_splitOn (s : Bytes) : ∀ part ∈ splitOn sep s, sep ∉ part := by
  induction s with
  | nil => simp
  | cons b s ih =>
    by_cases same : b = sep
    · rw [same, splitOn_cons_self]
      exact List.forall_mem_cons.2 ⟨List.not_mem_nil, ih⟩
    · obtain ⟨part, parts, split, whole⟩ := splitOn_cons_ne sep b s same
      rw [split] at ih
      obtain ⟨first, others⟩ := List.forall_mem_cons.1 ih
      rw [whole]
      exact List.forall_mem_cons.2
        ⟨List.not_mem_cons_of_ne_of_not_mem (Ne.symm same) first, others⟩

/-- Joining loses nothing if the separator stands in no part. -/
theorem splitOn_join (parts : List Bytes) (some : parts ≠ [])
    (absent : ∀ part ∈ parts, sep ∉ part) : splitOn sep (join sep parts) = parts := by
  induction parts with
  | nil => contradiction
  | cons part parts ih =>
    obtain ⟨first, others⟩ := List.forall_mem_cons.1 absent
    cases parts with
    | nil => rw [join_singleton, splitOn_of_not_mem sep part first]
    | cons next rest =>
      have behind := ih (List.cons_ne_nil _ _) others
      rw [join_cons_cons, splitOn_append_of_not_mem sep part _ [] _ first
        (by rw [splitOn_cons_self, behind]), List.append_nil]

theorem count_join (part : Bytes) (parts : List Bytes) (absent : ∀ p ∈ part :: parts, sep ∉ p) :
    (join sep (part :: parts)).count sep = parts.length := by
  induction parts generalizing part with
  | nil =>
    rw [join_singleton]
    exact List.count_eq_zero.2 (absent part List.mem_cons_self)
  | cons next rest ih =>
    obtain ⟨first, others⟩ := List.forall_mem_cons.1 absent
    rw [join_cons_cons, List.count_append, List.count_eq_zero.2 first, List.count_cons_self,
      ih next others, Nat.zero_add, List.length_cons]

theorem mem_join_iff (b : UInt8) (parts : List Bytes) (other : b ≠ sep) :
    b ∈ join sep parts ↔ ∃ part ∈ parts, b ∈ part := by
  induction parts with
  | nil => simp
  | cons part parts ih =>
    cases parts with
    | nil => simp
    | cons next rest => simp [join_cons_cons, other, ih]

theorem mem_iff_of_splitOn (b : UInt8) (s : Bytes) (other : b ≠ sep) :
    b ∈ s ↔ ∃ part ∈ splitOn sep s, b ∈ part := by
  rw [← mem_join_iff sep b _ other, join_splitOn]

/-- What begins a text without the separator begins it in front of the separator. -/
theorem prefix_append_cons_iff (start front rest : Bytes) (absent : sep ∉ start) :
    start <+: front ++ sep :: rest ↔ start <+: front := by
  induction front generalizing start with
  | nil =>
    cases start with
    | nil => simp
    | cons first start =>
      have other : first ≠ sep := (List.ne_of_not_mem_cons absent).symm
      simp [List.cons_prefix_cons, other]
  | cons next front ih =>
    cases start with
    | nil => simp
    | cons first start =>
      have later := ih start (List.not_mem_of_not_mem_cons absent)
      rw [List.cons_append, List.cons_prefix_cons, List.cons_prefix_cons, later]

theorem takeWhile_append_of_all (p : UInt8 → Bool) (front rest : Bytes)
    (all : ∀ b ∈ front, p b = true) (stop : ∀ b ∈ rest.head?, p b = false) :
    (front ++ rest).takeWhile p = front := by
  rw [List.takeWhile_append_of_pos all]
  cases rest with
  | nil => simp
  | cons b rest => simp [stop b rfl]

theorem dropWhile_append_of_all (p : UInt8 → Bool) (front rest : Bytes)
    (all : ∀ b ∈ front, p b = true) (stop : ∀ b ∈ rest.head?, p b = false) :
    (front ++ rest).dropWhile p = rest := by
  rw [List.dropWhile_append_of_pos all]
  cases rest with
  | nil => rfl
  | cons b rest => simp [stop b rfl]

theorem drop_length_takeWhile (p : UInt8 → Bool) (s : Bytes) :
    s.drop (s.takeWhile p).length = s.dropWhile p := by
  have whole := List.takeWhile_append_dropWhile (p := p) (l := s)
  have dropped := congrArg (List.drop (s.takeWhile p).length) whole
  rwa [List.drop_left, eq_comm] at dropped

theorem untilNul_of_not_mem (s : Bytes) (absent : 0 ∉ s) : untilNul s = s := by
  have nonzero : ∀ b ∈ s, (b != 0) = true := fun b member => by
    simpa using fun same : b = 0 => absent (same ▸ member)
  have whole := takeWhile_append_of_all (· != 0) s [] nonzero (by simp)
  rwa [List.append_nil] at whole

theorem eq_of_cutAt? (p : UInt8 → Bool) (s front rest : Bytes)
    (cut : cutAt? p s = some (front, rest)) : ∃ b, p b = true ∧ s = front ++ b :: rest := by
  have whole := List.takeWhile_append_dropWhile (p := fun b => !p b) (l := s)
  have head := List.head?_dropWhile_not (fun b => !p b) s
  rw [cutAt?] at cut
  split at cut
  · contradiction
  · next b behind found =>
    obtain ⟨rfl, rfl⟩ := Prod.mk.inj (Option.some.inj cut)
    rw [found] at whole head
    exact ⟨b, by simpa using head, whole.symm⟩

theorem eq_of_cut? (s front rest : Bytes) (cut : cut? sep s = some (front, rest)) :
    s = front ++ sep :: rest := by
  obtain ⟨b, same, whole⟩ := eq_of_cutAt? _ s front rest cut
  rwa [eq_of_beq same] at whole

theorem eq_of_cutLast? (s front rest : Bytes) (cut : cutLast? sep s = some (front, rest)) :
    s = front ++ sep :: rest := by
  rw [cutLast?] at cut
  split at cut
  · contradiction
  · next after before found =>
    obtain ⟨rfl, rfl⟩ := Prod.mk.inj (Option.some.inj cut)
    have whole := eq_of_cut? sep s.reverse after before found
    have turned := congrArg List.reverse whole
    simpa using turned

theorem not_beq_of_not_mem (s : Bytes) (absent : sep ∉ s) : ∀ b ∈ s, (!(b == sep)) = true := by
  intro b member
  simpa using fun same : b = sep => absent (same ▸ member)

theorem cut?_append_cons (front rest : Bytes) (absent : sep ∉ front) :
    cut? sep (front ++ sep :: rest) = some (front, rest) := by
  have others := not_beq_of_not_mem sep front absent
  rw [cut?, cutAt?, List.dropWhile_append_of_pos others, List.takeWhile_append_of_pos others]
  simp

/-- What stands in front of the first separator and what stands behind it are told by the text. -/
theorem parts_unique (front front' rest rest' : Bytes) (absent : sep ∉ front)
    (absent' : sep ∉ front') (same : front ++ sep :: rest = front' ++ sep :: rest') :
    front = front' ∧ rest = rest' := by
  have cut := congrArg (cut? sep) same
  rw [cut?_append_cons sep _ _ absent, cut?_append_cons sep _ _ absent'] at cut
  exact Prod.mk.inj (Option.some.inj cut)

theorem cut?_of_not_mem (s : Bytes) (absent : sep ∉ s) : cut? sep s = none := by
  rw [cut?, cutAt?, ← List.append_nil s,
    List.dropWhile_append_of_pos (not_beq_of_not_mem sep s absent)]
  rfl

end FeedIntake.Bytes
