import FeedIntake.Proofs.Utf8.Character

/-!
Repaired texts. `Repairs` says what U+FFFD stands for: each longest part that begins a character
where none is complete, or a single byte where none begins. Main statement: the pass over a text
writes the one text that `Repairs` allows; it is well-formed, and a text that is so already stays as
it is.
-/
namespace FeedIntake.Utf8

/-- Some first bytes of a character, or all of them. -/
def BeginsCharacter (s : Bytes) : Prop := ∃ rest, IsCharacter (s ++ rest)

/-- What is replaced as one, in front of the text `behind`: where no character is complete, the
longest part that begins one, or a single byte if none does. -/
structure IsIllFormedPart (part behind : Bytes) : Prop where
  broken : ∀ character, IsCharacter character → ¬ character <+: part ++ behind
  shape : part ≠ [] ∧ (BeginsCharacter part ∨ part.length = 1)
  longest : ∀ longer, longer <+: part ++ behind → part.length < longer.length →
    ¬ BeginsCharacter longer

/-- The first text with U+FFFD in place of every ill-formed part is the second. -/
inductive Repairs : Bytes → Bytes → Prop
  | nil : Repairs [] []
  | character (c s t : Bytes) (whole : IsCharacter c) (behind : Repairs s t) :
      Repairs (c ++ s) (c ++ t)
  | part (p s t : Bytes) (broken : IsIllFormedPart p s) (behind : Repairs s t) :
      Repairs (p ++ s) (replacement ++ t)

theorem BeginsCharacter.run (s : Bytes) (begins : BeginsCharacter s) :
    ∃ state, State.start.run s = some state := by
  obtain ⟨rest, character⟩ := begins
  have whole := (closes_of_isCharacter _ character).run
  rw [State.run_append] at whole
  obtain ⟨state, front, -⟩ := Option.bind_eq_some_iff.1 whole
  exact ⟨state, front⟩

/-- A part behind which the automaton has no way to go on is replaced as a whole. -/
theorem Opens.isIllFormedPart (part behind : Bytes) (state : State) (opens : Opens part state)
    (stuck : ∀ b ∈ behind.head?, state.step b = none) : IsIllFormedPart part behind := by
  -- What is longer than the part has a byte that the automaton refuses.
  have refused : ∀ longer, longer <+: part ++ behind → part.length < longer.length →
      State.start.run longer = none := by
    intro longer begins length
    obtain ⟨more, rfl⟩ := List.prefix_of_prefix_length_le
      (List.prefix_append part behind) begins (Nat.le_of_lt length)
    cases more with
    | nil => simp at length
    | cons b more =>
      obtain ⟨rest, rfl⟩ := (List.prefix_append_right_inj part).1 begins
      simp [State.run_append, opens.run, State.run, stuck b rfl]
  refine ⟨?_, ⟨opens.ne_nil, .inl opens.exists_isCharacter⟩, ?_⟩
  · intro character whole begins
    have closes := closes_of_isCharacter character whole
    rcases Nat.lt_or_ge part.length character.length with longer | shorter
    · exact Option.some_ne_none _ (closes.run.symm.trans (refused character begins longer))
    · have inside := List.prefix_of_prefix_length_le begins (List.prefix_append part behind) shorter
      obtain ⟨other, opened⟩ := opens.of_prefix _ _ _ inside closes.ne_nil
      exact opened.ne_start _ _ (Option.some.inj (opened.run.symm.trans closes.run))
  · intro longer begins length first
    obtain ⟨other, run⟩ := first.run
    exact Option.some_ne_none _ (run.symm.trans (refused longer begins length))

/-- A byte that begins no character is replaced alone. -/
theorem isIllFormedPart_singleton (b : UInt8) (behind : Bytes)
    (stuck : State.start.step b = none) : IsIllFormedPart [b] behind := by
  have refused : ∀ s, State.start.run (b :: s) = none := by simp [State.run, stuck]
  have begun : ∀ s, s <+: [b] ++ behind → s ≠ [] → State.start.run s = none := by
    intro s begins some
    rcases List.prefix_cons_iff.1 begins with rfl | ⟨rest, rfl, -⟩
    · contradiction
    · exact refused rest
  refine ⟨?_, ⟨by simp, .inr rfl⟩, ?_⟩
  · intro character whole begins
    have closes := closes_of_isCharacter character whole
    exact Option.some_ne_none _ (closes.run.symm.trans (begun character begins closes.ne_nil))
  · intro longer begins length first
    obtain ⟨state, run⟩ := first.run
    have some : longer ≠ [] := List.ne_nil_of_length_pos (by omega)
    exact Option.some_ne_none _ (run.symm.trans (begun longer begins some))

/-- Between two bytes the pass holds back what has begun a character. -/
def Repair.IsSound (pass : Repair) : Prop :=
  (pass.state = .start ∧ pass.part = []) ∨ Opens pass.part.reverse pass.state

/-- What the pass still has to write is the repair of what it holds back and of what is to come. -/
def Repair.Completes (pass : Repair) (s : Bytes) : Prop :=
  ∃ t, Repairs (pass.part.reverse ++ s) t ∧
    (s.foldl Repair.step pass).finish = pass.written.reverse ++ t

/-- A byte where a character may begin, if all goes well behind it. -/
theorem Repair.completes_begin (written : Bytes) (b : UInt8) (s : Bytes)
    (behind : ∀ pass : Repair, pass.IsSound → pass.Completes s) :
    ∃ t, Repairs (b :: s) t ∧
      (s.foldl Repair.step (Repair.begin written b)).finish = written.reverse ++ t := by
  rw [Repair.begin]
  split
  · next stuck =>
    obtain ⟨t, repairs, finished⟩ :=
      behind ⟨replacement.reverse ++ written, [], .start⟩ (.inl ⟨rfl, rfl⟩)
    refine ⟨replacement ++ t, ?_, by simpa using finished⟩
    exact .part [b] s t (isIllFormedPart_singleton b s stuck) repairs
  · next step =>
    obtain ⟨t, repairs, finished⟩ := behind ⟨b :: written, [], .start⟩ (.inl ⟨rfl, rfl⟩)
    refine ⟨b :: t, ?_, by simpa using finished⟩
    exact .character [b] s t (isCharacter_of_closes _ (.single b step)) repairs
  · next state inside step =>
    exact behind ⟨written, [b], state⟩ (.inr (.first b state step inside))

theorem Repair.completes (s : Bytes) (pass : Repair) (sound : pass.IsSound) :
    pass.Completes s := by
  induction s generalizing pass with
  | nil =>
    rcases sound with ⟨start, empty⟩ | opens
    · exact ⟨[], by simpa [empty] using Repairs.nil, by simp [Repair.finish, start]⟩
    · refine ⟨replacement, ?_, ?_⟩
      · exact .part _ [] [] (opens.isIllFormedPart _ _ _ nofun) .nil
      · simp [Repair.finish, opens.ne_start]
  | cons b s ih =>
    rw [Repair.Completes, List.foldl_cons, Repair.step]
    rcases sound with ⟨start, empty⟩ | opens
    · rw [if_pos start, empty]
      exact Repair.completes_begin pass.written b s ih
    · rw [if_neg opens.ne_start]
      split
      · next stuck =>
        obtain ⟨t, repairs, finished⟩ :=
          Repair.completes_begin (replacement.reverse ++ pass.written) b s ih
        refine ⟨replacement ++ t, ?_, by simpa using finished⟩
        refine .part _ (b :: s) t (opens.isIllFormedPart _ _ _ ?_) repairs
        simpa using stuck
      · next step =>
        obtain ⟨t, repairs, finished⟩ :=
          ih ⟨b :: (pass.part ++ pass.written), [], .start⟩ (.inl ⟨rfl, rfl⟩)
        refine ⟨pass.part.reverse ++ [b] ++ t, ?_, by simpa using finished⟩
        have whole := isCharacter_of_closes _ (.last _ b _ opens step)
        simpa using Repairs.character _ s t whole repairs
      · next state inside step =>
        have opened : Opens (b :: pass.part).reverse state := by
          simpa using Opens.next _ b _ state opens step inside
        obtain ⟨t, repairs, finished⟩ := ih ⟨pass.written, b :: pass.part, state⟩ (.inr opened)
        exact ⟨t, by simpa using repairs, finished⟩

/-- The pass replaces what has to be replaced and nothing else. -/
theorem repairs_repair (s : Bytes) : Repairs s (repair s) := by
  obtain ⟨t, repairs, finished⟩ := Repair.completes s ⟨[], [], .start⟩ (.inl ⟨rfl, rfl⟩)
  have same : repair s = t := finished
  rw [same]
  exact repairs

/-- Two ill-formed parts of a text at one place are the same. -/
theorem IsIllFormedPart.length_le (part other behind rest : Bytes)
    (broken : IsIllFormedPart part behind) (another : IsIllFormedPart other rest)
    (same : part ++ behind = other ++ rest) : other.length ≤ part.length := by
  by_contra longer
  rcases another.shape.2 with begins | single
  · refine broken.longest other ?_ (by omega) begins
    exact same ▸ List.prefix_append other rest
  · have some := List.length_pos_iff.2 broken.shape.1
    omega

/-- There is one repair of a text. -/
theorem Repairs.unique (s t u : Bytes) (repairs : Repairs s t) (again : Repairs s u) : t = u := by
  induction repairs generalizing u with
  | nil =>
    generalize empty : ([] : Bytes) = s at again
    cases again with
    | nil => rfl
    | character c s t whole behind =>
      exact absurd (List.append_eq_nil_iff.1 empty.symm).1 (closes_of_isCharacter c whole).ne_nil
    | part p s t broken behind =>
      exact absurd (List.append_eq_nil_iff.1 empty.symm).1 broken.shape.1
  | character c s t whole behind ih =>
    generalize same : c ++ s = whole_text at again
    cases again with
    | nil =>
      exact absurd (List.append_eq_nil_iff.1 same).1 (closes_of_isCharacter c whole).ne_nil
    | character d s' t' other rest =>
      have first : c <+: d ++ s' := same ▸ List.prefix_append c s
      obtain rfl : c = d := by
        rcases Nat.le_total c.length d.length with shorter | longer
        · exact other.eq_of_prefix d c whole
            (List.prefix_of_prefix_length_le first (List.prefix_append d s') shorter)
        · exact (whole.eq_of_prefix c d other
            (List.prefix_of_prefix_length_le (List.prefix_append d s') first longer)).symm
      obtain rfl := List.append_cancel_left same
      rw [ih t' rest]
    | part p s' t' broken rest =>
      exact absurd (same ▸ List.prefix_append c s) (broken.broken c whole)
  | part p s t broken behind ih =>
    generalize same : p ++ s = whole_text at again
    cases again with
    | nil => exact absurd (List.append_eq_nil_iff.1 same).1 broken.shape.1
    | character d s' t' other rest =>
      exact absurd (same ▸ List.prefix_append d s') (broken.broken d other)
    | part q s' t' another rest =>
      have length := Nat.le_antisymm (another.length_le _ _ _ _ broken same.symm)
        (broken.length_le _ _ _ _ another same)
      obtain ⟨rfl, rfl⟩ := List.append_inj same length
      rw [ih t' rest]

theorem repairs_iff (s t : Bytes) : Repairs s t ↔ t = repair s :=
  ⟨fun repairs => repairs.unique _ _ _ (repairs_repair s), fun same => same ▸ repairs_repair s⟩

theorem Repairs.isValid (s t : Bytes) (repairs : Repairs s t) : isValid t = true := by
  induction repairs with
  | nil => rfl
  | character c s t whole behind ih => exact isValid_append _ _ (isValid_of_isCharacter c whole) ih
  | part p s t broken behind ih => exact isValid_append _ _ (by decide) ih

theorem isValid_repair (s : Bytes) : Utf8.isValid (repair s) = true :=
  (repairs_repair s).isValid

/-- A text that is well-formed has nothing to repair. -/
theorem repair_of_isValid (s : Bytes) (valid : Utf8.isValid s = true) : repair s = s := by
  obtain ⟨chars, rfl⟩ := (isValid_iff_exists_chars s).1 valid
  refine ((repairs_iff _ _).1 ?_).symm
  clear valid
  induction chars with
  | nil => exact .nil
  | cons c chars ih => exact .character _ _ _ ⟨c, rfl⟩ ih

/-- A byte that continues nothing, a surrogate, the beginning of a character in front of another,
and one at the end. -/
example : repair ([0x80, 0xED, 0xA0, 0x61, 0xF0, 0x9F, 0x98, 0xC3, 0xA9, 0xE2, 0x82]) =
    replacement ++ replacement ++ replacement ++ [0x61] ++ replacement ++ [0xC3, 0xA9]
      ++ replacement := by decide

end FeedIntake.Utf8
