import Mathlib.Data.List.Basic
import FeedIntake.Proofs.Utf8.Valid

/-!
The characters that well-formed texts are made of. `IsCharacter` is the written form of one Unicode
scalar value, taken from Lean's own characters and not from the automaton. Main statement: the
automaton goes through the bytes of a character from start to start and is inside at every cut, and
whatever it goes through like that is a character, so a text is well-formed exactly if it is written
in characters.
-/
namespace FeedIntake.Utf8

/-- The bytes of one character. -/
def IsCharacter (s : Bytes) : Prop := ∃ c : Char, String.utf8EncodeChar c = s

/-- The states behind the bytes of a character that has begun and is not complete. -/
inductive Opens : Bytes → State → Prop
  | first (b : UInt8) (state : State) (step : State.start.step b = some state)
      (inside : state ≠ .start) : Opens [b] state
  | next (part : Bytes) (b : UInt8) (state next : State) (before : Opens part state)
      (step : state.step b = some next) (inside : next ≠ .start) : Opens (part ++ [b]) next

/-- What the automaton goes through from start to start, without a stop in between. -/
inductive Closes : Bytes → Prop
  | single (b : UInt8) (step : State.start.step b = some .start) : Closes [b]
  | last (part : Bytes) (b : UInt8) (state : State) (before : Opens part state)
      (step : state.step b = some .start) : Closes (part ++ [b])

theorem Opens.run (part : Bytes) (state : State) (opens : Opens part state) :
    State.start.run part = some state := by
  induction opens with
  | first b state step inside => simp [State.run, step]
  | next part b state next before step inside ih => simp [State.run_append, ih, State.run, step]

theorem Opens.ne_start (part : Bytes) (state : State) (opens : Opens part state) :
    state ≠ .start := by
  cases opens <;> assumption

theorem Opens.ne_nil (part : Bytes) (state : State) (opens : Opens part state) : part ≠ [] := by
  cases opens <;> simp

/-- A beginning of what has begun a character has begun it, too. -/
theorem Opens.of_prefix (part front : Bytes) (state : State) (opens : Opens part state)
    (begins : front <+: part) (some : front ≠ []) : ∃ state, Opens front state := by
  induction opens with
  | first b state step inside =>
    rcases List.prefix_cons_iff.1 begins with rfl | ⟨rest, rfl, rest_nil⟩
    · contradiction
    · obtain rfl := List.prefix_nil.1 rest_nil
      exact ⟨state, .first b state step inside⟩
  | next part b state next before step inside ih =>
    rcases List.prefix_concat_iff.1 begins with rfl | shorter
    · exact ⟨next, .next part b state next before step inside⟩
    · exact ih shorter

/-- A byte of which the high bits are `10`. -/
def IsTail (b : UInt8) : Prop := 0x80 ≤ b.toNat ∧ b.toNat ≤ 0xBF

/-- What may follow a lead byte: nothing, or bytes of which the first lies in a range of its own. -/
theorem State.step_start (b : UInt8) :
    State.start.step b =
      if b.toNat < 0x80 then some .start
      else if b.toNat < 0xC2 then none
      else if b.toNat < 0xE0 then some (.inside 0x80 0xBF 0)
      else if b.toNat < 0xF0 then
        some (.inside (if b.toNat = 0xE0 then 0xA0 else 0x80)
          (if b.toNat = 0xED then 0x9F else 0xBF) 1)
      else if b.toNat < 0xF5 then
        some (.inside (if b.toNat = 0xF0 then 0x90 else 0x80)
          (if b.toNat = 0xF4 then 0x8F else 0xBF) 2)
      else none := by
  simp only [State.step, UInt8.lt_iff_toNat_lt, beq_iff_eq, ← UInt8.toNat_inj, UInt8.reduceToNat]
  split_ifs <;> first | rfl | omega

/-- A lead byte asks for a tail, from a range that is not empty. -/
theorem State.range_of_step_start (lead low high : UInt8) (more : Nat)
    (step : State.start.step lead = some (.inside low high more)) :
    0x80 ≤ low.toNat ∧ low.toNat ≤ high.toNat ∧ high.toNat ≤ 0xBF := by
  rw [State.step_start] at step
  split_ifs at step <;> simp at step <;> obtain ⟨rfl, rfl, -⟩ := step <;> first | decide | omega

theorem State.step_inside (low high b : UInt8) (more : Nat) :
    (State.inside low high more).step b =
      if low.toNat ≤ b.toNat ∧ b.toNat ≤ high.toNat then
        some (match more with | 0 => .start | more + 1 => .inside 0x80 0xBF more)
      else none := by
  simp only [State.step, UInt8.le_iff_toNat_le, Bool.and_eq_true, decide_eq_true_eq]
  cases more <;> rfl

/-- The bytes of the scalar value `n`. -/
theorem isCharacter_of_scalar (n : Nat) (scalar : n.isValidChar) (s : Bytes)
    (written : s = if n ≤ 0x7F then [UInt8.ofNat n]
      else if n ≤ 0x7FF then [UInt8.ofNat (n / 64 % 32 + 192), UInt8.ofNat (n % 64 + 128)]
      else if n ≤ 0xFFFF then
        [UInt8.ofNat (n / 4096 % 16 + 224), UInt8.ofNat (n / 64 % 64 + 128),
          UInt8.ofNat (n % 64 + 128)]
      else
        [UInt8.ofNat (n / 262144 % 8 + 240), UInt8.ofNat (n / 4096 % 64 + 128),
          UInt8.ofNat (n / 64 % 64 + 128), UInt8.ofNat (n % 64 + 128)]) : IsCharacter s := by
  refine ⟨Char.ofNat n, ?_⟩
  have value : (Char.ofNat n).val.toNat = n := by
    rw [Char.ofNat, dif_pos scalar]
    rfl
  rw [written, String.utf8EncodeChar, value]

theorem isCharacter_two (a b : UInt8) (lead : 0xC2 ≤ a.toNat ∧ a.toNat < 0xE0) (tail : IsTail b) :
    IsCharacter [a, b] := by
  obtain ⟨low, high⟩ := tail
  refine isCharacter_of_scalar ((a.toNat - 0xC0) * 64 + (b.toNat - 0x80)) (.inl (by omega)) _ ?_
  rw [if_neg (by omega), if_pos (by omega)]
  simp only [List.cons.injEq, ← UInt8.toNat_inj, UInt8.toNat_ofNat', and_true]
  omega

theorem isCharacter_three (a b c : UInt8) (lead : 0xE0 ≤ a.toNat ∧ a.toNat < 0xF0)
    (least : a.toNat = 0xE0 → 0xA0 ≤ b.toNat) (most : a.toNat = 0xED → b.toNat ≤ 0x9F)
    (second : IsTail b) (third : IsTail c) : IsCharacter [a, b, c] := by
  obtain ⟨low, high⟩ := second
  obtain ⟨low', high'⟩ := third
  refine isCharacter_of_scalar
    ((a.toNat - 0xE0) * 4096 + (b.toNat - 0x80) * 64 + (c.toNat - 0x80))
    (show _ ∨ _ by omega) _ ?_
  rw [if_neg (by omega), if_neg (by omega), if_pos (by omega)]
  simp only [List.cons.injEq, ← UInt8.toNat_inj, UInt8.toNat_ofNat', and_true]
  omega

theorem isCharacter_four (a b c d : UInt8) (lead : 0xF0 ≤ a.toNat ∧ a.toNat < 0xF5)
    (least : a.toNat = 0xF0 → 0x90 ≤ b.toNat) (most : a.toNat = 0xF4 → b.toNat ≤ 0x8F)
    (second : IsTail b) (third : IsTail c) (fourth : IsTail d) : IsCharacter [a, b, c, d] := by
  obtain ⟨low, high⟩ := second
  obtain ⟨low', high'⟩ := third
  obtain ⟨low'', high''⟩ := fourth
  refine isCharacter_of_scalar ((a.toNat - 0xF0) * 262144 + (b.toNat - 0x80) * 4096
    + (c.toNat - 0x80) * 64 + (d.toNat - 0x80)) (show _ ∨ _ by omega) _ ?_
  rw [if_neg (by omega), if_neg (by omega), if_neg (by omega)]
  simp only [List.cons.injEq, ← UInt8.toNat_inj, UInt8.toNat_ofNat', and_true]
  omega

theorem isCharacter_single (b : UInt8) (ascii : b.toNat < 0x80) : IsCharacter [b] := by
  refine isCharacter_of_scalar b.toNat (.inl (by omega)) _ ?_
  rw [if_pos (by omega), UInt8.ofNat_toNat]

/-- Behind the lead byte of an unfinished character stands a byte in the range that it sets, and
then stand tails, fewer than it asks for. -/
theorem Opens.shape (part : Bytes) (low high : UInt8) (more : Nat)
    (opens : Opens part (.inside low high more)) :
    (∃ lead, part = [lead] ∧ State.start.step lead = some (.inside low high more)) ∨
    ∃ lead second tails least most owed,
      part = lead :: second :: tails ∧ State.start.step lead = some (.inside least most owed) ∧
      (least.toNat ≤ second.toNat ∧ second.toNat ≤ most.toNat) ∧ (∀ b ∈ tails, IsTail b) ∧
      tails.length + more + 1 = owed ∧ low = 0x80 ∧ high = 0xBF := by
  generalize reached : State.inside low high more = state at opens
  induction opens generalizing low high more with
  | first lead state step inside => exact .inl ⟨lead, rfl, reached ▸ step⟩
  | next front b before next opened step inside ih =>
    subst reached
    cases before with
    | start => exact absurd rfl opened.ne_start
    | inside l h left =>
      rw [State.step_inside] at step
      split at step
      · next range =>
        cases left with
        | zero => simp at step
        | succ left =>
          obtain ⟨rfl, rfl, rfl⟩ := State.inside.inj (Option.some.inj step)
          rcases ih l h (left + 1) rfl with
            ⟨lead, rfl, first⟩ | ⟨lead, second, tails, least, most, owed, rfl, first, fits, plain,
              count, rfl, rfl⟩
          · exact .inr ⟨lead, b, [], l, h, _, rfl, first, range, nofun, by simp, rfl, rfl⟩
          · refine .inr ⟨lead, second, tails ++ [b], least, most, owed, rfl, first, fits,
              List.forall_mem_append.2 ⟨plain, List.forall_mem_singleton.2 range⟩, ?_, rfl, rfl⟩
            simp only [List.length_append, List.length_singleton]
            omega
      · contradiction

/-- A complete character is one byte of ASCII, or a lead byte with as many others as it asks for. -/
theorem Closes.shape (s : Bytes) (closes : Closes s) :
    (∃ b, s = [b] ∧ State.start.step b = some .start) ∨
    ∃ lead second tails least most,
      s = lead :: second :: tails ∧
      State.start.step lead = some (.inside least most tails.length) ∧
      (least.toNat ≤ second.toNat ∧ second.toNat ≤ most.toNat) ∧ ∀ b ∈ tails, IsTail b := by
  cases closes with
  | single b step => exact .inl ⟨b, rfl, step⟩
  | last part b state opens step =>
    cases state with
    | start => exact absurd rfl opens.ne_start
    | inside low high more =>
      rw [State.step_inside] at step
      split at step
      · next range =>
        obtain rfl : more = 0 := by cases more <;> simp at step ⊢
        rcases opens.shape with
          ⟨lead, rfl, first⟩ | ⟨lead, second, tails, least, most, owed, rfl, first, fits, plain,
            rfl, rfl, rfl⟩
        · exact .inr ⟨lead, b, [], low, high, rfl, first, range, nofun⟩
        · refine .inr ⟨lead, second, tails ++ [b], least, most, rfl, ?_, fits,
            List.forall_mem_append.2 ⟨plain, List.forall_mem_singleton.2 range⟩⟩
          simpa using first
      · contradiction

/-- The forms of characters, by how many bytes they have. Only a lead byte at an end of its range
sets one for the second byte, so that no longer form, no surrogate and nothing too large is left. -/
inductive IsForm : Bytes → Prop where
  | one (a : UInt8) (ascii : a.toNat < 0x80) : IsForm [a]
  | two (a b : UInt8) (lead : 0xC2 ≤ a.toNat ∧ a.toNat < 0xE0) (second : IsTail b) : IsForm [a, b]
  | three (a b c : UInt8) (lead : 0xE0 ≤ a.toNat ∧ a.toNat < 0xF0)
      (least : a.toNat = 0xE0 → 0xA0 ≤ b.toNat) (most : a.toNat = 0xED → b.toNat ≤ 0x9F)
      (second : IsTail b) (third : IsTail c) : IsForm [a, b, c]
  | four (a b c d : UInt8) (lead : 0xF0 ≤ a.toNat ∧ a.toNat < 0xF5)
      (least : a.toNat = 0xF0 → 0x90 ≤ b.toNat) (most : a.toNat = 0xF4 → b.toNat ≤ 0x8F)
      (second : IsTail b) (third : IsTail c) (fourth : IsTail d) : IsForm [a, b, c, d]

theorem Closes.isForm (s : Bytes) (closes : Closes s) : IsForm s := by
  rcases closes.shape with
    ⟨b, rfl, step⟩ | ⟨lead, second, tails, least, most, rfl, step, ⟨low, high⟩, plain⟩
  · rw [State.step_start] at step
    split_ifs at step with ascii <;> first | contradiction | exact .one b ascii
  · obtain ⟨floor, -, ceiling⟩ := State.range_of_step_start _ _ _ _ step
    have tail : IsTail second := ⟨floor.trans low, high.trans ceiling⟩
    rw [State.step_start] at step
    split at step
    · simp at step
    split at step
    · contradiction
    split at step
    · obtain ⟨rfl, rfl, none⟩ := State.inside.inj (Option.some.inj step)
      obtain rfl := List.length_eq_zero_iff.1 none.symm
      exact .two lead second (by omega) tail
    split at step
    · obtain ⟨rfl, rfl, one⟩ := State.inside.inj (Option.some.inj step)
      obtain ⟨third, rfl⟩ := List.length_eq_one_iff.1 one.symm
      refine .three lead second third (by omega) ?_ ?_ tail (plain third (by simp))
      · intro same
        simpa [same] using low
      · intro same
        simpa [same] using high
    split at step
    · obtain ⟨rfl, rfl, two⟩ := State.inside.inj (Option.some.inj step)
      obtain ⟨third, fourth, rfl⟩ := List.length_eq_two.1 two.symm
      refine .four lead second third fourth (by omega) ?_ ?_ tail (plain third (by simp))
        (plain fourth (by simp))
      · intro same
        simpa [same] using low
      · intro same
        simpa [same] using high
    · contradiction

theorem isCharacter_of_closes (s : Bytes) (closes : Closes s) : IsCharacter s := by
  cases closes.isForm with
  | one a ascii => exact isCharacter_single a ascii
  | two a b lead second => exact isCharacter_two a b lead second
  | three a b c lead least most second third =>
    exact isCharacter_three a b c lead least most second third
  | four a b c d lead least most second third fourth =>
    exact isCharacter_four a b c d lead least most second third fourth

theorem Opens.tail (part : Bytes) (b low high : UInt8) (more : Nat)
    (before : Opens part (.inside low high (more + 1)))
    (fits : low.toNat ≤ b.toNat ∧ b.toNat ≤ high.toNat) :
    Opens (part ++ [b]) (.inside 0x80 0xBF more) :=
  .next part b _ _ before ((State.step_inside ..).trans (if_pos fits)) nofun

theorem Opens.closes (part : Bytes) (b low high : UInt8) (before : Opens part (.inside low high 0))
    (fits : low.toNat ≤ b.toNat ∧ b.toNat ≤ high.toNat) : Closes (part ++ [b]) :=
  .last part b _ before ((State.step_inside ..).trans (if_pos fits))

theorem closes_two (n : Nat) (low : 0x7F < n) (high : n ≤ 0x7FF) :
    Closes [UInt8.ofNat (n / 64 % 32 + 192), UInt8.ofNat (n % 64 + 128)] := by
  have first : Opens [UInt8.ofNat (n / 64 % 32 + 192)] (.inside 0x80 0xBF 0) := by
    refine .first _ _ ?_ nofun
    rw [State.step_start, UInt8.toNat_ofNat', if_neg (by omega), if_neg (by omega),
      if_pos (by omega)]
  refine first.closes _ _ _ _ ?_
  simp only [UInt8.toNat_ofNat', UInt8.reduceToNat]
  omega

theorem closes_three (n : Nat) (low : 0x7FF < n) (high : n ≤ 0xFFFF)
    (scalar : n < 0xD800 ∨ 0xDFFF < n) :
    Closes [UInt8.ofNat (n / 4096 % 16 + 224), UInt8.ofNat (n / 64 % 64 + 128),
      UInt8.ofNat (n % 64 + 128)] := by
  have first : Opens [UInt8.ofNat (n / 4096 % 16 + 224)]
      (.inside (if n / 4096 = 0 then 0xA0 else 0x80)
        (if n / 4096 = 13 then 0x9F else 0xBF) 1) := by
    refine .first _ _ ?_ nofun
    rw [State.step_start, UInt8.toNat_ofNat', if_neg (by omega), if_neg (by omega),
      if_neg (by omega), if_pos (by omega)]
    congr 3 <;> simp <;> omega
  refine (first.tail _ (UInt8.ofNat (n / 64 % 64 + 128)) _ _ _ ?_).closes _ _ _ _ ?_
  · rw [UInt8.toNat_ofNat']
    split <;> split <;> simp <;> omega
  · simp only [UInt8.toNat_ofNat', UInt8.reduceToNat]
    omega

theorem closes_four (n : Nat) (low : 0xFFFF < n) (high : n < 0x110000) :
    Closes [UInt8.ofNat (n / 262144 % 8 + 240), UInt8.ofNat (n / 4096 % 64 + 128),
      UInt8.ofNat (n / 64 % 64 + 128), UInt8.ofNat (n % 64 + 128)] := by
  have first : Opens [UInt8.ofNat (n / 262144 % 8 + 240)]
      (.inside (if n / 262144 = 0 then 0x90 else 0x80)
        (if n / 262144 = 4 then 0x8F else 0xBF) 2) := by
    refine .first _ _ ?_ nofun
    rw [State.step_start, UInt8.toNat_ofNat', if_neg (by omega), if_neg (by omega),
      if_neg (by omega), if_neg (by omega), if_pos (by omega)]
    congr 3 <;> simp <;> omega
  refine ((first.tail _ (UInt8.ofNat (n / 4096 % 64 + 128)) _ _ _ ?_).tail _
    (UInt8.ofNat (n / 64 % 64 + 128)) _ _ _ ?_).closes _ _ _ _ ?_
  · rw [UInt8.toNat_ofNat']
    split <;> split <;> simp <;> omega
  · simp only [UInt8.toNat_ofNat', UInt8.reduceToNat]
    omega
  · simp only [UInt8.toNat_ofNat', UInt8.reduceToNat]
    omega

theorem closes_of_isCharacter (s : Bytes) (character : IsCharacter s) : Closes s := by
  obtain ⟨c, rfl⟩ := character
  have scalar : c.val.toNat < 0xD800 ∨ 0xDFFF < c.val.toNat ∧ c.val.toNat < 0x110000 := c.valid
  rw [String.utf8EncodeChar]
  generalize c.val.toNat = n at scalar
  split_ifs with one two three
  · refine .single _ ((State.step_start _).trans (if_pos ?_))
    rw [UInt8.toNat_ofNat']
    omega
  · exact closes_two n (by omega) two
  · exact closes_three n (by omega) three (by omega)
  · exact closes_four n (by omega) (by omega)

theorem Closes.run (s : Bytes) (closes : Closes s) : State.start.run s = some .start := by
  cases closes with
  | single b step => simp [State.run, step]
  | last part b state opens step => simp [State.run_append, opens.run, State.run, step]

theorem Closes.ne_nil (s : Bytes) (closes : Closes s) : s ≠ [] := by
  cases closes <;> simp

theorem isValid_of_isCharacter (s : Bytes) (character : IsCharacter s) : isValid s = true :=
  (isValid_iff s).2 (closes_of_isCharacter s character).run

/-- At a cut of a character the automaton is inside of it. -/
theorem Closes.opens_of_proper (s front : Bytes) (closes : Closes s) (begins : front <+: s)
    (some : front ≠ []) (proper : front ≠ s) : ∃ state, Opens front state := by
  cases closes with
  | single b step =>
    rcases List.prefix_cons_iff.1 begins with rfl | ⟨rest, rfl, rest_nil⟩
    · contradiction
    · exact absurd (congrArg (b :: ·) (List.prefix_nil.1 rest_nil)) proper
  | last part b state opens step =>
    rcases List.prefix_concat_iff.1 begins with rfl | shorter
    · contradiction
    · exact opens.of_prefix _ _ _ shorter some

/-- No character begins with another one. -/
theorem IsCharacter.eq_of_prefix (s front : Bytes) (character : IsCharacter s)
    (first : IsCharacter front) (begins : front <+: s) : front = s := by
  have closes := closes_of_isCharacter front first
  by_contra proper
  obtain ⟨state, opens⟩ :=
    (closes_of_isCharacter s character).opens_of_proper s front begins closes.ne_nil proper
  exact opens.ne_start _ _ (Option.some.inj (opens.run.symm.trans closes.run))

/-- What has begun a character can be completed to one. -/
theorem Opens.exists_isCharacter (part : Bytes) (state : State) (opens : Opens part state) :
    ∃ rest, IsCharacter (part ++ rest) := by
  have complete : ∀ more low high part, low.toNat ≤ high.toNat →
      Opens part (.inside low high more) → ∃ rest, IsCharacter (part ++ rest) := by
    intro more
    induction more with
    | zero =>
      intro low high part range opens
      exact ⟨[low], isCharacter_of_closes _ (opens.closes _ low _ _ ⟨Nat.le_refl _, range⟩)⟩
    | succ more ih =>
      intro low high part range opens
      obtain ⟨rest, character⟩ := ih 0x80 0xBF (part ++ [low]) (by decide)
        (opens.tail _ low _ _ _ ⟨Nat.le_refl _, range⟩)
      exact ⟨low :: rest, by simpa using character⟩
  cases state with
  | start => exact absurd rfl opens.ne_start
  | inside low high more =>
    refine complete more low high part ?_ opens
    rcases opens.shape with ⟨lead, rfl, step⟩ | ⟨-, -, -, -, -, -, -, -, -, -, -, rfl, rfl⟩
    · exact (State.range_of_step_start _ _ _ _ step).2.1
    · decide

/-- Behind the beginning of a character that a well-formed text goes on with stands its rest. -/
theorem Opens.exists_closes (part s : Bytes) (state : State) (opens : Opens part state)
    (goes : state.run s = some .start) :
    ∃ last rest, s = last ++ rest ∧ Closes (part ++ last) ∧ isValid rest = true := by
  induction s generalizing part state with
  | nil => exact absurd (Option.some.inj goes) opens.ne_start
  | cons b s ih =>
    rw [State.run] at goes
    split at goes
    · contradiction
    · next next step =>
      by_cases boundary : next = .start
      · subst boundary
        exact ⟨[b], s, rfl, .last part b state opens step, (isValid_iff s).2 goes⟩
      · obtain ⟨last, rest, rfl, closes, valid⟩ :=
          ih (part ++ [b]) next (.next part b state next opens step boundary) goes
        exact ⟨b :: last, rest, rfl, by simpa using closes, valid⟩

/-- A well-formed text begins with a character and goes on as one. -/
theorem exists_isCharacter (b : UInt8) (s : Bytes) (valid : isValid (b :: s) = true) :
    ∃ character rest, b :: s = character ++ rest ∧ IsCharacter character ∧
      isValid rest = true := by
  have goes := (isValid_iff _).1 valid
  rw [State.run] at goes
  split at goes
  · contradiction
  · next next step =>
    by_cases boundary : next = .start
    · subst boundary
      exact ⟨[b], s, rfl, isCharacter_of_closes _ (.single b step), (isValid_iff s).2 goes⟩
    · obtain ⟨last, rest, rfl, closes, valid⟩ :=
        Opens.exists_closes [b] s next (.first b next step boundary) goes
      exact ⟨b :: last, rest, rfl, isCharacter_of_closes _ closes, valid⟩

/-- The well-formed texts are those that are written in characters. -/
theorem isValid_iff_exists_chars (s : Bytes) :
    isValid s = true ↔ ∃ chars : List Char, s = chars.flatMap String.utf8EncodeChar := by
  constructor
  · intro valid
    induction length : s.length using Nat.strongRecOn generalizing s with
    | ind n ih =>
      cases s with
      | nil => exact ⟨[], rfl⟩
      | cons b s =>
        obtain ⟨_, rest, whole, ⟨c, rfl⟩, behind⟩ := exists_isCharacter b s valid
        have shorter : rest.length < n := by
          have some := (closes_of_isCharacter _ ⟨c, rfl⟩).ne_nil
          have counted := congrArg List.length whole
          rw [List.length_append, length] at counted
          have := List.length_pos_iff.2 some
          omega
        obtain ⟨chars, rfl⟩ := ih _ shorter rest behind rfl
        exact ⟨c :: chars, whole⟩
  · rintro ⟨chars, rfl⟩
    induction chars with
    | nil => rfl
    | cons c chars ih =>
      exact isValid_append _ _ (isValid_of_isCharacter _ ⟨c, rfl⟩) ih

end FeedIntake.Utf8
