import FeedIntake.Proofs.Bytes.Decimal
import FeedIntake.Proofs.Bytes.Split
import FeedIntake.Proofs.Utf8.Cut

/-!
What can be done with well-formed text so that it stays well-formed. Main statement: a text may be
cut in front of every byte that is no continuation byte, and bytes of ASCII may be taken out, put in
and replaced by others. From it comes that trimming, splitting, joining, collapsing and cutting at a
limit all keep texts well-formed.
-/
namespace FeedIntake.Utf8

open Bytes

/-- The states that are reached from the start: inside a character only continuation bytes go on. -/
def State.IsSound : State → Prop
  | .start => True
  | .inside low high _ => 0x80 ≤ low ∧ high ≤ 0xBF

theorem State.isSound_step (state next : State) (b : UInt8) (sound : state.IsSound)
    (goes : state.step b = some next) : next.IsSound := by
  cases state with
  | start =>
    simp only [State.step] at goes
    repeat' split at goes
    all_goals first
      | contradiction
      | (obtain rfl := Option.some.inj goes; simp [State.IsSound])
  | inside low high more =>
    simp only [State.step] at goes
    split at goes
    · cases more <;> (obtain rfl := Option.some.inj goes; simp [State.IsSound])
    · contradiction

theorem isContinuation_of_mem_range (b : UInt8) (low : 0x80 ≤ b) (high : b ≤ 0xBF) :
    isContinuation b = true :=
  forall_of_all (fun b => 0x80 ≤ b → b ≤ 0xBF → isContinuation b = true) (by decide +kernel)
    b low high

theorem isContinuation_of_lt (b : UInt8) (ascii : b < 0x80) : isContinuation b = false :=
  forall_of_all (fun b => b < 0x80 → isContinuation b = false) (by decide +kernel) b ascii

theorem State.step_start_of_continuation (b : UInt8) (inside : isContinuation b = true) :
    State.start.step b = none :=
  forall_of_all (fun b => isContinuation b = true → State.start.step b = none) (by decide +kernel)
    b inside

/-- Inside a character nothing but a continuation byte goes on. -/
theorem State.eq_start_of_step (state next : State) (b : UInt8) (sound : state.IsSound)
    (goes : state.step b = some next) (first : isContinuation b = false) : state = .start := by
  cases state with
  | start => rfl
  | inside low high more =>
    simp only [State.step] at goes
    split at goes
    · next range =>
      simp only [Bool.and_eq_true, decide_eq_true_eq] at range
      have inside := isContinuation_of_mem_range b (UInt8.le_trans sound.1 range.1)
        (UInt8.le_trans range.2 sound.2)
      simp [first] at inside
    · contradiction

theorem State.run_append (state : State) (s t : Bytes) :
    state.run (s ++ t) = (state.run s).bind (·.run t) := by
  induction s generalizing state with
  | nil => rfl
  | cons b s ih =>
    simp only [List.cons_append, State.run]
    cases state.step b with
    | none => rfl
    | some next => exact ih next

theorem State.isSound_run (state last : State) (s : Bytes) (sound : state.IsSound)
    (goes : state.run s = some last) : last.IsSound := by
  induction s generalizing state with
  | nil => exact Option.some.inj goes ▸ sound
  | cons b s ih =>
    simp only [State.run] at goes
    split at goes
    · contradiction
    · next next step => exact ih next (state.isSound_step next b sound step) goes

theorem isValid_iff (s : Bytes) : isValid s = true ↔ State.start.run s = some .start := by
  simp [isValid]

@[simp] theorem isValid_nil : isValid [] = true := rfl

/-- Behind a well-formed text another begins anew. -/
theorem isValid_append_iff (s t : Bytes) (valid : isValid s = true) :
    isValid (s ++ t) = true ↔ isValid t = true := by
  rw [isValid_iff, State.run_append, (isValid_iff s).1 valid, isValid_iff]
  rfl

theorem isValid_append (s t : Bytes) (front : isValid s = true) (behind : isValid t = true) :
    isValid (s ++ t) = true := (isValid_append_iff s t front).2 behind

theorem isValid_flatten (parts : List Bytes) (valid : ∀ part ∈ parts, isValid part = true) :
    isValid parts.flatten = true := by
  induction parts with
  | nil => rfl
  | cons part parts ih =>
    obtain ⟨first, others⟩ := List.forall_mem_cons.1 valid
    exact isValid_append _ _ first (ih others)

/-- A text can be cut in front of every byte that begins a character. -/
theorem isValid_append_cons_iff (s t : Bytes) (b : UInt8) (first : isContinuation b = false) :
    isValid (s ++ b :: t) = true ↔ isValid s = true ∧ isValid (b :: t) = true := by
  constructor
  · intro valid
    have valid := (isValid_iff _).1 valid
    rw [State.run_append] at valid
    obtain ⟨state, front, behind⟩ := Option.bind_eq_some_iff.1 valid
    have boundary : state = .start := by
      simp only [State.run] at behind
      split at behind
      · contradiction
      · next next step =>
        exact state.eq_start_of_step next b (State.isSound_run .start _ s trivial front) step first
    subst boundary
    exact ⟨(isValid_iff s).2 front, (isValid_iff _).2 behind⟩
  · rintro ⟨front, behind⟩
    exact isValid_append _ _ front behind

/-- A byte of ASCII is a character by itself. -/
theorem isValid_cons_iff (b : UInt8) (s : Bytes) (ascii : b < 0x80) :
    isValid (b :: s) = true ↔ isValid s = true := by
  simp [isValid, State.run, State.step, ascii]

theorem isValid_append_ascii_iff (s t : Bytes) (b : UInt8) (ascii : b < 0x80) :
    isValid (s ++ b :: t) = true ↔ isValid s = true ∧ isValid t = true := by
  rw [isValid_append_cons_iff s t b (isContinuation_of_lt b ascii), isValid_cons_iff b t ascii]

theorem isValid_of_ascii (s : Bytes) (ascii : ∀ b ∈ s, b < 0x80) : isValid s = true := by
  induction s with
  | nil => rfl
  | cons b s ih =>
    obtain ⟨first, others⟩ := List.forall_mem_cons.1 ascii
    exact (isValid_cons_iff b s first).2 (ih others)

/-- A byte of ASCII stands between characters. -/
theorem State.step_ascii (state : State) (b : UInt8) (sound : state.IsSound) (ascii : b < 0x80) :
    state.step b = if state = .start then some .start else none := by
  split
  · next same => simp [same, State.step, ascii]
  · next inside =>
    cases step : state.step b with
    | none => rfl
    | some next =>
      exact absurd (state.eq_start_of_step next b sound step (isContinuation_of_lt b ascii)) inside

/-- Bytes of ASCII may be taken out. -/
theorem isValid_filter (p : UInt8 → Bool) (s : Bytes) (valid : isValid s = true)
    (ascii : ∀ b, p b = false → b < 0x80) : isValid (s.filter p) = true := by
  have kept : ∀ state last : State, state.IsSound → state.run s = some last →
      state.run (s.filter p) = some last := by
    clear valid
    induction s with
    | nil => exact fun _ _ _ goes => goes
    | cons b s ih =>
      intro state last sound goes
      simp only [State.run] at goes
      split at goes
      · contradiction
      · next next step =>
        have later := ih next last (state.isSound_step next b sound step) goes
        cases keep : p b with
        | true => simpa [keep, State.run, step] using later
        | false =>
          rw [state.step_ascii b sound (ascii b keep)] at step
          split at step
          · next same =>
            obtain rfl := Option.some.inj step
            simpa [keep, same] using later
          · contradiction
  exact (isValid_iff _).2 (kept .start .start trivial ((isValid_iff s).1 valid))

/-- Bytes of ASCII may be replaced by others, and nothing else is then right or wrong. -/
theorem isValid_flatMap_iff (f : UInt8 → Bytes) (s : Bytes)
    (ascii : ∀ b, b < 0x80 → f b ≠ [] ∧ ∀ c ∈ f b, c < 0x80) (other : ∀ b, ¬ b < 0x80 → f b = [b]) :
    isValid (s.flatMap f) = true ↔ isValid s = true := by
  have same : ∀ state : State, state.IsSound → state.run (s.flatMap f) = state.run s := by
    induction s with
    | nil => exact fun _ _ => rfl
    | cons b s ih =>
      intro state sound
      by_cases plain : b < 0x80
      · obtain ⟨some, all⟩ := ascii b plain
        have step := state.step_ascii b sound plain
        by_cases same : state = .start
        · subst same
          have written := (isValid_iff _).1 (isValid_of_ascii (f b) all)
          rw [List.flatMap_cons, State.run_append, written, State.run, step]
          exact ih .start trivial
        · obtain ⟨c, rest, first⟩ := List.exists_cons_of_ne_nil some
          have refused := state.step_ascii c sound (all c (first ▸ List.mem_cons_self))
          rw [if_neg same] at step refused
          rw [List.flatMap_cons, first, List.cons_append, State.run, State.run, step, refused]
      · rw [List.flatMap_cons, other b plain, List.singleton_append, State.run, State.run]
        cases step : state.step b with
        | none => rfl
        | some next => exact ih next (state.isSound_step next b sound step)
  rw [isValid_iff, isValid_iff, same .start trivial]

theorem lt_of_isBlank (b : UInt8) (blank : isBlank b = true) : b < 0x80 :=
  forall_of_all (fun b => isBlank b = true → b < 0x80) (by decide +kernel) b blank

theorem isValid_decimal (n : Nat) : isValid (Numeral.decimal n) = true := by
  have ascii : ∀ b : UInt8, isDigit b = true → b < 0x80 := forall_of_all _ (by decide +kernel)
  exact isValid_of_ascii _ fun b member => ascii b (Numeral.isDigit_of_mem_decimal n b member)

theorem isValid_trim (s : Bytes) (valid : isValid s = true) : isValid (trim s) = true := by
  obtain ⟨before, after, whole, blankBefore, blankAfter⟩ := exists_trim s
  have front := isValid_of_ascii before fun b member => lt_of_isBlank b (blankBefore b member)
  rw [whole, List.append_assoc, isValid_append_iff _ _ front] at valid
  cases after with
  | nil => simpa using valid
  | cons b after =>
    have ascii := lt_of_isBlank b (blankAfter b List.mem_cons_self)
    exact ((isValid_append_ascii_iff _ _ b ascii).1 valid).1

theorem isValid_join_iff (sep : UInt8) (ascii : sep < 0x80) (parts : List Bytes) :
    isValid (join sep parts) = true ↔ ∀ part ∈ parts, isValid part = true := by
  induction parts with
  | nil => simp
  | cons part parts ih =>
    cases parts with
    | nil => simp
    | cons next parts =>
      rw [join_cons_cons, isValid_append_ascii_iff _ _ _ ascii, ih]
      simp

theorem isValid_of_mem_splitOn (sep : UInt8) (ascii : sep < 0x80) (s part : Bytes)
    (valid : isValid s = true) (member : part ∈ splitOn sep s) : isValid part = true := by
  rw [← join_splitOn sep s, isValid_join_iff sep ascii] at valid
  exact valid part member

/-- What is kept so far ends in the state of the text so far, and blanks only stand between
characters. -/
theorem run_squeeze (s : Bytes) (squeeze : Squeeze) (state last : State) (sound : state.IsSound)
    (kept : State.start.run squeeze.kept.reverse = some state)
    (apart : squeeze.pending = true → state = .start) (goes : state.run s = some last) :
    State.start.run (s.foldl Squeeze.step squeeze).kept.reverse = some last := by
  induction s generalizing squeeze state with
  | nil => exact kept.trans goes
  | cons b s ih =>
    simp only [State.run] at goes
    split at goes
    · contradiction
    · next next step =>
      have sound' := state.isSound_step next b sound step
      rw [List.foldl_cons]
      by_cases blank : isBlank b = true
      · rw [state.step_ascii b sound (lt_of_isBlank b blank)] at step
        split at step
        · next same =>
          obtain rfl := Option.some.inj step
          refine ih _ .start trivial ?_ (fun _ => rfl) goes
          simpa [Squeeze.step, blank, same] using kept
        · contradiction
      · by_cases pending : squeeze.pending = true
        · have boundary := apart pending
          subst boundary
          refine ih _ next sound' ?_ (by simp [Squeeze.step, blank, pending]) goes
          have space : State.start.step Mark.space = some .start := rfl
          simp [Squeeze.step, blank, pending, State.run_append, kept, State.run, space, step]
        · refine ih _ next sound' ?_ (by simp [Squeeze.step, blank, pending]) goes
          simp [Squeeze.step, blank, pending, State.run_append, kept, State.run, step]

theorem isValid_collapse (s : Bytes) (valid : isValid s = true) : isValid (collapse s) = true := by
  rw [isValid_iff] at valid ⊢
  exact run_squeeze s ⟨[], false⟩ .start .start trivial rfl (fun _ => rfl) valid

/-- A cut stands at the end or in front of a byte that begins a character. -/
theorem exists_truncate (limit : Nat) (s : Bytes) :
    ∃ rest, s = truncate limit s ++ rest ∧ ∀ b ∈ rest.head?, isContinuation b = false := by
  induction s generalizing limit with
  | nil => exact ⟨[], rfl, by simp⟩
  | cons b s ih =>
    cases first : isContinuation b with
    | true =>
      obtain ⟨rest, whole, cut⟩ := ih limit
      rw [truncate_cons_of_continuation limit b s first]
      exact ⟨rest, congrArg (b :: ·) whole, cut⟩
    | false =>
      cases limit with
      | zero =>
        rw [truncate_zero_cons b s first]
        exact ⟨b :: s, rfl, by simpa using first⟩
      | succ limit =>
        obtain ⟨rest, whole, cut⟩ := ih limit
        rw [truncate_succ_cons limit b s first]
        exact ⟨rest, congrArg (b :: ·) whole, cut⟩

theorem isValid_truncate (limit : Nat) (s : Bytes) (valid : isValid s = true) :
    isValid (truncate limit s) = true := by
  obtain ⟨rest, whole, cut⟩ := exists_truncate limit s
  rw [whole] at valid
  cases rest with
  | nil => simpa using valid
  | cons b rest => exact ((isValid_append_cons_iff _ rest b (cut b rfl)).1 valid).1

theorem isValid_shorten (width : Nat) (placeholder s : Bytes) (valid : isValid s = true)
    (whole : isValid placeholder = true) : isValid (shorten width placeholder s) = true := by
  rw [shorten]
  split
  · exact valid
  · exact isValid_append _ _ (isValid_truncate _ s valid) whole

end FeedIntake.Utf8
