import FeedIntake.Proofs.Json.Fault
import FeedIntake.Record.Raw

/-!
Reading JSON of well-formed text. A string is read only if it is well-formed, so every token is, and
so is all that is kept while values are put together. Main statements: a value that is read is one
of well-formed text, and so is every field of a document that is read.
-/
namespace FeedIntake

namespace Json

def Token.IsText : Token → Prop
  | .scalar value => value.IsText
  | _ => True

theorem isText_ofBare (s : Bytes) (value : Json) (read : ofBare s = .ok value) : value.IsText := by
  rw [ofBare] at read
  repeat' split at read
  all_goals first
    | contradiction
    | (obtain rfl := Except.ok.inj read; rfl)

theorem isText_of_punctuation? (b : UInt8) (token : Token) (mark : punctuation? b = some token) :
    token.IsText := by
  rw [punctuation?] at mark
  repeat' split at mark
  all_goals first
    | contradiction
    | (obtain rfl := Option.some.inj mark; exact trivial)

theorem isText_stepBetween (tokens : List Token) (b : UInt8)
    (before : ∀ token ∈ tokens, token.IsText) :
    ∀ token ∈ (stepBetween tokens b).tokens, token.IsText := by
  rw [stepBetween]
  split
  · exact before
  · split
    · exact before
    · split
      · next token mark =>
        exact List.forall_mem_cons.2 ⟨isText_of_punctuation? b token mark, before⟩
      · exact before

/-- The end of a string is where it is checked. -/
theorem Lexer.isText_step (lexer next : Lexer) (b : UInt8) (step : lexer.step b = .ok next)
    (before : ∀ token ∈ lexer.tokens, token.IsText) : ∀ token ∈ next.tokens, token.IsText := by
  obtain ⟨mode, tokens⟩ := lexer
  cases mode with
  | between =>
    obtain rfl := Except.ok.inj step
    exact isText_stepBetween tokens b before
  | bare kept =>
    simp only [Lexer.step] at step
    split at step
    · cases read : ofBare kept.reverse with
      | error cause => simp [read, bind, Except.bind] at step
      | ok value =>
        rw [read] at step
        obtain rfl := Except.ok.inj step
        exact isText_stepBetween _ b (List.forall_mem_cons.2 ⟨isText_ofBare _ _ read, before⟩)
    · obtain rfl := Except.ok.inj step
      exact before
  | inString kept =>
    simp only [Lexer.step] at step
    split at step
    · split at step
      · next valid =>
        obtain rfl := Except.ok.inj step
        exact List.forall_mem_cons.2 ⟨(isText_string_iff _).2 valid, before⟩
      · contradiction
    · repeat' split at step
      all_goals first
        | contradiction
        | (obtain rfl := Except.ok.inj step; exact before)
  | backslash | unicode | pair | pairBackslash =>
    simp only [Lexer.step] at step
    repeat' split at step
    all_goals first
      | contradiction
      | (obtain rfl := Except.ok.inj step; exact before)

theorem Lexer.isText_run (lexer last : Lexer) (s : Bytes) (run : lexer.run s = .ok last)
    (before : ∀ token ∈ lexer.tokens, token.IsText) : ∀ token ∈ last.tokens, token.IsText := by
  induction s generalizing lexer with
  | nil => exact Except.ok.inj run ▸ before
  | cons b s ih =>
    rw [Lexer.run] at run
    split at run
    · next next step => exact ih next run (lexer.isText_step next b step before)
    · contradiction

theorem isText_of_mem_tokens (s : Bytes) (read : List Token) (lexed : tokens s = .ok read) :
    ∀ token ∈ read, token.IsText := by
  rw [tokens] at lexed
  cases run : Lexer.run ⟨.between, []⟩ s with
  | error cause => simp [run, bind, Except.bind] at lexed
  | ok last =>
    have whole := Lexer.isText_run _ last s run nofun
    simp only [run, bind, Except.bind] at lexed
    split at lexed
    · obtain rfl := Except.ok.inj lexed
      simpa using whole
    · next kept _ =>
      cases bare : ofBare kept.reverse with
      | error cause => simp [bare] at lexed
      | ok value =>
        simp only [bare] at lexed
        obtain rfl := Except.ok.inj lexed
        have last := isText_ofBare _ value bare
        simp only [List.reverse_cons, List.mem_append, List.mem_reverse, List.mem_singleton]
        rintro token (front | rfl)
        · exact whole token front
        · exact last
    · contradiction

def Frame.IsText : Frame → Prop
  | .items done => ∀ item ∈ done, item.IsText
  | .members done key => (∀ member ∈ done, MemberIsText member) ∧ Utf8.isValid key = true

/-- Everything that is kept while a value is put together is of well-formed text. -/
def Expecting.IsText : Expecting → Prop
  | .value stack | .firstItem stack | .firstKey stack => ∀ frame ∈ stack, frame.IsText
  | .afterItem done stack => (∀ item ∈ done, item.IsText) ∧ ∀ frame ∈ stack, frame.IsText
  | .key done stack | .afterMember done stack =>
    (∀ member ∈ done, MemberIsText member) ∧ ∀ frame ∈ stack, frame.IsText
  | .colon done name stack => (Frame.members done name).IsText ∧ ∀ frame ∈ stack, frame.IsText
  | .nothing found => found.IsText

theorem isText_complete (value : Json) (stack : List Frame) (whole : value.IsText)
    (around : ∀ frame ∈ stack, frame.IsText) : (complete value stack).IsText := by
  cases stack with
  | nil => exact whole
  | cons frame stack =>
    obtain ⟨first, others⟩ := List.forall_mem_cons.1 around
    cases frame with
    | items done => exact ⟨List.forall_mem_cons.2 ⟨whole, first⟩, others⟩
    | members done key => exact ⟨List.forall_mem_cons.2 ⟨⟨first.2, whole⟩, first.1⟩, others⟩

theorem isText_beginValue (stack : List Frame) (token : Token) (next : Expecting)
    (begins : beginValue stack token = some next) (whole : token.IsText)
    (around : ∀ frame ∈ stack, frame.IsText) : next.IsText := by
  cases token with
  | scalar value =>
    obtain rfl := Option.some.inj begins
    exact isText_complete value stack whole around
  | openObject | openArray =>
    obtain rfl := Option.some.inj begins
    exact around
  | _ => contradiction

theorem Expecting.isText_step (expecting next : Expecting) (token : Token)
    (step : expecting.step token = some next) (whole : token.IsText)
    (before : expecting.IsText) : next.IsText := by
  unfold Expecting.step at step
  split at step
  · exact isText_beginValue _ _ next step whole before
  · obtain rfl := Option.some.inj step
    exact isText_complete _ _ ((isText_array_iff _).2 nofun) before
  · exact isText_beginValue _ _ next step whole (List.forall_mem_cons.2 ⟨nofun, before⟩)
  · obtain rfl := Option.some.inj step
    exact List.forall_mem_cons.2 before
  · obtain rfl := Option.some.inj step
    exact isText_complete _ _ ((isText_array_iff _).2 (by simpa using before.1)) before.2
  · obtain rfl := Option.some.inj step
    exact isText_complete _ _ ((isText_object_iff _).2 nofun) before
  · obtain rfl := Option.some.inj step
    exact ⟨⟨nofun, (isText_string_iff _).1 whole⟩, before⟩
  · obtain rfl := Option.some.inj step
    exact ⟨⟨before.1, (isText_string_iff _).1 whole⟩, before.2⟩
  · obtain rfl := Option.some.inj step
    exact List.forall_mem_cons.2 before
  · obtain rfl := Option.some.inj step
    exact before
  · obtain rfl := Option.some.inj step
    exact isText_complete _ _ (isText_ofMembers _ (by simpa using before.1)) before.2
  · contradiction

theorem Expecting.isText_run (expecting last : Expecting) (tokens : List Token)
    (run : expecting.run tokens = some last) (whole : ∀ token ∈ tokens, token.IsText)
    (before : expecting.IsText) : last.IsText := by
  induction tokens generalizing expecting with
  | nil => exact Option.some.inj run ▸ before
  | cons token tokens ih =>
    obtain ⟨first, others⟩ := List.forall_mem_cons.1 whole
    rw [Expecting.run] at run
    split at run
    · next next step =>
      exact ih next run others (expecting.isText_step next token step first before)
    · contradiction

/-- Every value that is read can be written. -/
theorem isText_ofText (s : Bytes) (value : Json) (read : ofText s = .ok value) :
    value.IsText := by
  rw [ofText] at read
  cases lexed : tokens (if Bytes.startsWith s Utf8.byteOrderMark
      then s.drop Utf8.byteOrderMark.length else s) with
  | error cause => simp [lexed, bind, Except.bind] at read
  | ok tokens =>
    simp only [lexed, bind, Except.bind] at read
    split at read
    · next found run =>
      obtain rfl := Except.ok.inj read
      exact Expecting.isText_run _ _ tokens run (isText_of_mem_tokens _ tokens lexed) nofun
    · contradiction

end Json

end FeedIntake
