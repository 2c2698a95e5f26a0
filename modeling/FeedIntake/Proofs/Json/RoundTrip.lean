import Mathlib.Tactic.IntervalCases
import FeedIntake.Proofs.Json.Members
import FeedIntake.Proofs.Json.Reading

/-!
Reading what was written. The lexer finds the tokens of a value in its text, whatever the layout,
and the machine over tokens puts the value together again. Main statement: the text of a value of
well-formed text is read as that value, where of several members with one key the last one counts.
-/
namespace FeedIntake.Json

mutual

/-- The value in which each object has the members that count. -/
def canonical : Json → Json
  | array items => array (canonicalItems items)
  | object members => ofMembers (canonicalMembers members)
  | value => value

def canonicalItems : List Json → List Json
  | [] => []
  | item :: rest => canonical item :: canonicalItems rest

def canonicalMembers : List (Bytes × Json) → List (Bytes × Json)
  | [] => []
  | (key, value) :: rest => (key, canonical value) :: canonicalMembers rest

end

@[simp] theorem canonical_string (text : Bytes) : (string text).canonical = string text := rfl

mutual

/-- The numbers in a value, as they are written. -/
def literals : Json → List Bytes
  | number literal => [literal]
  | array items => itemLiterals items
  | object members => memberLiterals members
  | _ => []

def itemLiterals : List Json → List Bytes
  | [] => []
  | item :: rest => literals item ++ itemLiterals rest

def memberLiterals : List (Bytes × Json) → List Bytes
  | [] => []
  | (_, value) :: rest => literals value ++ memberLiterals rest

end

@[simp] theorem literals_string (text : Bytes) : (string text).literals = [] := rfl

mutual

/-- The tokens of a value. -/
def tokensOf : Json → List Token
  | array items => .openArray :: (itemTokens items ++ [.closeArray])
  | object members => .openObject :: (memberTokens members ++ [.closeObject])
  | value => [.scalar value]

def itemTokens : List Json → List Token
  | [] => []
  | item :: rest => tokensOf item ++ (if rest.isEmpty then [] else [.comma]) ++ itemTokens rest

def memberTokens : List (Bytes × Json) → List Token
  | [] => []
  | (key, value) :: rest =>
    .scalar (string key) :: .colon :: (tokensOf value ++ (if rest.isEmpty then [] else [.comma])
      ++ memberTokens rest)

end

theorem Expecting.run_of_step (expecting next : Expecting) (token : Token) (rest : List Token)
    (step : expecting.step token = some next) :
    expecting.run (token :: rest) = next.run rest := by
  rw [Expecting.run, step]

/-- Behind an item comes the end of the array or, behind a comma, the next one. -/
def Expecting.ofItems (done : List Json) (stack : List Frame) : List Json → Expecting
  | [] => .afterItem done stack
  | _ :: _ => .value (.items done :: stack)

/-- Behind a member comes the end of the object or, behind a comma, the next one. -/
def Expecting.ofMembers (done : List (Bytes × Json)) (stack : List Frame) :
    List (Bytes × Json) → Expecting
  | [] => .afterMember done stack
  | _ :: _ => .key done stack

/-- No value begins with the end of an array. -/
theorem run_firstItem (item : Json) (stack : List Frame) (rest : List Token) :
    Expecting.run (.firstItem stack) (item.tokensOf ++ rest) =
      Expecting.run (.value (.items [] :: stack)) (item.tokensOf ++ rest) := by
  cases item <;> rfl

mutual

/-- The tokens of a value put it together, whatever is open around it. -/
theorem run_tokensOf : ∀ (value : Json) (stack : List Frame) (rest : List Token),
    Expecting.run (.value stack) (value.tokensOf ++ rest) =
      Expecting.run (complete value.canonical stack) rest
  | .null, _, _ | .bool _, _, _ | .number _, _, _ | .string _, _, _ => rfl
  | .array items, stack, rest => by
    have inside := run_itemTokens items [] stack rest
    rw [tokensOf, List.cons_append, Expecting.run_of_step _ (.firstItem stack) _ _ rfl, canonical,
      List.append_assoc, List.singleton_append]
    cases items with
    | nil => rfl
    | cons item items =>
      rw [itemTokens, List.append_assoc, List.append_assoc] at inside ⊢
      rw [run_firstItem]
      exact inside
  | .object members, stack, rest => by
    have inside := run_memberTokens members [] stack rest
    rw [tokensOf, List.cons_append, Expecting.run_of_step _ (.firstKey stack) _ _ rfl, canonical,
      List.append_assoc, List.singleton_append]
    cases members with
    | nil => rfl
    | cons member members => exact inside

theorem run_itemTokens : ∀ (items done : List Json) (stack : List Frame) (rest : List Token),
    Expecting.run (.ofItems done stack items) (itemTokens items ++ .closeArray :: rest) =
      Expecting.run (complete (array (done.reverse ++ canonicalItems items)) stack) rest
  | [], done, stack, rest => by
    simp [Expecting.ofItems, itemTokens, Expecting.run, Expecting.step, canonicalItems]
  | item :: items, done, stack, rest => by
    have later := run_itemTokens items (item.canonical :: done) stack rest
    rw [itemTokens, List.append_assoc, List.append_assoc, Expecting.ofItems, run_tokensOf item,
      complete]
    cases items <;>
      simpa [Expecting.run, Expecting.step, Expecting.ofItems, canonicalItems] using later

theorem run_memberTokens : ∀ (members done : List (Bytes × Json)) (stack : List Frame)
    (rest : List Token),
    Expecting.run (.ofMembers done stack members) (memberTokens members ++ .closeObject :: rest) =
      Expecting.run (complete (ofMembers (done.reverse ++ canonicalMembers members)) stack) rest
  | [], done, stack, rest => by
    simp [Expecting.ofMembers, memberTokens, Expecting.run, Expecting.step, canonicalMembers]
  | (key, value) :: members, done, stack, rest => by
    have later := run_memberTokens members ((key, value.canonical) :: done) stack rest
    rw [memberTokens, Expecting.ofMembers, List.cons_append, List.cons_append, List.append_assoc,
      List.append_assoc, Expecting.run_of_step _ (.colon done key stack) _ _ rfl,
      Expecting.run_of_step _ (.value (.members done key :: stack)) _ _ rfl, run_tokensOf value,
      complete]
    cases members <;>
      simpa [Expecting.run, Expecting.step, Expecting.ofMembers, canonicalMembers] using later

end

/-- What ends a word or a number. -/
def endsBare (b : UInt8) : Bool := isGap b || b == Mark.doubleQuote || (punctuation? b).isSome

/-- A number as it may be written: it is read as it stands, and nothing in it ends it. -/
def IsNumeral (literal : Bytes) : Prop :=
  ofBare literal = .ok (number literal) ∧ ∀ b ∈ literal, endsBare b = false

/-- The lexer stands behind these tokens, last first; a word or number at the end may still be open.
-/
def Lexer.Holds (lexer : Lexer) (tokens : List Token) : Prop :=
  lexer = ⟨.between, tokens⟩ ∨ ∃ kept value before, lexer = ⟨.bare kept, before⟩ ∧
    ofBare kept.reverse = .ok value ∧ tokens = .scalar value :: before

/-- Behind `s` the lexer stands behind these tokens. -/
def Lexer.Reads (lexer : Lexer) (s : Bytes) (tokens : List Token) : Prop :=
  ∃ next, lexer.run s = .ok next ∧ next.Holds tokens

theorem Lexer.run_append (lexer next : Lexer) (s t : Bytes) (front : lexer.run s = .ok next) :
    lexer.run (s ++ t) = next.run t := by
  induction s generalizing lexer with
  | nil => rw [Except.ok.inj front, List.nil_append]
  | cons b s ih =>
    rw [List.cons_append, run]
    rw [run] at front
    split at front
    · next step => exact ih _ front
    · contradiction

theorem Lexer.run_cons (lexer next : Lexer) (b : UInt8) (s : Bytes)
    (step : lexer.step b = .ok next) : lexer.run (b :: s) = next.run s := by
  rw [run, step]

/-- What ends an open word or number closes it. -/
theorem Lexer.Holds.step (lexer : Lexer) (tokens : List Token) (b : UInt8)
    (holds : lexer.Holds tokens) (ends : endsBare b = true) :
    lexer.step b = .ok (stepBetween tokens b) := by
  rcases holds with rfl | ⟨kept, value, before, rfl, read, rfl⟩
  · rfl
  · rw [endsBare] at ends
    simp only [Lexer.step, ends, if_true, read]
    rfl

theorem stepBetween_of_punctuation? (tokens : List Token) (b : UInt8) (token : Token)
    (mark : punctuation? b = some token) : stepBetween tokens b = ⟨.between, token :: tokens⟩ := by
  have apart : ∀ b : UInt8, (punctuation? b).isSome = true →
      isGap b = false ∧ b ≠ Mark.doubleQuote := Bytes.forall_of_all _ (by decide +kernel)
  obtain ⟨gap, other⟩ := apart b (by simp [mark])
  simp [stepBetween, gap, other, mark]

theorem Lexer.reads_cons (lexer : Lexer) (tokens read : List Token) (b : UInt8) (s : Bytes)
    (holds : lexer.Holds tokens) (ends : endsBare b = true)
    (behind : (stepBetween tokens b).Reads s read) : lexer.Reads (b :: s) read := by
  obtain ⟨next, run, last⟩ := behind
  exact ⟨next, (lexer.run_cons _ b s (holds.step _ _ _ ends)).trans run, last⟩

theorem Lexer.Reads.append (lexer : Lexer) (s t : Bytes) (tokens read : List Token)
    (front : lexer.Reads s tokens)
    (behind : ∀ next : Lexer, next.Holds tokens → next.Reads t read) :
    lexer.Reads (s ++ t) read := by
  obtain ⟨middle, run, holds⟩ := front
  obtain ⟨next, rest, last⟩ := behind middle holds
  exact ⟨next, (lexer.run_append middle s t run).trans rest, last⟩

/-- A mark is a token by itself, also directly behind a word or number. -/
theorem Lexer.Holds.reads_mark (lexer : Lexer) (tokens read : List Token) (b : UInt8)
    (token : Token) (s : Bytes) (holds : lexer.Holds tokens) (mark : punctuation? b = some token)
    (behind : Lexer.Reads ⟨.between, token :: tokens⟩ s read) : lexer.Reads (b :: s) read := by
  refine lexer.reads_cons tokens read b s holds (by simp [endsBare, mark]) ?_
  rw [stepBetween_of_punctuation? tokens b token mark]
  exact behind

/-- Gaps between tokens are passed over. -/
theorem Lexer.run_gaps (tokens : List Token) (s : Bytes) (gaps : ∀ b ∈ s, isGap b = true) :
    Lexer.run ⟨.between, tokens⟩ s = .ok ⟨.between, tokens⟩ := by
  induction s with
  | nil => rfl
  | cons b s ih =>
    obtain ⟨gap, others⟩ := List.forall_mem_cons.1 gaps
    rw [Lexer.run_cons _ ⟨.between, tokens⟩ b s (by simp [Lexer.step, stepBetween, gap]), ih others]

theorem Lexer.Holds.reads_gaps (lexer : Lexer) (tokens : List Token) (s : Bytes)
    (holds : lexer.Holds tokens) (gaps : ∀ b ∈ s, isGap b = true) : lexer.Reads s tokens := by
  cases s with
  | nil => exact ⟨lexer, rfl, holds⟩
  | cons b s =>
    obtain ⟨gap, others⟩ := List.forall_mem_cons.1 gaps
    refine lexer.reads_cons tokens tokens b s holds (by simp [endsBare, gap]) ?_
    have passed : stepBetween tokens b = ⟨.between, tokens⟩ := by simp [stepBetween, gap]
    exact ⟨_, passed ▸ Lexer.run_gaps tokens s others, .inl rfl⟩

/-- A byte of a string is read back from its written form. -/
theorem Lexer.run_escapeByte (kept : Bytes) (tokens : List Token) (b : UInt8) :
    Lexer.run ⟨.inString kept, tokens⟩ (escapeByte b) = .ok ⟨.inString (b :: kept), tokens⟩ := by
  have control : ∀ n < 32, Lexer.run ⟨.inString kept, tokens⟩ (escapeByte (UInt8.ofNat n)) =
      .ok ⟨.inString (UInt8.ofNat n :: kept), tokens⟩ := by
    intro n small
    interval_cases n <;> rfl
  have kinds : ∀ b : UInt8, b.toNat < 32 ∨ b = Mark.doubleQuote ∨ b = Mark.backslash ∨
      (¬ b < 0x20 ∧ b ≠ Mark.doubleQuote ∧ b ≠ Mark.backslash) ∧ escapeByte b = [b] :=
    Bytes.forall_of_all _ (by decide +kernel)
  rcases kinds b with small | rfl | rfl | ⟨⟨low, quoted, escaped⟩, plain⟩
  · simpa using control b.toNat small
  · rfl
  · rfl
  · simp [plain, Lexer.run, Lexer.step, quoted, escaped, low]

theorem Lexer.run_quoted (kept s : Bytes) (tokens : List Token) :
    Lexer.run ⟨.inString kept, tokens⟩ (s.flatMap escapeByte) =
      .ok ⟨.inString (s.reverse ++ kept), tokens⟩ := by
  induction s generalizing kept with
  | nil => rfl
  | cons b s ih =>
    rw [List.flatMap_cons, Lexer.run_append _ _ _ _ (Lexer.run_escapeByte kept tokens b), ih]
    simp

/-- A well-formed string is read back from its written form. -/
theorem Lexer.run_quote (s : Bytes) (tokens : List Token) (valid : Utf8.isValid s = true) :
    Lexer.run ⟨.between, tokens⟩ (quote s) = .ok ⟨.between, .scalar (string s) :: tokens⟩ := by
  rw [quote, List.append_assoc, List.singleton_append,
    Lexer.run_cons _ ⟨.inString [], tokens⟩ _ _ rfl,
    Lexer.run_append _ _ _ _ (Lexer.run_quoted [] s tokens)]
  simp [Lexer.run, Lexer.step, valid]

/-- Bytes that end nothing are kept while a word or number is open. -/
theorem Lexer.run_bare (kept s : Bytes) (tokens : List Token)
    (open_ : ∀ b ∈ s, endsBare b = false) :
    Lexer.run ⟨.bare kept, tokens⟩ s = .ok ⟨.bare (s.reverse ++ kept), tokens⟩ := by
  induction s generalizing kept with
  | nil => rfl
  | cons b s ih =>
    obtain ⟨first, others⟩ := List.forall_mem_cons.1 open_
    rw [endsBare] at first
    rw [Lexer.run_cons _ ⟨.bare (b :: kept), tokens⟩ b s (by simp [Lexer.step, first]),
      ih (b :: kept) others]
    simp

/-- A word or number is read from its text. -/
theorem Lexer.reads_bare (s : Bytes) (value : Json) (tokens : List Token)
    (read : ofBare s = .ok value) (open_ : ∀ b ∈ s, endsBare b = false) :
    Lexer.Reads ⟨.between, tokens⟩ s (.scalar value :: tokens) := by
  cases s with
  | nil => contradiction
  | cons b s =>
    obtain ⟨first, others⟩ := List.forall_mem_cons.1 open_
    simp only [endsBare, Bool.or_eq_false_iff, Option.isSome_eq_false_iff,
      Option.isNone_iff_eq_none] at first
    obtain ⟨⟨gap, mark⟩, none⟩ := first
    refine ⟨⟨.bare (s.reverse ++ [b]), tokens⟩, ?_, .inr ⟨_, value, tokens, rfl, ?_, rfl⟩⟩
    · rw [Lexer.run_cons _ ⟨.bare [b], tokens⟩ b s (by
        simp [Lexer.step, stepBetween, gap, mark, none]), Lexer.run_bare [b] s tokens others]
    · simpa using read

theorem isGap_of_mem_newLine (layout : Layout) (depth : Nat) :
    ∀ b ∈ layout.newLine depth, isGap b = true := by
  cases layout with
  | compact => nofun
  | indented =>
    intro b member
    rcases List.mem_cons.1 member with rfl | space
    · rfl
    · rw [(List.mem_replicate.1 space).2]
      rfl

theorem Lexer.Reads.after (lexer next : Lexer) (s t : Bytes) (read : List Token)
    (front : lexer.run s = .ok next) (behind : next.Reads t read) : lexer.Reads (s ++ t) read := by
  obtain ⟨last, rest, holds⟩ := behind
  exact ⟨last, (lexer.run_append next s t front).trans rest, holds⟩

/-- What is read between two marks stands between their tokens. -/
theorem Lexer.reads_enclosed (layout : Layout) (depth : Nat) (first last : UInt8)
    (opening closing : Token) (inside : Bytes) (tokens read : List Token)
    (opens : punctuation? first = some opening) (closes : punctuation? last = some closing)
    (behind : Lexer.Reads ⟨.between, opening :: tokens⟩ inside read) :
    Lexer.Reads ⟨.between, tokens⟩ ([first] ++ inside ++ layout.newLine depth ++ [last])
      (closing :: read) := by
  rw [List.append_assoc, List.append_assoc, List.singleton_append]
  refine Lexer.Holds.reads_mark _ _ _ _ _ _ (.inl rfl) opens (behind.append _ _ _ _ _ ?_)
  intro next holds
  refine (holds.reads_gaps _ _ _ (isGap_of_mem_newLine layout depth)).append _ _ _ _ _ ?_
  intro next holds
  exact holds.reads_mark _ _ _ _ _ _ closes ⟨_, rfl, .inl rfl⟩

theorem Lexer.run_colon (layout : Layout) (tokens : List Token) :
    Lexer.run ⟨.between, tokens⟩ layout.colon = .ok ⟨.between, .colon :: tokens⟩ := by
  cases layout <;> rfl

mutual

/-- The tokens of a value are found in its text. -/
theorem reads_renderAt (layout : Layout) : ∀ (value : Json) (depth : Nat) (tokens : List Token),
    value.IsText → (∀ literal ∈ value.literals, IsNumeral literal) →
    Lexer.Reads ⟨.between, tokens⟩ (renderAt layout depth value) (value.tokensOf.reverse ++ tokens)
  | .null, _, tokens, _, _ =>
    Lexer.reads_bare (Bytes.ofString "null") null tokens rfl (by decide +kernel)
  | .bool true, _, tokens, _, _ =>
    Lexer.reads_bare (Bytes.ofString "true") (bool true) tokens rfl (by decide +kernel)
  | .bool false, _, tokens, _, _ =>
    Lexer.reads_bare (Bytes.ofString "false") (bool false) tokens rfl (by decide +kernel)
  | .number literal, _, tokens, _, numerals => by
    obtain ⟨read, open_⟩ := numerals literal (by simp [literals])
    exact Lexer.reads_bare literal (number literal) tokens read open_
  | .string text, _, tokens, whole, _ =>
    ⟨_, Lexer.run_quote text tokens ((isText_string_iff text).1 whole), .inl rfl⟩
  | .array items, depth, tokens, whole, numerals => by
    have inside := reads_renderItems layout items (depth + 1) (.openArray :: tokens)
      ((isText_array_iff items).1 whole) (by simpa [literals] using numerals)
    cases items with
    | nil => exact ⟨_, rfl, .inl rfl⟩
    | cons item items =>
      have enclosed := Lexer.reads_enclosed layout depth Mark.openBracket Mark.closeBracket
        _ _ _ _ _ rfl rfl inside
      simpa [renderAt, tokensOf] using enclosed
  | .object members, depth, tokens, whole, numerals => by
    have inside := reads_renderMembers layout members (depth + 1) (.openObject :: tokens)
      ((isText_object_iff members).1 whole) (by simpa [literals] using numerals)
    cases members with
    | nil => exact ⟨_, rfl, .inl rfl⟩
    | cons member members =>
      have enclosed := Lexer.reads_enclosed layout depth Mark.openBrace Mark.closeBrace
        _ _ _ _ _ rfl rfl inside
      simpa [renderAt, tokensOf] using enclosed

theorem reads_renderItems (layout : Layout) : ∀ (items : List Json) (depth : Nat)
    (tokens : List Token), (∀ item ∈ items, item.IsText) →
    (∀ literal ∈ itemLiterals items, IsNumeral literal) →
    Lexer.Reads ⟨.between, tokens⟩ (renderItems layout depth items)
      ((itemTokens items).reverse ++ tokens)
  | [], _, tokens, _, _ => ⟨_, rfl, .inl rfl⟩
  | item :: items, depth, tokens, whole, numerals => by
    obtain ⟨first, others⟩ := List.forall_mem_cons.1 whole
    rw [itemLiterals, List.forall_mem_append] at numerals
    have one := reads_renderAt layout item depth tokens first numerals.1
    have later := fun tokens => reads_renderItems layout items depth tokens others numerals.2
    rw [renderItems, List.append_assoc, List.append_assoc]
    refine .after _ _ _ _ _ (Lexer.run_gaps tokens _ (isGap_of_mem_newLine layout depth)) ?_
    refine one.append _ _ _ _ _ fun next holds => ?_
    cases items with
    | nil => exact ⟨next, rfl, by simpa [itemTokens] using holds⟩
    | cons second items =>
      refine holds.reads_mark _ _ _ _ .comma _ rfl ?_
      simpa [itemTokens] using later (.comma :: (item.tokensOf.reverse ++ tokens))

theorem reads_renderMembers (layout : Layout) : ∀ (members : List (Bytes × Json)) (depth : Nat)
    (tokens : List Token), (∀ member ∈ members, MemberIsText member) →
    (∀ literal ∈ memberLiterals members, IsNumeral literal) →
    Lexer.Reads ⟨.between, tokens⟩ (renderMembers layout depth members)
      ((memberTokens members).reverse ++ tokens)
  | [], _, tokens, _, _ => ⟨_, rfl, .inl rfl⟩
  | (key, value) :: members, depth, tokens, whole, numerals => by
    obtain ⟨⟨named, first⟩, others⟩ := List.forall_mem_cons.1 whole
    rw [memberLiterals, List.forall_mem_append] at numerals
    have one := fun tokens => reads_renderAt layout value depth tokens first numerals.1
    have later := fun tokens => reads_renderMembers layout members depth tokens others numerals.2
    rw [renderMembers, List.append_assoc, List.append_assoc, List.append_assoc, List.append_assoc]
    refine .after _ _ _ _ _ (Lexer.run_gaps tokens _ (isGap_of_mem_newLine layout depth)) ?_
    refine .after _ _ _ _ _ (Lexer.run_quote key tokens named) ?_
    refine .after _ _ _ _ _ (Lexer.run_colon layout _) ?_
    refine (one _).append _ _ _ _ _ fun next holds => ?_
    cases members with
    | nil => exact ⟨next, rfl, by simpa [memberTokens] using holds⟩
    | cons second members =>
      refine holds.reads_mark _ _ _ _ .comma _ rfl ?_
      simpa [memberTokens] using
        later (.comma :: (value.tokensOf.reverse ++ .colon :: .scalar (string key) :: tokens))

end

theorem tokens_of_reads (s : Bytes) (read : List Token)
    (lexed : Lexer.Reads ⟨.between, []⟩ s read) : tokens s = .ok read.reverse := by
  obtain ⟨last, run, holds⟩ := lexed
  rcases holds with rfl | ⟨kept, value, before, rfl, bare, rfl⟩
  · simp [tokens, run, bind, Except.bind, pure, Except.pure]
  · simp [tokens, run, bare, bind, Except.bind, pure, Except.pure]

/-- A number begins with a hyphen or a digit. -/
theorem IsNumeral.exists_cons (literal : Bytes) (numeral : IsNumeral literal) :
    ∃ b rest, literal = b :: rest ∧ (b = Mark.hyphen ∨ Bytes.isDigit b = true) := by
  have read := numeral.1
  cases literal with
  | nil => contradiction
  | cons b rest =>
    refine ⟨b, rest, rfl, ?_⟩
    by_cases negative : b = Mark.hyphen
    · exact .inl negative
    · right
      by_contra other
      have none : numberParts? (b :: rest) = none := by
        simp [numberParts?, negative, digits?, other]
      rw [ofBare, none] at read
      split_ifs at read <;> cases read

/-- The text of a value does not begin with the mark of UTF-8. -/
theorem startsWith_render (layout : Layout) (value : Json)
    (numerals : ∀ literal ∈ value.literals, IsNumeral literal) :
    Bytes.startsWith (value.render layout) Utf8.byteOrderMark = false := by
  have apart : ∀ b rest, b ≠ 0xEF → Bytes.startsWith (b :: rest) Utf8.byteOrderMark = false := by
    intro b rest other
    simp [Bytes.startsWith, Utf8.byteOrderMark, List.isPrefixOf, other.symm]
  cases value with
  | null => rfl
  | bool value => cases value <;> rfl
  | number literal =>
    obtain ⟨b, rest, rfl, first⟩ := (numerals literal (by simp [literals])).exists_cons
    refine apart b rest ?_
    rintro rfl
    exact absurd first (by decide)
  | string text => exact apart _ _ (by decide)
  | array items => cases items <;> exact apart _ _ (by decide)
  | object members => cases members <;> exact apart _ _ (by decide)

/-- What was written is read as it was, but that of several members with one key the last counts. -/
theorem ofText_render (layout : Layout) (value : Json) (whole : value.IsText)
    (numerals : ∀ literal ∈ value.literals, IsNumeral literal) :
    ofText (value.render layout) = .ok value.canonical := by
  have lexed := tokens_of_reads _ _ (reads_renderAt layout value 0 [] whole numerals)
  have built := run_tokensOf value [] []
  rw [ofText, startsWith_render layout value numerals]
  simp only [List.append_nil, List.reverse_reverse] at lexed built
  simp [render, lexed, built, complete, Expecting.run, bind, Except.bind]

theorem isValid_quote (s : Bytes) (valid : Utf8.isValid s = true) :
    Utf8.isValid (quote s) = true := by
  have ascii : ∀ b : UInt8, b < 0x80 →
      escapeByte b ≠ [] ∧ (escapeByte b).all (· < 0x80) = true :=
    Bytes.forall_of_all _ (by decide +kernel)
  have other : ∀ b : UInt8, ¬ b < 0x80 → escapeByte b = [b] :=
    Bytes.forall_of_all _ (by decide +kernel)
  have inside := (Utf8.isValid_flatMap_iff escapeByte s
    (fun b low => by simpa using ascii b low) other).2 valid
  exact Utf8.isValid_append _ _ (Utf8.isValid_append _ _ (by decide) inside) (by decide)

theorem isValid_newLine (layout : Layout) (depth : Nat) :
    Utf8.isValid (layout.newLine depth) = true := by
  have ascii : ∀ b : UInt8, isGap b = true → b < 0x80 := Bytes.forall_of_all _ (by decide +kernel)
  exact Utf8.isValid_of_ascii _ fun b member => ascii b (isGap_of_mem_newLine layout depth b member)

theorem isValid_enclosed (layout : Layout) (depth : Nat) (first last : UInt8) (inside : Bytes)
    (opens : first < 0x80) (closes : last < 0x80) (valid : Utf8.isValid inside = true) :
    Utf8.isValid ([first] ++ inside ++ layout.newLine depth ++ [last]) = true := by
  have single (b : UInt8) (ascii : b < 0x80) : Utf8.isValid [b] = true :=
    Utf8.isValid_of_ascii [b] fun c member => List.mem_singleton.1 member ▸ ascii
  exact Utf8.isValid_append _ _ (Utf8.isValid_append _ _ (Utf8.isValid_append _ _
    (single first opens) valid) (isValid_newLine layout depth)) (single last closes)

mutual

/-- The text of a value of well-formed text is well-formed. -/
theorem isValid_renderAt (layout : Layout) : ∀ (value : Json) (depth : Nat), value.IsText →
    (∀ literal ∈ value.literals, Utf8.isValid literal = true) →
    Utf8.isValid (renderAt layout depth value) = true
  | .null, _, _, _ => (by decide : Utf8.isValid (Bytes.ofString "null") = true)
  | .bool true, _, _, _ => (by decide : Utf8.isValid (Bytes.ofString "true") = true)
  | .bool false, _, _, _ => (by decide : Utf8.isValid (Bytes.ofString "false") = true)
  | .number literal, _, _, numerals => numerals literal (by simp [literals])
  | .string text, _, whole, _ => isValid_quote text ((isText_string_iff text).1 whole)
  | .array items, depth, whole, numerals => by
    have inside := isValid_renderItems layout items (depth + 1) ((isText_array_iff items).1 whole)
      (by simpa [literals] using numerals)
    rw [renderAt]
    split
    · decide
    · exact isValid_enclosed layout depth _ _ _ (by decide) (by decide) inside
  | .object members, depth, whole, numerals => by
    have inside := isValid_renderMembers layout members (depth + 1)
      ((isText_object_iff members).1 whole) (by simpa [literals] using numerals)
    rw [renderAt]
    split
    · decide
    · exact isValid_enclosed layout depth _ _ _ (by decide) (by decide) inside

theorem isValid_renderItems (layout : Layout) : ∀ (items : List Json) (depth : Nat),
    (∀ item ∈ items, item.IsText) →
    (∀ literal ∈ itemLiterals items, Utf8.isValid literal = true) →
    Utf8.isValid (renderItems layout depth items) = true
  | [], _, _, _ => rfl
  | item :: items, depth, whole, numerals => by
    obtain ⟨first, others⟩ := List.forall_mem_cons.1 whole
    rw [itemLiterals, List.forall_mem_append] at numerals
    have one := isValid_renderAt layout item depth first numerals.1
    have later := isValid_renderItems layout items depth others numerals.2
    rw [renderItems]
    refine Utf8.isValid_append _ _ (Utf8.isValid_append _ _ (Utf8.isValid_append _ _
      (isValid_newLine layout depth) one) ?_) later
    split <;> decide

theorem isValid_renderMembers (layout : Layout) : ∀ (members : List (Bytes × Json)) (depth : Nat),
    (∀ member ∈ members, MemberIsText member) →
    (∀ literal ∈ memberLiterals members, Utf8.isValid literal = true) →
    Utf8.isValid (renderMembers layout depth members) = true
  | [], _, _, _ => rfl
  | (key, value) :: members, depth, whole, numerals => by
    obtain ⟨⟨named, first⟩, others⟩ := List.forall_mem_cons.1 whole
    rw [memberLiterals, List.forall_mem_append] at numerals
    have one := isValid_renderAt layout value depth first numerals.1
    have later := isValid_renderMembers layout members depth others numerals.2
    have colon : Utf8.isValid layout.colon = true := by cases layout <;> decide
    rw [renderMembers]
    refine Utf8.isValid_append _ _ (Utf8.isValid_append _ _ (Utf8.isValid_append _ _
      (Utf8.isValid_append _ _ (Utf8.isValid_append _ _ (isValid_newLine layout depth)
        (isValid_quote key named)) colon) one) ?_) later
    split <;> decide

end

end FeedIntake.Json
