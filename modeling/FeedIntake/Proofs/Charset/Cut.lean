import FeedIntake.Charset.Detection
import FeedIntake.Proofs.Bytes.Search
import FeedIntake.Proofs.Utf8.Character

/-!
Bodies that are cut off. A body that decodes under a charset of the table does so up to any cut.
Main statement: a body of well-formed UTF-8 that says nothing of its charset is taken for UTF-8
because it decodes, however long it is and wherever its beginning ends that is looked at; a library
is asked for its guesses exactly where nothing is said of a body and its beginning is not UTF-8.
-/
namespace FeedIntake.Charset

open Bytes Utf8

/-- A cut leaves whole characters and at most a beginning of one. -/
theorem decodesFrom_take (charset : Charset) (part s : Bytes) (n : Nat)
    (whole : charset.decodesFrom false part s = true) :
    charset.decodesFrom true part (s.take n) = true := by
  induction s generalizing part n with
  | nil => simp [decodesFrom]
  | cons b s ih =>
    cases n with
    | zero => simp [decodesFrom]
    | succ n =>
      rw [decodesFrom] at whole
      rw [List.take_succ_cons, decodesFrom]
      split at whole
      · exact ih [] n whole
      · exact ih (part ++ [b]) n whole
      · contradiction

theorem utf8Width?_eq (b : UInt8) :
    utf8Width? b =
      if b.toNat < 0x80 then some 1
      else if b.toNat < 0xC2 then none
      else if b.toNat < 0xE0 then some 2
      else if b.toNat < 0xF0 then some 3
      else if b.toNat < 0xF8 then some 4
      else if b.toNat < 0xFC then some 5
      else if b.toNat < 0xFE then some 6
      else none := by
  simp only [utf8Width?, UInt8.lt_iff_toNat_lt, UInt8.reduceToNat]

/-- The automaton owes as many tails as the form has behind its lead and its second byte. -/
theorem utf8Width?_of_step (lead low high : UInt8) (more : Nat)
    (step : State.start.step lead = some (.inside low high more)) :
    utf8Width? lead = some (more + 2) := by
  rw [State.step_start] at step
  rw [utf8Width?_eq]
  split at step
  · simp at step
  split at step
  · contradiction
  split at step
  · obtain ⟨-, -, rfl⟩ := State.inside.inj (Option.some.inj step)
    rw [if_neg (by omega), if_neg (by omega), if_pos (by omega)]
  split at step
  · obtain ⟨-, -, rfl⟩ := State.inside.inj (Option.some.inj step)
    rw [if_neg (by omega), if_neg (by omega), if_neg (by omega), if_pos (by omega)]
  split at step
  · obtain ⟨-, -, rfl⟩ := State.inside.inj (Option.some.inj step)
    rw [if_neg (by omega), if_neg (by omega), if_neg (by omega), if_neg (by omega),
      if_pos (by omega)]
  · contradiction

/-- Of a form that is not complete no more is known than that tails stand behind its lead. -/
theorem judgeUtf8_of_tails (lead : UInt8) (tails : Bytes) (width : Nat)
    (asked : utf8Width? lead = some width) (plain : ∀ b ∈ tails, IsTail b) :
    judgeUtf8 (lead :: tails) =
      if tails.length + 1 < width then .part
      else if 2 < width ∧ utf8Value width lead tails < 1 <<< (5 * width - 4) then .invalid
      else if 0xD800 ≤ utf8Value width lead tails ∧ utf8Value width lead tails < 0xE000 then
        .invalid
      else .whole := by
  have tail : (tails.any fun b => b &&& 0xC0 != 0x80) = false := by
    rw [List.any_eq_false]
    intro b member
    obtain ⟨low, high⟩ := plain b member
    have continues := isContinuation_of_mem_range b (UInt8.le_iff_toNat_le.2 low)
      (UInt8.le_iff_toNat_le.2 high)
    simpa [isContinuation] using continues
  simp only [judgeUtf8, asked, tail, Bool.and_eq_true, decide_eq_true_eq, Bool.false_eq_true,
    if_false]

theorem judgeUtf8_of_opens (part : Bytes) (state : State) (opens : Opens part state) :
    judgeUtf8 part = .part := by
  cases state with
  | start => exact absurd rfl opens.ne_start
  | inside low high more =>
    rcases opens.shape with
      ⟨lead, rfl, step⟩ | ⟨lead, second, tails, least, most, owed, rfl, step, range, plain, count,
        -, -⟩
    · rw [judgeUtf8_of_tails lead [] _ (utf8Width?_of_step _ _ _ _ step) nofun]
      exact if_pos (by simp)
    · obtain ⟨floor, -, ceiling⟩ := State.range_of_step_start _ _ _ _ step
      have tail : IsTail second := ⟨floor.trans range.1, range.2.trans ceiling⟩
      rw [judgeUtf8_of_tails lead (second :: tails) _ (utf8Width?_of_step _ _ _ _ step)
        (List.forall_mem_cons.2 ⟨tail, plain⟩)]
      refine if_pos ?_
      rw [List.length_cons]
      omega

/-- The number that a lead byte and its tails make up is in the range of its form, and is no
surrogate. -/
theorem judgeUtf8_of_isForm (s : Bytes) (form : IsForm s) : judgeUtf8 s = .whole := by
  cases form with
  | one a ascii =>
    have asked : utf8Width? a = some 1 := by rw [utf8Width?_eq, if_pos ascii]
    have value : utf8Value 1 a [] = a.toNat % 64 := rfl
    rw [judgeUtf8_of_tails a [] 1 asked nofun, if_neg (by simp), value, if_neg (by omega),
      if_neg (by omega)]
  | two a b lead second =>
    have asked : utf8Width? a = some 2 := by
      rw [utf8Width?_eq, if_neg (by omega), if_neg (by omega), if_pos (by omega)]
    have value : utf8Value 2 a [b] = a.toNat % 32 * 64 + b.toNat % 64 := rfl
    have plain : ∀ tail ∈ [b], IsTail tail := List.forall_mem_singleton.2 second
    rw [judgeUtf8_of_tails a [b] 2 asked plain, if_neg (by simp), value, if_neg (by omega),
      if_neg (by omega)]
  | three a b c lead least most second third =>
    have asked : utf8Width? a = some 3 := by
      rw [utf8Width?_eq, if_neg (by omega), if_neg (by omega), if_neg (by omega),
        if_pos (by omega)]
    have value : utf8Value 3 a [b, c] =
        (a.toNat % 16 * 64 + b.toNat % 64) * 64 + c.toNat % 64 := rfl
    have bound : 1 <<< (5 * 3 - 4) = 2048 := rfl
    have plain : ∀ tail ∈ [b, c], IsTail tail :=
      List.forall_mem_cons.2 ⟨second, List.forall_mem_singleton.2 third⟩
    obtain ⟨low, high⟩ := second
    rw [judgeUtf8_of_tails a [b, c] 3 asked plain, if_neg (by simp), value, bound,
      if_neg (by omega), if_neg (by omega)]
  | four a b c d lead least most second third fourth =>
    have asked : utf8Width? a = some 4 := by
      rw [utf8Width?_eq, if_neg (by omega), if_neg (by omega), if_neg (by omega),
        if_neg (by omega), if_pos (by omega)]
    have value : utf8Value 4 a [b, c, d] =
        ((a.toNat % 8 * 64 + b.toNat % 64) * 64 + c.toNat % 64) * 64 + d.toNat % 64 := rfl
    have bound : 1 <<< (5 * 4 - 4) = 65536 := rfl
    have plain : ∀ tail ∈ [b, c, d], IsTail tail := List.forall_mem_cons.2
      ⟨second, List.forall_mem_cons.2 ⟨third, List.forall_mem_singleton.2 fourth⟩⟩
    obtain ⟨low, high⟩ := second
    rw [judgeUtf8_of_tails a [b, c, d] 4 asked plain, if_neg (by simp), value, bound,
      if_neg (by omega), if_neg (by omega)]

/-- Where the automaton of well-formed UTF-8 goes on to a start, the decoder goes on, too: it is
behind a whole character, or behind the same beginning of one. -/
theorem decodesFrom_of_run (isCut : Bool) (state : State) (part s : Bytes)
    (reached : (state = .start ∧ part = []) ∨ Opens part state)
    (goes : state.run s = some .start) : utf8.decodesFrom isCut part s = true := by
  induction s generalizing state part with
  | nil =>
    rcases reached with ⟨-, rfl⟩ | opens
    · rfl
    · exact absurd (Option.some.inj goes) opens.ne_start
  | cons b s ih =>
    rw [State.run] at goes
    split at goes
    · contradiction
    · next next step =>
      by_cases boundary : next = .start
      · subst boundary
        have closes : Closes (part ++ [b]) := by
          rcases reached with ⟨rfl, rfl⟩ | opens
          · exact .single b step
          · exact .last part b state opens step
        have whole : utf8.judge (part ++ [b]) = .whole := judgeUtf8_of_isForm _ closes.isForm
        rw [decodesFrom, whole]
        exact ih .start [] (.inl ⟨rfl, rfl⟩) goes
      · have opens : Opens (part ++ [b]) next := by
          rcases reached with ⟨rfl, rfl⟩ | opens
          · exact .first b next step boundary
          · exact .next part b state next opens step boundary
        have begun : utf8.judge (part ++ [b]) = .part := judgeUtf8_of_opens _ next opens
        rw [decodesFrom, begun]
        exact ih next (part ++ [b]) (.inr opens) goes

theorem ofName?_usual : ofName? usual = some utf8 := by decide +kernel

section

variable [Library]

theorem decodesAs_usual (isCut : Bool) (s : Bytes) :
    decodesAs usual isCut s = utf8.decodes isCut s := by
  rw [decodesAs, ofName?_usual]

theorem decodesAs_usual_of_isValid (s : Bytes) (valid : Utf8.isValid s = true) :
    decodesAs usual false s = true := by
  rw [decodesAs_usual]
  exact decodesFrom_of_run false .start [] s (.inl ⟨rfl, rfl⟩) ((isValid_iff s).1 valid)

theorem decodesAs_usual_take (s : Bytes) (n : Nat) (whole : decodesAs usual false s = true) :
    decodesAs usual true (s.take n) = true := by
  rw [decodesAs_usual] at whole ⊢
  exact utf8.decodesFrom_take [] s n whole

/-- The beginning of a well-formed body that is looked at decodes, whole or cut off. -/
theorem decodesAs_usual_front (body : Bytes) (valid : Utf8.isValid body = true) :
    decodesAs usual (testLimit < body.length) (body.take testLimit) = true := by
  have whole := decodesAs_usual_of_isValid body valid
  by_cases long : testLimit < body.length
  · rw [decide_eq_true long]
    exact decodesAs_usual_take body testLimit whole
  · rw [decide_eq_false long, List.take_of_length_le (Nat.not_lt.1 long)]
    exact whole

/-- Whether nothing that is said of a body counts: a label from outside or from the document names
no charset under which the beginning decodes, and there is no byte order mark. -/
def IsUntold (declared : Option Bytes) (body : Bytes) : Prop :=
  (∀ label ∈ declared, Label.normalize label = [] ∨
    decodesAs (Label.normalize label) (testLimit < body.length) (body.take testLimit) = false) ∧
  Label.ofMark? (body.take testLimit) = none ∧
  ∀ label ∈ Label.ofDocument? (body.take testLimit),
    decodesAs label (testLimit < body.length) (body.take testLimit) = false

/-- Where nothing is said of a body, its bytes decide. -/
theorem choose_of_isUntold (declared : Option Bytes) (body : Bytes)
    (untold : IsUntold declared body) :
    choose declared body =
      if decodesAs usual (testLimit < body.length) (body.take testLimit) then ⟨usual, .wellFormed⟩
      else
        match guess? (body.take testLimit) with
        | some label => ⟨label, .statistic⟩
        | none => ⟨usual, .assumed⟩ := by
  obtain ⟨unfit, unmarked, unfitting⟩ := untold
  have outside : ((declared.map Label.normalize).filter fun label => !label.isEmpty &&
      decodesAs label (testLimit < body.length) (body.take testLimit)) = none := by
    rw [Option.filter_eq_none_iff]
    rintro _ named
    obtain ⟨label, known, rfl⟩ := Option.map_eq_some_iff.1 named
    rcases unfit label known with empty | fails
    · simp [empty]
    · simp [fails]
  have inside : ((Label.ofDocument? (body.take testLimit)).filter
      (decodesAs · (testLimit < body.length) (body.take testLimit))) = none := by
    rw [Option.filter_eq_none_iff]
    exact fun label named => by simp [unfitting label named]
  cases guess : guess? (body.take testLimit) <;>
    simp only [choose, outside, unmarked, inside, guess]

/-- Where something that is said of a body counts, its bytes do not decide. -/
theorem ground_of_not_isUntold (declared : Option Bytes) (body : Bytes)
    (told : ¬ IsUntold declared body) :
    (choose declared body).ground ∈ [Ground.declared, .mark, .document] := by
  rw [choose]
  split
  · simp
  · next outside =>
    split
    · simp
    · next unmarked =>
      split
      · simp
      · next inside =>
        refine absurd ⟨fun label known => ?_, unmarked, fun label named => ?_⟩ told
        · have unfit := Option.filter_eq_none_iff.1 outside _ (Option.mem_map_of_mem _ known)
          rcases List.eq_nil_or_concat (Label.normalize label) with empty | ⟨_, _, full⟩
          · exact .inl empty
          · exact .inr (by simpa [full] using unfit)
        · exact Bool.eq_false_iff.2 (Option.filter_eq_none_iff.1 inside label named)

end

/-- No other byte order mark begins well-formed text. -/
theorem ofMark?_of_isValid (body : Bytes) (valid : Utf8.isValid body = true)
    (unmarked : ¬ [0xEF, 0xBB, 0xBF] <+: body) : Label.ofMark? (body.take testLimit) = none := by
  have front := List.take_prefix testLimit body
  have refused (a b : UInt8) (stuck : State.start.step a = none) :
      ¬ [a, b] <+: body.take testLimit := by
    rintro ⟨rest, begins⟩
    obtain ⟨behind, whole⟩ := front
    rw [Utf8.isValid_iff, ← whole, ← begins, List.cons_append, List.cons_append, State.run,
      stuck] at valid
    contradiction
  have marked : ¬ [0xEF, 0xBB, 0xBF] <+: body.take testLimit := fun begins =>
    unmarked (begins.trans front)
  simp only [Label.ofMark?, startsWith, List.isPrefixOf_iff_prefix, marked,
    refused 0xFF 0xFE (by decide), refused 0xFE 0xFF (by decide), if_false]

/-- A text that neither begins an XML declaration nor a `meta` element near its front says nothing
of its charset. -/
theorem ofDocument?_eq_none (body : Bytes)
    (undeclared : ¬ ofString "<?xml" <:+: lower (body.take Label.scanLimit))
    (plain : ¬ ofString "<meta" <:+: lower (body.take Label.scanLimit)) :
    Label.ofDocument? (body.take testLimit) = none := by
  have front : (body.take testLimit).take Label.scanLimit = body.take Label.scanLimit := by
    rw [List.take_take]
    rfl
  rw [Label.ofDocument?, front, Label.ofXmlDeclaration?, Label.ofMeta?,
    from?_eq_none _ _ undeclared, from?_eq_none _ _ plain]
  rfl

/-- What decodes as UTF-8 does so up to any cut, as the beginning of a body. And a well-formed body
without a byte order mark, an XML declaration and a `meta` element near its front is taken for UTF-8
because its beginning decodes, whatever its length and whatever a library would guess: UTF-8 is
taken for that reason exactly if nothing that is said of a body counts and its beginning decodes,
and a guess exactly if it does not decode. -/
theorem chosen_across_cut [Library] :
    (∀ (s : Bytes) (n : Nat), decodesAs (ofString "utf-8") false s = true →
      decodesAs (ofString "utf-8") true (s.take n) = true) ∧
    (∀ body, Utf8.isValid body = true → ¬ [0xEF, 0xBB, 0xBF] <+: body →
      ¬ ofString "<?xml" <:+: lower (body.take 1024) →
      ¬ ofString "<meta" <:+: lower (body.take 1024) →
        decodesAs (ofString "utf-8") (testLimit < body.length) (body.take testLimit) = true ∧
        choose none body = ⟨ofString "utf-8", .wellFormed⟩) ∧
    ∀ declared body,
      ((choose declared body).ground = .wellFormed ↔ IsUntold declared body ∧
        decodesAs (ofString "utf-8") (testLimit < body.length) (body.take testLimit) = true) ∧
      ∀ label, choose declared body = ⟨label, .statistic⟩ ↔ IsUntold declared body ∧
        decodesAs (ofString "utf-8") (testLimit < body.length) (body.take testLimit) = false ∧
        guess? (body.take testLimit) = some label := by
  refine ⟨decodesAs_usual_take, fun body valid unmarked undeclared plain => ?_,
    fun declared body => ?_⟩
  · have fits := decodesAs_usual_front body valid
    have untold : IsUntold none body := by
      refine ⟨nofun, ofMark?_of_isValid body valid unmarked, ?_⟩
      rw [ofDocument?_eq_none body undeclared plain]
      exact nofun
    refine ⟨fits, ?_⟩
    rw [choose_of_isUntold none body untold, if_pos fits]
    rfl
  · by_cases untold : IsUntold declared body
    · rw [choose_of_isUntold declared body untold]
      change (_ ↔ _ ∧ decodesAs usual _ _ = true) ∧ ∀ label, _ ↔ _ ∧ decodesAs usual _ _ = false ∧ _
      cases decodesAs usual (testLimit < body.length) (body.take testLimit) with
      | true => simp [untold]
      | false => cases guess : guess? (body.take testLimit) <;> simp [untold]
    · have ground := ground_of_not_isUntold declared body untold
      simp only [untold, false_and, iff_false]
      refine ⟨fun chosen => ?_, fun label chosen => ?_⟩
      · simp [chosen] at ground
      · simp [chosen] at ground

/-- Letters with a character of two bytes behind them. -/
def accentedText (letters : Nat) : Bytes := List.replicate letters 0x61 ++ [0xC3, 0xA9]

/-- A library to which every text looks like one from western Europe. -/
@[reducible] def western : Library where
  decodes _ _ _ := false
  guesses _ := [ofString "windows-1252"]
  isPlain_of_mem_guesses _ _ guess := List.mem_singleton.1 guess ▸ List.all_eq_true.1 (by decide)

/-- A text whose last character is cut by the limit of what is looked at. -/
theorem chosen_across_cut_accentedText :
    Utf8.isValid ((accentedText 65535).take testLimit) = false ∧
      @decodesAs western (ofString "utf-8") true ((accentedText 65535).take testLimit) = true ∧
      @choose western none (accentedText 65535) = ⟨ofString "utf-8", .wellFormed⟩ := by
  have letters : Utf8.isValid (List.replicate 65535 0x61) = true :=
    isValid_of_ascii _ fun b member => by
      rw [List.eq_of_mem_replicate member]
      decide
  have valid : Utf8.isValid (accentedText 65535) = true := isValid_append _ _ letters (by decide)
  have cut : (accentedText 65535).take testLimit = List.replicate 65535 0x61 ++ [0xC3] := by
    have fits : (List.replicate 65535 (0x61 : UInt8)).length ≤ testLimit := by
      rw [List.length_replicate]
      decide
    rw [accentedText, List.take_append, List.take_of_length_le fits, List.length_replicate]
    rfl
  have bytes : ∀ b ∈ accentedText 65535, b ≠ 0xEF ∧ lowerByte b ≠ Mark.less := by
    intro b member
    rcases List.mem_append.1 member with front | last
    · rw [List.eq_of_mem_replicate front]
      decide
    · have both : ([0xC3, 0xA9] : Bytes).all fun b => b != 0xEF && lowerByte b != Mark.less := by
        decide
      simpa using List.all_eq_true.1 both b last
  have untagged (pattern : Bytes) :
      ¬ Mark.less :: pattern <:+: lower ((accentedText 65535).take 1024) := by
    intro tagged
    obtain ⟨b, member, same⟩ := List.mem_map.1 (tagged.subset List.mem_cons_self)
    exact (bytes b (List.mem_of_mem_take member)).2 same
  have whole := @decodesAs_usual_of_isValid western _ valid
  refine ⟨?_, (@chosen_across_cut western).1 _ testLimit whole, ?_⟩
  · rw [cut, Bool.eq_false_iff, ne_eq, isValid_append_iff _ _ letters]
    decide
  · exact ((@chosen_across_cut western).2.1 _ valid
      (fun begins => (bytes _ (begins.subset List.mem_cons_self)).1 rfl)
      (untagged (ofString "?xml")) (untagged (ofString "meta"))).2

end FeedIntake.Charset
