import FeedIntake.Proofs.Bytes.Decimal
import FeedIntake.Proofs.Url.Reading

/-!
What the parts of a URL have from its text. A property of texts is inherited if it passes to the
pieces of a text that is cut at an ASCII byte, and to what is put together of pieces and signs. Main
statement: where the text of a URL has such a property, all its parts have it but the host, which is
percent-decoded and so no piece of the text.
-/
namespace FeedIntake

open Bytes

namespace Bytes

/-- A property that pieces have from a text and texts have from their pieces. -/
structure Inherited (P : Bytes → Prop) : Prop where
  nil : P []
  append (s t : Bytes) : P s → P t → P (s ++ t)
  /-- Printable signs stand between pieces. -/
  sign (b : UInt8) : Mark.space < b → b < 0x80 → P [b]
  cut (front rest : Bytes) (b : UInt8) : b < 0x80 → P (front ++ b :: rest) →
    P front ∧ P [b] ∧ P rest

namespace Inherited

variable {P : Bytes → Prop} (inherited : Inherited P)
include inherited

theorem cons (b : UInt8) (s : Bytes) (printable : Mark.space < b) (ascii : b < 0x80) (has : P s) :
    P (b :: s) :=
  inherited.append [b] s (inherited.sign b printable ascii) has

theorem of_printable (s : Bytes) (printable : ∀ b ∈ s, Mark.space < b ∧ b < 0x80) : P s := by
  induction s with
  | nil => exact inherited.nil
  | cons b s ih =>
    obtain ⟨⟨above, ascii⟩, others⟩ := List.forall_mem_cons.1 printable
    exact inherited.cons b s above ascii (ih others)

/-- A piece that is left out with its sign if it is empty. -/
theorem marked (sign : UInt8) (s : Bytes) (printable : Mark.space < sign) (ascii : sign < 0x80)
    (has : P s) : P (if s.isEmpty then [] else sign :: s) := by
  split
  · exact inherited.nil
  · exact inherited.cons sign s printable ascii has

theorem behind (front rest : Bytes) (ascii : ∀ b ∈ front, b < 0x80) (has : P (front ++ rest)) :
    P rest := by
  induction front with
  | nil => exact has
  | cons b front ih =>
    obtain ⟨first, others⟩ := List.forall_mem_cons.1 ascii
    exact ih others (inherited.cut [] _ b first has).2.2

theorem takeWhile_dropWhile (p : UInt8 → Bool) (stops : ∀ b, p b = false → b < 0x80) (s : Bytes)
    (has : P s) : P (s.takeWhile p) ∧ P (s.dropWhile p) := by
  have whole := List.takeWhile_append_dropWhile (p := p) (l := s)
  have stop := List.head?_dropWhile_not p s
  cases dropped : s.dropWhile p with
  | nil =>
    rw [dropped, List.append_nil] at whole
    exact ⟨whole.symm ▸ has, inherited.nil⟩
  | cons b rest =>
    rw [dropped] at whole stop
    obtain ⟨front, sign, behind⟩ := inherited.cut _ rest b (stops b (by simpa using stop))
      (whole.symm ▸ has)
    exact ⟨front, inherited.append [b] rest sign behind⟩

theorem dropWhile (p : UInt8 → Bool) (starts : ∀ b, p b = true → b < 0x80) (s : Bytes)
    (has : P s) : P (s.dropWhile p) := by
  refine inherited.behind (s.takeWhile p) _ (fun b member => ?_) ?_
  · exact starts b (List.all_eq_true.1 List.all_takeWhile b member)
  · rwa [List.takeWhile_append_dropWhile]

theorem of_cut? (sep : UInt8) (ascii : sep < 0x80) (s front rest : Bytes)
    (cut : cut? sep s = some (front, rest)) (has : P s) : P front ∧ P rest := by
  rw [eq_of_cut? sep s front rest cut] at has
  obtain ⟨front, -, rest⟩ := inherited.cut front rest sep ascii has
  exact ⟨front, rest⟩

theorem getD_cut? (sep : UInt8) (ascii : sep < 0x80) (s : Bytes) (has : P s) :
    P ((cut? sep s).getD (s, [])).1 ∧ P ((cut? sep s).getD (s, [])).2 := by
  cases cut : cut? sep s with
  | none => exact ⟨has, inherited.nil⟩
  | some parts => exact inherited.of_cut? sep ascii s parts.1 parts.2 cut has

theorem of_join (sep : UInt8) (ascii : sep < 0x80) (parts : List Bytes) (has : P (join sep parts)) :
    ∀ part ∈ parts, P part := by
  induction parts with
  | nil => nofun
  | cons part parts ih =>
    cases parts with
    | nil => simpa using has
    | cons next parts =>
      rw [join_cons_cons] at has
      obtain ⟨front, -, rest⟩ := inherited.cut _ _ sep ascii has
      exact List.forall_mem_cons.2 ⟨front, ih rest⟩

theorem splitOn (sep : UInt8) (ascii : sep < 0x80) (s : Bytes) (has : P s) :
    ∀ part ∈ splitOn sep s, P part :=
  inherited.of_join sep ascii _ (by rwa [join_splitOn])

theorem join (sep : UInt8) (printable : Mark.space < sep) (ascii : sep < 0x80)
    (parts : List Bytes) (has : ∀ part ∈ parts, P part) : P (join sep parts) := by
  induction parts with
  | nil => exact inherited.nil
  | cons part parts ih =>
    obtain ⟨first, others⟩ := List.forall_mem_cons.1 has
    cases parts with
    | nil => simpa using first
    | cons next parts =>
      rw [join_cons_cons]
      exact inherited.append _ _ first (inherited.cons sep _ printable ascii (ih others))

theorem flatten (parts : List Bytes) (has : ∀ part ∈ parts, P part) : P parts.flatten := by
  induction parts with
  | nil => exact inherited.nil
  | cons part parts ih =>
    obtain ⟨first, others⟩ := List.forall_mem_cons.1 has
    exact inherited.append _ _ first (ih others)

end Inherited

end Bytes

section Parts

variable {P : Bytes → Prop} (inherited : Inherited P)
include inherited

/-- A login is written with nothing but signs between its parts. -/
theorem Login.inherits_render (login : Login) (user : P login.user)
    (password : ∀ s ∈ login.password, P s) (options : ∀ s ∈ login.options, P s) :
    P login.render := by
  have sign := inherited.sign Mark.atSign (by decide) (by decide)
  rw [render]
  refine inherited.append _ _ (inherited.append _ _ (inherited.append _ _ user ?_) ?_) sign
  · split
    · next s given => exact inherited.cons _ s (by decide) (by decide) (password s given)
    · exact inherited.nil
  · split
    · exact inherited.nil
    · exact inherited.nil
    · next s _ given => exact inherited.cons _ s (by decide) (by decide) (options s given)

theorem Login.inherits_ofText (takesOptions : Bool) (s : Bytes) (has : P s) :
    P (ofText takesOptions s).render := by
  have none : ∀ s ∈ (none : Option Bytes), P s := nofun
  have one : ∀ s : Bytes, P s → ∀ t ∈ some s, P t := by
    rintro s has _ ⟨⟩
    exact has
  have stops : ∀ b, (b != Mark.colon && !(takesOptions && b == Mark.semicolon)) = false →
      b < 0x80 := by
    intro b stop
    simp only [Bool.and_eq_false_iff, bne_eq_false_iff_eq, Bool.not_eq_false', Bool.and_eq_true,
      beq_iff_eq] at stop
    rcases stop with rfl | ⟨-, rfl⟩ <;> decide
  obtain ⟨user, behind⟩ := inherited.takeWhile_dropWhile
    (fun b => b != Mark.colon && !(takesOptions && b == Mark.semicolon)) stops s has
  rw [ofText, drop_length_takeWhile]
  split
  · exact inherits_render inherited _ user none none
  · next rest found =>
    rw [found] at behind
    have behind := (inherited.cut [] rest _ (by decide) behind).2.2
    split
    · exact inherits_render inherited _ user (one rest behind) none
    · next password options cut =>
      cases takesOptions with
      | false => simp at cut
      | true =>
        obtain ⟨front, last⟩ := inherited.of_cut? _ (by decide) _ _ _ cut behind
        exact inherits_render inherited _ user (one _ front) (one _ last)
  · next sign rest other found =>
    have head := List.head?_dropWhile_not
      (fun b => b != Mark.colon && !(takesOptions && b == Mark.semicolon)) s
    rw [found] at head behind
    have behind := (inherited.cut [] rest sign (stops sign (by simpa using head)) behind).2.2
    split
    · exact inherits_render inherited _ user none (one rest behind)
    · next options password cut =>
      obtain ⟨front, last⟩ := inherited.of_cut? _ (by decide) _ _ _ cut behind
      exact inherits_render inherited _ user (one _ last) (one _ front)

theorem Path.inherits_skipLeadingDots (s : Bytes) (has : P s) : P (skipLeadingDots s) := by
  have one := forall_mem_of_all (· < 0x80) [Mark.dot, Mark.slash] (by decide)
  have two := forall_mem_of_all (· < 0x80) [Mark.dot, Mark.dot, Mark.slash] (by decide)
  fun_induction skipLeadingDots s with
  | case1 rest ih => exact ih (inherited.behind _ rest one has)
  | case2 rest ih => exact ih (inherited.behind _ rest two has)
  | case3 => exact has

theorem Path.inherits_resolve (kept segments : List Bytes) (front : ∀ piece ∈ kept, P piece)
    (behind : ∀ segment ∈ segments, P segment) : ∀ piece ∈ resolve kept segments, P piece := by
  have slash := inherited.sign Mark.slash (by decide) (by decide)
  induction segments generalizing kept with
  | nil => exact front
  | cons segment rest ih =>
    obtain ⟨first, others⟩ := List.forall_mem_cons.1 behind
    have before : ∀ piece ∈ kept.tail, P piece := fun piece member =>
      front piece (List.mem_of_mem_tail member)
    rw [resolve]
    split
    · refine ih _ ?_ others
      split
      · exact List.forall_mem_cons.2 ⟨slash, front⟩
      · exact front
    · split
      · refine ih _ ?_ others
        split
        · exact List.forall_mem_cons.2 ⟨slash, before⟩
        · exact before
      · refine ih _ (List.forall_mem_cons.2 ⟨?_, front⟩) others
        exact inherited.append [Mark.slash] segment slash first

theorem Path.inherits_removeDots (path : Bytes) (has : P path) : P (removeDots path) := by
  have parts := inherited.splitOn Mark.slash (by decide) (skipLeadingDots path)
    (inherits_skipLeadingDots inherited path has)
  rw [removeDots]
  split
  · exact inherited.nil
  · split
    · exact inherited.nil
    · next first segments split =>
      rw [split] at parts
      refine inherited.flatten _ fun piece member => ?_
      refine inherits_resolve inherited _ segments ?_ ?_ piece (List.mem_reverse.1 member)
      · split
        · nofun
        · simpa using parts first List.mem_cons_self
      · exact fun segment listed => parts segment (List.mem_cons_of_mem _ listed)

theorem Numeral.inherits_decimal (n : Nat) : P (decimal n) := by
  have table : ∀ b : UInt8, isDigit b = true → Mark.space < b ∧ b < 0x80 :=
    forall_of_all _ (by decide +kernel)
  exact inherited.of_printable _ fun b member => table b (isDigit_of_mem_decimal n b member)

theorem Scheme.inherits_name (scheme : Scheme) : P scheme.name := by
  have printable : ∀ b ∈ scheme.name, Mark.space < b ∧ b < 0x80 := by
    cases scheme <;> exact forall_mem_of_all _ _ (by decide)
  exact inherited.of_printable _ printable

/-- Around the host stand the login and the port. -/
theorem Authority.exists_render_eq (authority : Authority)
    (login : ∀ login ∈ authority.login, P login.render) :
    ∃ before after, authority.render = before ++ authority.host.render ++ after ∧
      P before ∧ P after := by
  refine ⟨_, _, rfl, ?_, ?_⟩
  · split
    · next front given => exact login front given
    · exact inherited.nil
  · split
    · next port _ =>
      exact inherited.cons _ _ (by decide) (by decide) (Numeral.inherits_decimal inherited port)
    · exact inherited.nil

end Parts

namespace Url

/-- A URL of which everything but the host has a property. -/
structure HasAround (P : Bytes → Prop) (url : Url) : Prop where
  login : ∀ authority ∈ url.authority, ∀ login ∈ authority.login, P login.render
  path : ∀ path ∈ url.path, P path
  query : P url.query
  fragment : P url.fragment

variable {P : Bytes → Prop}

theorem HasAround.getD_path (url : Url) (around : url.HasAround P) (other : Bytes)
    (has : P other) : P (url.path.getD other) := by
  cases given : url.path with
  | none => exact has
  | some path => exact around.path path given

variable (inherited : Inherited P)
include inherited

theorem hasAround_withRest (scheme : Scheme) (authority : Option Authority) (rest : Bytes)
    (login : ∀ served ∈ authority, ∀ login ∈ Authority.login served, P login.render)
    (has : P rest) : (withRest scheme authority rest).HasAround P := by
  obtain ⟨before, fragment⟩ := inherited.getD_cut? Mark.hash (by decide) rest has
  obtain ⟨path, query⟩ := inherited.getD_cut? Mark.question (by decide) _ before
  refine ⟨login, ?_, query, fragment⟩
  intro s member
  simp only [withRest] at member
  split at member
  · contradiction
  · obtain rfl := Option.some.inj member
    exact Path.inherits_removeDots inherited _ path

theorem inherits_login_of_ofText? (scheme : Scheme) (s : Bytes) (authority : Authority)
    (read : Authority.ofText? scheme s = some authority) (has : P s) :
    ∀ login ∈ authority.login, P login.render := by
  intro login member
  rw [(Authority.exists_of_ofText? scheme s authority read).1] at member
  obtain ⟨⟨front, behind⟩, cut, rfl⟩ := Option.map_eq_some_iff.1 member
  exact Login.inherits_ofText inherited _ front
    (inherited.of_cut? _ (by decide) s front behind cut has).1

/-- All parts of a URL but its host have what its text has up to the first zero byte. -/
theorem hasAround_ofText? (s : Bytes) (url : Url) (read : ofText? s = some url)
    (has : P (untilNul s)) : url.HasAround P := by
  obtain ⟨-, name, rest, split, -, named⟩ := exists_of_ofText? s url read
  obtain ⟨front, whole, -⟩ := Scheme.eq_of_split? _ name rest split
  rw [whole] at has
  have has := (inherited.cut front rest _ (by decide) has).2.2
  rcases named with file | ⟨authority, served, whole⟩
  · obtain ⟨front, path, rfl, ascii, rfl⟩ := exists_of_ofFileText? rest url file
    exact hasAround_withRest inherited _ _ _ nofun (inherited.behind front path ascii has)
  have has := inherited.dropWhile (· == Mark.slash)
    (fun b slash => by rw [eq_of_beq slash]; decide) rest has
  obtain ⟨front, behind⟩ := inherited.takeWhile_dropWhile
    (fun b => b != Mark.slash && b != Mark.question && b != Mark.hash)
    (fun b stop => by
      simp only [Bool.and_eq_false_iff, bne_eq_false_iff_eq] at stop
      rcases stop with (rfl | rfl) | rfl <;> decide) _ has
  rw [whole]
  refine hasAround_withRest inherited _ _ _ ?_ behind
  rintro _ ⟨⟩
  exact inherits_login_of_ofText? inherited _ _ authority served front

theorem inherits_renderFront (url : Url) : P url.renderFront :=
  inherited.append _ _ (Scheme.inherits_name inherited url.scheme)
    (inherited.of_printable _ (forall_mem_of_all _ _ (by decide)))

variable (url : Url) (around : url.HasAround P)
include around

theorem HasAround.inherits_render (unserved : url.authority = none) : P url.render := by
  have path := around.getD_path url (ofString "(nil)")
    (inherited.of_printable _ (forall_mem_of_all _ _ (by decide)))
  have fragment := inherited.marked Mark.hash _ (by decide) (by decide) around.fragment
  rw [render, renderRest, unserved]
  exact inherited.append _ _ (inherits_renderFront inherited url)
    (inherited.append _ _ path fragment)

/-- What is written in front of the host and behind it has what the parts have. -/
theorem HasAround.exists_render_eq (authority : Authority)
    (served : url.authority = some authority) :
    ∃ before after, url.render = before ++ authority.host.render ++ after ∧
      P before ∧ P after := by
  obtain ⟨before, after, written, front, back⟩ :=
    authority.exists_render_eq inherited (around.login authority served)
  have path := around.getD_path url [Mark.slash] (inherited.sign _ (by decide) (by decide))
  have query := inherited.marked Mark.question _ (by decide) (by decide) around.query
  have fragment := inherited.marked Mark.hash _ (by decide) (by decide) around.fragment
  have first := inherited.append _ _ (inherits_renderFront inherited url) front
  have last := inherited.append _ _ back
    (inherited.append _ _ path (inherited.append _ _ query fragment))
  refine ⟨_, _, ?_, first, last⟩
  rw [render, renderRest, served]
  simp only [written, List.append_assoc]

end Url

end FeedIntake
