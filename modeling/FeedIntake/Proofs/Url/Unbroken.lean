import FeedIntake.Proofs.Bytes.Blank
import FeedIntake.Proofs.Bytes.Decimal
import FeedIntake.Proofs.Url.Links

/-!
Links in one line. What is written of a URL is visible byte by byte, but for spaces in a host that
was percent-decoded, and those can only stand inside of brackets. Main statement: whatever link is
found in whatever document, what is made of it has no line breaks and tabs and no blanks at its
ends.
-/
namespace FeedIntake

open Bytes

namespace Bytes

/-- A text of bytes above the space. -/
def IsVisible (s : Bytes) : Prop := ∀ b ∈ s, Mark.space < b

instance (s : Bytes) : Decidable (IsVisible s) := List.decidableBAll _ s

theorem IsVisible.of_subset (s t : Bytes) (visible : IsVisible s) (part : t ⊆ s) : IsVisible t :=
  fun b member => visible b (part member)

theorem inherited_isVisible : Inherited IsVisible where
  nil := nofun
  append s t front back := List.forall_mem_append.2 ⟨front, back⟩
  sign b printable _ := List.forall_mem_singleton.2 printable
  cut front rest b _ visible := by
    obtain ⟨front, back⟩ := List.forall_mem_append.1 visible
    obtain ⟨first, rest⟩ := List.forall_mem_cons.1 back
    exact ⟨front, List.forall_mem_singleton.2 first, rest⟩

/-- A text in one line that neither begins nor ends with a blank. -/
structure IsUnbroken (s : Bytes) : Prop where
  inLine : ∀ b ∈ s, b ≠ Mark.carriageReturn ∧ b ≠ Mark.lineFeed ∧ b ≠ Mark.tab
  ends : EndsWithout isBlank s

theorem inLine_of_le (s : Bytes) (printable : ∀ b ∈ s, Mark.space ≤ b) :
    ∀ b ∈ s, b ≠ Mark.carriageReturn ∧ b ≠ Mark.lineFeed ∧ b ≠ Mark.tab := by
  have table : ∀ b : UInt8, Mark.space ≤ b →
      b ≠ Mark.carriageReturn ∧ b ≠ Mark.lineFeed ∧ b ≠ Mark.tab :=
    forall_of_all _ (by decide +kernel)
  exact fun b member => table b (printable b member)

namespace IsUnbroken

theorem of_isVisible (s : Bytes) (visible : IsVisible s) : IsUnbroken s := by
  have table : ∀ b : UInt8, Mark.space < b → isBlank b = false :=
    forall_of_all _ (by decide +kernel)
  refine ⟨inLine_of_le s fun b member => UInt8.le_of_lt (visible b member), ?_⟩
  exact endsWithout_of_all isBlank s fun b member => table b (visible b member)

theorem append (s t : Bytes) (front : IsUnbroken s) (back : IsUnbroken t) :
    IsUnbroken (s ++ t) :=
  ⟨List.forall_mem_append.2 ⟨front.inLine, back.inLine⟩, front.ends.append s t back.ends⟩

/-- Spaces between visible bytes are no ends. -/
theorem between (first last : UInt8) (s : Bytes) (front : Mark.space < first)
    (back : Mark.space < last) (printable : ∀ b ∈ s, Mark.space ≤ b) :
    IsUnbroken ([first] ++ s ++ [last]) := by
  have table : ∀ b : UInt8, Mark.space < b → Mark.space ≤ b ∧ isBlank b = false :=
    forall_of_all _ (by decide +kernel)
  refine ⟨inLine_of_le _ ?_, ?_, ?_⟩
  · rw [List.forall_mem_append, List.forall_mem_append]
    exact ⟨⟨List.forall_mem_singleton.2 (table first front).1, printable⟩,
      List.forall_mem_singleton.2 (table last back).1⟩
  · rintro b ⟨⟩
    exact (table first front).2
  · rw [List.getLast?_concat]
    rintro b ⟨⟩
    exact (table last back).2

end IsUnbroken

end Bytes

namespace Numeral

theorem isVisible_digits (base n : Nat) (low : 1 < base) (high : base ≤ 16) :
    IsVisible (digits base n) := by
  have table : ∀ b : UInt8, isHexDigit b = true → Mark.space < b :=
    forall_of_all _ (by decide +kernel)
  exact fun b member => table b (isHexDigit_of_mem_digits base n low high b member)

end Numeral

theorem Ipv4.isVisible_render (address : Ipv4) : IsVisible address.render := by
  refine inherited_isVisible.join Mark.dot (by decide) (by decide) _ ?_
  simp only [List.forall_mem_map]
  exact fun n _ => Numeral.isVisible_digits 10 n (by decide) (by decide)

namespace Ipv6

theorem isVisible_renderGroups (groups : List Nat) : IsVisible (renderGroups groups) := by
  refine inherited_isVisible.join Mark.colon (by decide) (by decide) _ ?_
  simp only [List.forall_mem_map]
  exact fun n _ => Numeral.isVisible_digits 16 n (by decide) (by decide)

theorem isVisible_render (address : Ipv6) : IsVisible address.render := by
  have append := inherited_isVisible.append
  rw [render]
  dsimp only
  split
  · exact isVisible_renderGroups _
  · split
    · exact append _ _ (by decide) address.low.isVisible_render
    · split
      · exact append _ _ (by decide) address.low.isVisible_render
      · exact append _ _ (append _ _ (isVisible_renderGroups _) (by decide))
          (isVisible_renderGroups _)

end Ipv6

namespace Host

theorem percentDecode_of_not_mem (s : Bytes) (absent : Mark.percent ∉ s) :
    percentDecode s = s := by
  have onto : ∀ decoded, percentDecodeOnto decoded s = decoded.reverse ++ s := by
    intro decoded
    fun_induction percentDecodeOnto decoded s <;> simp_all
  exact onto []

theorem isVisible_of_ofIpv6Text? (text : Bytes) (zone : Option Bytes) (host : Host)
    (read : ofIpv6Text? text zone = some host) (visible : IsVisible text) :
    ∃ written, host = bracketed written zone ∧ IsVisible written := by
  obtain ⟨address, -, read⟩ := Option.bind_eq_some_iff.1 read
  obtain rfl := Option.some.inj read
  refine ⟨_, rfl, ?_⟩
  split
  · exact address.isVisible_render
  · exact visible

theorem subset_of_zone? (s zone : Bytes) (read : zone? s = some zone) : zone ⊆ s := by
  have front : ∀ t : Bytes, (t.take zoneLimit).takeWhile (· != Mark.closeBracket) ⊆ t :=
    fun t b member => List.mem_of_mem_take ((List.takeWhile_prefix _).subset member)
  have taken : ∀ (closed : Bool) (t : Bytes),
      (if closed then some ((t.take zoneLimit).takeWhile (· != Mark.closeBracket)) else none) =
        some zone → zone ⊆ t := by
    intro closed t read
    split at read
    · exact Option.some.inj read ▸ front t
    · contradiction
  unfold zone? at read
  dsimp only at read
  split at read
  · refine List.Subset.trans (taken _ _ read) ?_
    split
    · exact List.Subset.refl _
    · exact fun b member => List.mem_cons_of_mem _ (List.mem_cons_of_mem _ member)
  · exact taken _ s read

/-- What was decoded inside of brackets may be a space, but no byte below. -/
theorem isUnbroken_render_bracketed (text : Bytes) (zone : Option Bytes) (visible : IsVisible text)
    (printable : ∀ s ∈ zone, ∀ b ∈ s, Mark.space ≤ b) :
    IsUnbroken (bracketed text zone).render := by
  have inside : ∀ b ∈ text, Mark.space ≤ b := fun b member => UInt8.le_of_lt (visible b member)
  cases zone with
  | none =>
    have whole : (bracketed text none).render =
        [Mark.openBracket] ++ (text ++ []) ++ [Mark.closeBracket] := rfl
    rw [whole, List.append_nil]
    exact .between _ _ text (by decide) (by decide) inside
  | some zone =>
    have whole : (bracketed text (some zone)).render =
        [Mark.openBracket] ++ (text ++ (ofString "%25" ++ zone)) ++ [Mark.closeBracket] := rfl
    rw [whole]
    refine .between _ _ _ (by decide) (by decide) (List.forall_mem_append.2 ⟨inside, ?_⟩)
    exact List.forall_mem_append.2 ⟨forall_mem_of_all _ _ (by decide), printable zone rfl⟩

theorem isUnbroken_render_ofBracketed? (s : Bytes) (host : Host)
    (read : ofBracketed? s = some host) (printable : ∀ b ∈ s, Mark.space ≤ b) :
    IsUnbroken host.render := by
  have visible : IsVisible
      ((s.drop 1).takeWhile fun b => isHexDigit b || b == Mark.colon || b == Mark.dot) := by
    have table : ∀ b : UInt8, (isHexDigit b || b == Mark.colon || b == Mark.dot) = true →
        Mark.space < b := forall_of_all _ (by decide +kernel)
    exact fun b member => table b (List.all_eq_true.1 List.all_takeWhile b member)
  rw [ofBracketed?] at read
  split at read
  · cases read
  dsimp only at read
  split at read
  · obtain ⟨written, rfl, visible⟩ := isVisible_of_ofIpv6Text? _ _ host read visible
    exact isUnbroken_render_bracketed written none visible nofun
  split at read
  · next rest found =>
    obtain ⟨zone, zoned, read⟩ := Option.bind_eq_some_iff.1 read
    obtain ⟨written, rfl, visible⟩ := isVisible_of_ofIpv6Text? _ _ host read visible
    refine isUnbroken_render_bracketed written _ visible ?_
    rintro _ ⟨⟩ b member
    have behind := List.mem_cons_of_mem Mark.percent (subset_of_zone? rest zone zoned member)
    have found : (s.drop 1).drop _ = Mark.percent :: rest := found
    have inside : Mark.percent :: rest ⊆ s := by
      rw [← found, List.drop_drop]
      exact List.drop_subset _ s
    exact printable b (inside behind)
  · cases read

theorem isVisible_render_name (text : Bytes) (visible : IsVisible text) :
    IsVisible (name text).render := by
  intro b member
  obtain ⟨c, inText, written⟩ := List.mem_flatMap.1 member
  split at written
  · have code : IsVisible (ofString "%25") := by decide
    exact code b written
  · obtain rfl := List.mem_singleton.1 written
    exact visible b inText

/-- A host that was decoded holds no byte below the space, and a name holds no space either. -/
theorem isUnbroken_render_ofName? (s : Bytes) (host : Host) (read : ofName? s = some host)
    (visible : IsVisible s) : IsUnbroken host.render := by
  unfold ofName? at read
  dsimp only at read
  split at read
  · contradiction
  next clean =>
  have printable : ∀ b ∈ percentDecode s, Mark.space ≤ b := by
    by_cases coded : Mark.percent ∈ s
    · simpa [coded] using clean
    · rw [percentDecode_of_not_mem s coded]
      exact fun b member => UInt8.le_of_lt (visible b member)
  split at read
  · exact isUnbroken_render_ofBracketed? _ host read printable
  split at read
  · contradiction
  next allowed =>
  obtain rfl := Option.some.inj read
  refine .of_isVisible _ (isVisible_render_name _ fun b member => ?_)
  refine UInt8.lt_of_le_of_ne (printable b member) ?_
  rintro rfl
  exact allowed (List.any_eq_true.2 ⟨_, member, by decide⟩)

theorem isUnbroken_render_ofText? (s : Bytes) (host : Host) (read : ofText? s = some host)
    (visible : IsVisible s) : IsUnbroken host.render := by
  unfold ofText? at read
  split at read
  · contradiction
  · exact isUnbroken_render_ofBracketed? _ host read fun b member =>
      UInt8.le_of_lt (visible b member)
  · split at read
    · next address _ =>
      obtain rfl := Option.some.inj read
      exact .of_isVisible _ (isVisible_render_name _ address.isVisible_render)
    · exact isUnbroken_render_ofName? _ host read visible

end Host

namespace Url

theorem isUnbroken_tidy (s : Bytes) : IsUnbroken (tidy s) := by
  refine ⟨fun b member => ?_, endsWithout_trim _⟩
  have kept := (List.mem_filter.1 (mem_of_mem_trim _ b member)).2
  simp only [Bool.and_eq_true, bne_iff_ne, ne_eq] at kept
  exact ⟨kept.1.2, kept.1.1, kept.2⟩

/-- What is written of a URL is in one line if its host is and all else is visible. -/
theorem HasAround.isUnbroken_render (url : Url) (around : url.HasAround IsVisible)
    (hosts : ∀ authority ∈ url.authority, IsUnbroken authority.host.render) :
    IsUnbroken url.render := by
  cases served : url.authority with
  | none => exact .of_isVisible _ (around.inherits_render inherited_isVisible url served)
  | some authority =>
    obtain ⟨before, after, written, front, back⟩ :=
      around.exists_render_eq inherited_isVisible url authority served
    rw [written]
    exact .append _ _ (.append _ _ (.of_isVisible _ front) (hosts authority served))
      (.of_isVisible _ back)

theorem isUnbroken_host_of_ofText? (s : Bytes) (url : Url) (read : ofText? s = some url)
    (visible : IsVisible (untilNul s)) :
    ∀ authority ∈ url.authority, IsUnbroken authority.host.render := by
  obtain ⟨-, name, rest, split, -, named⟩ := exists_of_ofText? s url read
  rcases named with file | ⟨authority, served, whole⟩
  · obtain ⟨_, path, -, -, rfl⟩ := exists_of_ofFileText? rest url file
    nofun
  obtain ⟨front, text, -⟩ := Scheme.eq_of_split? _ name rest split
  obtain ⟨host, piece, named⟩ := Authority.exists_host_of_ofText? _ _ authority served
  rw [whole]
  rintro _ ⟨⟩
  refine Host.isUnbroken_render_ofText? host _ named (visible.of_subset _ _ fun b member => ?_)
  have inRest : b ∈ rest :=
    (List.dropWhile_sublist _).subset ((List.takeWhile_prefix _).subset (piece member))
  rw [text]
  exact List.mem_append_right _ (List.mem_cons_of_mem _ inRest)

/-- A URL is only read from a visible text. -/
theorem isUnbroken_render_ofText? (s : Bytes) (url : Url) (read : ofText? s = some url) :
    IsUnbroken url.render := by
  have table : ∀ b : UInt8, isJunk b = false → Mark.space < b :=
    forall_of_all _ (by decide +kernel)
  have visible : IsVisible (untilNul s) := fun b member =>
    table b ((exists_of_ofText? s url read).1 b member)
  exact (hasAround_ofText? inherited_isVisible s url read visible).isUnbroken_render url
    (isUnbroken_host_of_ofText? s url read visible)

/-- What is made of a link is in one line. -/
theorem isUnbroken_normalize (link base : Bytes) : IsUnbroken (normalize link base) := by
  obtain ⟨front, kind, made⟩ := exists_normalize_eq link base
  have fallback : IsUnbroken (front ++ tidy link) := by
    have visible : IsVisible front := by
      rcases kind with rfl | rfl | ⟨scheme, rfl⟩
      · nofun
      · decide
      · exact inherited_isVisible.append _ _ (scheme.inherits_name inherited_isVisible) (by decide)
    exact .append _ _ (.of_isVisible front visible) (isUnbroken_tidy link)
  rw [made]
  cases leads : (target? link base).bind text? with
  | none => exact fallback
  | some s =>
    obtain ⟨url, found, written⟩ := Option.bind_eq_some_iff.1 leads
    obtain ⟨source, read⟩ := exists_of_target? link base url found
    obtain rfl := eq_render_of_text? url s written
    exact isUnbroken_render_ofText? source url read

/-- A space that was decoded stays inside of the brackets. -/
example : normalize (ofString "http://%5b%3a%3a1%25%20%5d/") [] =
    ofString "http://[::1%25 ]/" := by
  decide +kernel

end Url

end FeedIntake
