import Mathlib.Logic.ExistsUnique
import FeedIntake.Proofs.Content.Marker

/-!
The family that a body shows. It is told by the beginning of the body, without the mark of UTF-8 and
without blanks in front: by the first byte that is left, and in a document in angle brackets by the
first marker. The case of letters makes no difference.
-/
namespace FeedIntake.Family

open Bytes

/-- The part of a body that tells its family: the first 4096 bytes, behind a mark of UTF-8 if that
is in front, and behind the spaces, tabs and line ends that follow. -/
def IsHead (body head : Bytes) : Prop :=
  ∃ mark margin, body.take 4096 = mark ++ (margin ++ head) ∧
    (mark = [0xEF, 0xBB, 0xBF] ∨ mark = [] ∧ ¬ [0xEF, 0xBB, 0xBF] <+: body.take 4096) ∧
    (∀ b ∈ margin, b ∈ [Mark.space, Mark.tab, Mark.carriageReturn, Mark.lineFeed]) ∧
    ∀ b ∈ head.head?, b ∉ [Mark.space, Mark.tab, Mark.carriageReturn, Mark.lineFeed]

/-- The family that a document tells by its first byte, and behind an angle bracket by the marker,
in letters of either case, that stands in front of all others. -/
inductive Tells (head : Bytes) : Family → Prop where
  | brace (begins : head.head? = some Mark.openBrace) : Tells head json
  | bracket (begins : head.head? = some Mark.openBracket) : Tells head json
  | marker (begins : head.head? = some Mark.less) (marker : Bytes) (family : Family) (n : Nat)
      (isMarker : IsMarker marker family) (stands : StandsInAnyCaseAt marker head n)
      (first : ∀ other family, IsMarker other family → ∀ m < n, ¬ StandsInAnyCaseAt other head m) :
      Tells head family
  | plain (begins : head.head? = some Mark.less)
      (nowhere : ∀ marker family, IsMarker marker family → ∀ n, ¬ StandsInAnyCaseAt marker head n) :
      Tells head xml

theorem isMargin_iff (b : UInt8) :
    isMargin b = true ↔ b ∈ [Mark.space, Mark.tab, Mark.carriageReturn, Mark.lineFeed] := by
  simp [isMargin, or_assoc]

theorem isMargin_eq_false_iff (b : UInt8) :
    isMargin b = false ↔ b ∉ [Mark.space, Mark.tab, Mark.carriageReturn, Mark.lineFeed] := by
  rw [← isMargin_iff, Bool.not_eq_true]

/-- The blanks in front of a text, up to the first other byte. -/
theorem exists_margin (s : Bytes) :
    ∃ margin, margin ++ s.dropWhile isMargin = s ∧
      (∀ b ∈ margin, b ∈ [Mark.space, Mark.tab, Mark.carriageReturn, Mark.lineFeed]) ∧
      ∀ b ∈ (s.dropWhile isMargin).head?,
        b ∉ [Mark.space, Mark.tab, Mark.carriageReturn, Mark.lineFeed] := by
  refine ⟨s.takeWhile isMargin, List.takeWhile_append_dropWhile, ?_, ?_⟩
  · intro b member
    exact (isMargin_iff b).1 (List.all_eq_true.1 List.all_takeWhile b member)
  · intro b first
    have other := List.head?_dropWhile_not isMargin s
    rw [first] at other
    exact (isMargin_eq_false_iff b).1 other

theorem headOf_marked (body rest : Bytes)
    (marked : body.take sniffLimit = Utf8.byteOrderMark ++ rest) :
    headOf body = rest.dropWhile isMargin := by
  simp [headOf, marked, startsWith]

theorem headOf_unmarked (body : Bytes) (unmarked : ¬ Utf8.byteOrderMark <+: body.take sniffLimit) :
    headOf body = (body.take sniffLimit).dropWhile isMargin := by
  simp [headOf, startsWith, unmarked]

theorem isHead_iff (body head : Bytes) : IsHead body head ↔ head = headOf body := by
  constructor
  · rintro ⟨mark, margin, whole, front, blank, stop⟩
    have kept : (margin ++ head).dropWhile isMargin = head := by
      apply dropWhile_append_of_all
      · exact fun b member => (isMargin_iff b).2 (blank b member)
      · exact fun b first => (isMargin_eq_false_iff b).2 (stop b first)
    rcases front with rfl | ⟨rfl, unmarked⟩
    · rw [headOf_marked body _ whole, kept]
    · rw [headOf_unmarked body unmarked, sniffLimit, whole, List.nil_append, kept]
  · rintro rfl
    by_cases marked : Utf8.byteOrderMark <+: body.take sniffLimit
    · obtain ⟨rest, whole⟩ := marked
      obtain ⟨margin, split, blank, stop⟩ := exists_margin rest
      rw [headOf_marked body rest whole.symm]
      refine ⟨Utf8.byteOrderMark, margin, ?_, .inl rfl, blank, stop⟩
      rw [split, whole, sniffLimit]
    · obtain ⟨margin, split, blank, stop⟩ := exists_margin (body.take sniffLimit)
      rw [headOf_unmarked body marked]
      refine ⟨[], margin, ?_, .inr ⟨rfl, marked⟩, blank, stop⟩
      rw [split, List.nil_append, sniffLimit]

theorem isEarliest_lower_some_iff (head : Bytes) (n : Nat) (family : Family) :
    IsEarliest (lower head) markers (some (n, family)) ↔
      (∃ marker, IsMarker marker family ∧ StandsInAnyCaseAt marker head n) ∧
        ∀ other family, IsMarker other family → ∀ m < n, ¬ StandsInAnyCaseAt other head m := by
  simp only [IsEarliest, Prod.forall, mem_markers_iff, standsAt_lower_iff]

theorem isEarliest_lower_none_iff (head : Bytes) :
    IsEarliest (lower head) markers none ↔
      ∀ marker family, IsMarker marker family → ∀ n, ¬ StandsInAnyCaseAt marker head n := by
  simp only [IsEarliest, Prod.forall, mem_markers_iff, standsAt_lower_iff]

theorem sniff?_of_less (body : Bytes) (begins : (headOf body).head? = some Mark.less) :
    sniff? body = some ((firstMarker? (lower (headOf body))).getD xml) := by
  obtain ⟨rest, head⟩ := List.head?_eq_some_iff.1 begins
  rw [sniff?, head]
  rfl

theorem Tells.sniff? (body : Bytes) (family : Family) (tells : Tells (headOf body) family) :
    sniff? body = some family := by
  cases tells with
  | brace begins =>
    obtain ⟨rest, head⟩ := List.head?_eq_some_iff.1 begins
    rw [Family.sniff?, head]
    rfl
  | bracket begins =>
    obtain ⟨rest, head⟩ := List.head?_eq_some_iff.1 begins
    rw [Family.sniff?, head]
    rfl
  | marker begins marker family n isMarker stands first =>
    have earliest := (isEarliest_lower_some_iff _ n family).2 ⟨⟨marker, isMarker, stands⟩, first⟩
    rw [sniff?_of_less body begins, firstMarker?_of_isEarliest _ _ earliest]
    rfl
  | plain begins nowhere =>
    have earliest := (isEarliest_lower_none_iff _).2 nowhere
    rw [sniff?_of_less body begins, firstMarker?_of_isEarliest _ _ earliest]
    rfl

theorem tells_of_less (head : Bytes) (begins : head.head? = some Mark.less) :
    Tells head ((firstMarker? (lower head)).getD xml) := by
  obtain ⟨best, earliest, same⟩ := exists_isEarliest_firstMarker? (lower head)
  rw [same]
  cases best with
  | none => exact .plain begins ((isEarliest_lower_none_iff _).1 earliest)
  | some best =>
    obtain ⟨⟨marker, isMarker, stands⟩, first⟩ := (isEarliest_lower_some_iff _ _ _).1 earliest
    exact .marker begins marker best.2 best.1 isMarker stands first

theorem sniff?_eq_some_iff (body : Bytes) (family : Family) :
    sniff? body = some family ↔ Tells (headOf body) family := by
  refine ⟨fun found => ?_, Tells.sniff? body family⟩
  rw [sniff?] at found
  split at found
  · next rest head => exact Option.some.inj found ▸ .brace (by rw [head]; rfl)
  · next rest head => exact Option.some.inj found ▸ .bracket (by rw [head]; rfl)
  · next rest head =>
    have told := tells_of_less (Mark.less :: rest) rfl
    rw [Option.some.inj found] at told
    rw [head]
    exact told
  · contradiction

theorem sniff?_eq_none_iff (body : Bytes) :
    sniff? body = none ↔ ∀ b ∈ (headOf body).head?,
      b ≠ Mark.less ∧ b ≠ Mark.openBrace ∧ b ≠ Mark.openBracket := by
  rw [sniff?]
  constructor
  · intro absent
    split at absent
    · contradiction
    · contradiction
    · contradiction
    · next brace bracket less =>
      intro b first
      obtain ⟨rest, head⟩ := List.head?_eq_some_iff.1 first
      refine ⟨?_, ?_, ?_⟩ <;> rintro rfl
      · exact less rest head
      · exact brace rest head
      · exact bracket rest head
  · intro others
    split
    · next rest head => exact absurd rfl (others _ (by rw [head]; rfl)).2.1
    · next rest head => exact absurd rfl (others _ (by rw [head]; rfl)).2.2
    · next rest head => exact absurd rfl (others _ (by rw [head]; rfl)).1
    · rfl

theorem isMargin_lowerByte (b : UInt8) : isMargin (lowerByte b) = isMargin b :=
  forall_of_all (fun b => isMargin (lowerByte b) = isMargin b) (by decide +kernel) b

theorem dropWhile_isMargin_lower (s : Bytes) :
    (lower s).dropWhile isMargin = lower (s.dropWhile isMargin) := by
  rw [lower, List.dropWhile_map]
  congr
  exact funext isMargin_lowerByte

/-- Neither the mark of UTF-8 nor the blanks behind it have letters. -/
theorem headOf_lower (body : Bytes) : headOf (lower body) = lower (headOf body) := by
  have front : (lower body).take sniffLimit = lower (body.take sniffLimit) := List.map_take.symm
  have unlettered : ∀ b ∈ Utf8.byteOrderMark, isLetter b = false :=
    forall_mem_of_all _ Utf8.byteOrderMark (by decide +kernel)
  by_cases marked : Utf8.byteOrderMark <+: body.take sniffLimit
  · obtain ⟨rest, whole⟩ := marked
    have lowered : (lower body).take sniffLimit = Utf8.byteOrderMark ++ lower rest := by
      rw [front, ← whole, lower, List.map_append]
      rfl
    rw [headOf_marked _ _ lowered, headOf_marked _ _ whole.symm, dropWhile_isMargin_lower]
  · have unmarked : ¬ Utf8.byteOrderMark <+: (lower body).take sniffLimit := by
      rwa [front, ← standsAt_zero_iff, standsAt_lower_iff_of_not_isLetter _ _ _ unlettered,
        standsAt_zero_iff]
    rw [headOf_unmarked _ unmarked, headOf_unmarked _ marked, front, dropWhile_isMargin_lower]

/-- A mark that is no letter begins a text whatever the case of its letters is. -/
theorem head?_of_lower_eq (s other : Bytes) (mark : UInt8) (unlettered : isLetter mark = false)
    (same : lower other = lower s) (begins : s.head? = some mark) : other.head? = some mark := by
  have lowered : other.head?.map lowerByte = some mark := by
    rw [← List.head?_map, ← lower, same, lower, List.head?_map, begins, Option.map_some,
      lowerByte_of_not_isLetter mark unlettered]
  obtain ⟨b, first, rfl⟩ := Option.map_eq_some_iff.1 lowered
  rw [isLetter_lowerByte] at unlettered
  rw [first, lowerByte_of_not_isLetter b unlettered]

/-- What a document tells it tells in letters of either case. -/
theorem Tells.of_lower_eq (head other : Bytes) (family : Family)
    (same : lower other = lower head) (tells : Tells head family) : Tells other family := by
  have stand (marker : Bytes) (n : Nat) :
      StandsInAnyCaseAt marker other n ↔ StandsInAnyCaseAt marker head n := by
    rw [← standsAt_lower_iff, ← standsAt_lower_iff, same]
  cases tells with
  | brace begins => exact .brace (head?_of_lower_eq head other _ rfl same begins)
  | bracket begins => exact .bracket (head?_of_lower_eq head other _ rfl same begins)
  | marker begins marker family n isMarker stands first =>
    refine .marker (head?_of_lower_eq head other _ rfl same begins) marker family n isMarker
      ((stand marker n).2 stands) fun name family isMarker m lt => ?_
    rw [stand]
    exact first name family isMarker m lt
  | plain begins nowhere =>
    refine .plain (head?_of_lower_eq head other _ rfl same begins) fun name family isMarker n => ?_
    rw [stand]
    exact nowhere name family isMarker n

theorem sniff?_of_lower_eq (body other : Bytes) (same : lower other = lower body) :
    sniff? other = sniff? body := by
  have heads : lower (headOf other) = lower (headOf body) := by
    rw [← headOf_lower, same, headOf_lower]
  refine Option.ext fun family => ?_
  rw [sniff?_eq_some_iff, sniff?_eq_some_iff]
  exact ⟨.of_lower_eq _ _ family heads.symm, .of_lower_eq _ _ family heads⟩

theorem IsMarker.apart (s first second : Bytes) (family family' : Family) (n : Nat)
    (isMarker : IsMarker first family) (isMarker' : IsMarker second family')
    (other : first ≠ second) :
    ¬ (StandsInAnyCaseAt first s n ∧ StandsInAnyCaseAt second s n) := by
  rw [← standsAt_lower_iff, ← standsAt_lower_iff]
  rintro ⟨stands, stands'⟩
  have same := eq_of_standsAt (lower s) n (first, family) (second, family')
    ((mem_markers_iff _ _).2 isMarker) ((mem_markers_iff _ _).2 isMarker') stands stands'
  exact other (Prod.mk.inj same).1

/-- The beginning of a body tells its family, which is that of the first marker in a document in
angle brackets. No two markers stand at one place, so a scan of the table of markers in any order
has the same result; and so has the body with its letters in another case. -/
theorem leftmost_marker_tells (body : Bytes) :
    (∃! head, IsHead body head) ∧
    (∀ head, IsHead body head →
      (sniff? body = none ↔
        ∀ b ∈ head.head?, b ≠ Mark.less ∧ b ≠ Mark.openBrace ∧ b ≠ Mark.openBracket) ∧
      ∀ family, sniff? body = some family ↔ Tells head family) ∧
    (∀ s first second family family' n, IsMarker first family → IsMarker second family' →
      first ≠ second → ¬ (StandsInAnyCaseAt first s n ∧ StandsInAnyCaseAt second s n)) ∧
    (∀ table, table.Perm markers → sniffBy? table body = sniff? body) ∧
    ∀ other, lower other = lower body → sniff? other = sniff? body := by
  refine ⟨?_, ?_, IsMarker.apart, fun table perm => sniffBy?_eq table perm body,
    sniff?_of_lower_eq body⟩
  · refine ⟨headOf body, (isHead_iff body _).2 rfl, fun head isHead => ?_⟩
    exact (isHead_iff body head).1 isHead
  · intro head isHead
    obtain rfl := (isHead_iff body head).1 isHead
    exact ⟨sniff?_eq_none_iff body, sniff?_eq_some_iff body⟩

/-- A document with two markers behind the beginning of a third. -/
def feedText : Bytes := ofString "<?xml?><!-- <RS> --><Feed><rdf:RDF>"

/-- It is the first marker that counts, also behind a mark of UTF-8 and a line end. -/
theorem leftmost_marker_tells_feed :
    Tells feedText atom ∧
      ¬ (StandsInAnyCaseAt (ofString "<feed") feedText 20 ∧
        StandsInAnyCaseAt (ofString "<rss") feedText 20) ∧
      sniffBy? markers.reverse ([0xEF, 0xBB, 0xBF, 0x0D, 0x0A] ++ feedText) = some atom ∧
      sniff? (lower ([0xEF, 0xBB, 0xBF, 0x0D, 0x0A] ++ feedText)) = some atom := by
  have isHead : IsHead ([0xEF, 0xBB, 0xBF, 0x0D, 0x0A] ++ feedText) feedText :=
    (isHead_iff _ _).2 (by decide +kernel)
  have found : sniff? ([0xEF, 0xBB, 0xBF, 0x0D, 0x0A] ++ feedText) = some atom := by decide +kernel
  obtain ⟨-, told, apart, scanned, lowered⟩ :=
    leftmost_marker_tells ([0xEF, 0xBB, 0xBF, 0x0D, 0x0A] ++ feedText)
  exact ⟨((told feedText isHead).2 atom).1 found,
    apart feedText _ _ _ _ 20 .feed .rss (by decide),
    (scanned markers.reverse (List.reverse_perm markers)).trans found,
    (lowered _ (lower_lower _)).trans found⟩

end FeedIntake.Family
