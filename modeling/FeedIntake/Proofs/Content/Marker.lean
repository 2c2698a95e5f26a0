import FeedIntake.Content.Family
import FeedIntake.Proofs.Bytes.Place

/-!
Markers of families of documents. A table of markers is scanned for the one that stands first: each
is looked for in the whole text, and the best place so far is kept. No marker begins another, so no
two of them stand at one place, and the table may be scanned in any order. Main statement: the
family of a body is told by its first marker, in letters of either case.
-/
namespace FeedIntake.Family

open Bytes

inductive IsMarker : Bytes → Family → Prop where
  | rss : IsMarker (ofString "<rss") .rss
  | rdf : IsMarker (ofString "<rdf:rdf") .rss
  | feed : IsMarker (ofString "<feed") .atom
  | html : IsMarker (ofString "<html") .html
  | doctype : IsMarker (ofString "<!doctype html") .html

theorem mem_markers_iff (marker : Bytes) (family : Family) :
    (marker, family) ∈ markers ↔ IsMarker marker family := by
  constructor
  · intro listed
    simp only [markers, List.map_cons, List.map_nil, List.mem_cons, List.not_mem_nil, or_false,
      Prod.mk.injEq] at listed
    rcases listed with ⟨rfl, rfl⟩ | ⟨rfl, rfl⟩ | ⟨rfl, rfl⟩ | ⟨rfl, rfl⟩ | ⟨rfl, rfl⟩
    · exact .rss
    · exact .rdf
    · exact .feed
    · exact .html
    · exact .doctype
  · rintro (_ | _ | _ | _ | _) <;> simp [markers]

/-- No marker begins another. -/
theorem eq_of_prefix_of_mem_markers :
    ∀ first ∈ markers, ∀ second ∈ markers, first.1 <+: second.1 → first = second := by
  decide +kernel

theorem eq_of_standsAt (s : Bytes) (n : Nat) (first second : Bytes × Family)
    (listed : first ∈ markers) (listed' : second ∈ markers) (stands : StandsAt first.1 s n)
    (stands' : StandsAt second.1 s n) : first = second := by
  rcases prefix_or_prefix_of_standsAt _ _ _ _ stands stands' with begins | begins
  · exact eq_of_prefix_of_mem_markers _ listed _ listed' begins
  · exact (eq_of_prefix_of_mem_markers _ listed' _ listed begins).symm

/-- The best place so far with its family, and the next marker: it counts if it stands further in
front. -/
def keepEarlier (s : Bytes) (best : Option (Nat × Family)) (entry : Bytes × Family) :
    Option (Nat × Family) :=
  match place? entry.1 s with
  | none => best
  | some n =>
    match best with
    | none => some (n, entry.2)
    | some (m, family) => if n < m then some (n, entry.2) else some (m, family)

/-- The first place in a text where a marker of a table stands, with the family of the marker. -/
def scan (table : List (Bytes × Family)) (s : Bytes) : Option (Nat × Family) :=
  table.foldl (keepEarlier s) none

/-- The family of a body, by a scan of a table of markers. -/
def sniffBy? (table : List (Bytes × Family)) (body : Bytes) : Option Family :=
  match headOf body with
  | Mark.openBrace :: _ | Mark.openBracket :: _ => some json
  | Mark.less :: rest => some (((scan table (lower (Mark.less :: rest))).map Prod.snd).getD xml)
  | _ => none

/-- The first place of the markers in `seen`, with the family of a marker that stands there; none if
they stand nowhere. -/
def IsEarliest (s : Bytes) (seen : List (Bytes × Family)) : Option (Nat × Family) → Prop
  | none => ∀ entry ∈ seen, ∀ n, ¬ StandsAt entry.1 s n
  | some (n, family) => (∃ marker, (marker, family) ∈ seen ∧ StandsAt marker s n) ∧
      ∀ entry ∈ seen, ∀ m < n, ¬ StandsAt entry.1 s m

theorem isEarliest_keepEarlier (s : Bytes) (seen : List (Bytes × Family))
    (best : Option (Nat × Family)) (entry : Bytes × Family) (earliest : IsEarliest s seen best) :
    IsEarliest s (seen ++ [entry]) (keepEarlier s best entry) := by
  have last : entry ∈ seen ++ [entry] := List.mem_append_right _ (List.mem_singleton_self entry)
  have either (P : Bytes × Family → Prop) (old : ∀ other ∈ seen, P other) (new : P entry) :
      ∀ other ∈ seen ++ [entry], P other :=
    List.forall_mem_append.2 ⟨old, List.forall_mem_singleton.2 new⟩
  rw [keepEarlier]
  cases place : place? entry.1 s with
  | none =>
    have nowhere := (place?_eq_none_iff _ _).1 place
    cases best with
    | none => exact either _ earliest nowhere
    | some best =>
      obtain ⟨⟨marker, listed, stands⟩, before⟩ := earliest
      exact ⟨⟨marker, List.mem_append_left _ listed, stands⟩, either _ before fun m _ => nowhere m⟩
  | some n =>
    obtain ⟨here, first⟩ := (place?_eq_some_iff _ _ _).1 place
    cases best with
    | none =>
      exact ⟨⟨entry.1, last, here⟩,
        either _ (fun other listed m _ => earliest other listed m) first⟩
    | some best =>
      obtain ⟨⟨marker, listed, stands⟩, before⟩ := earliest
      dsimp only
      split
      · next lt =>
        exact ⟨⟨entry.1, last, here⟩,
          either _ (fun other listed m less => before other listed m (Nat.lt_trans less lt)) first⟩
      · next le =>
        -- What stands no earlier than the best place stands nowhere in front of it.
        refine ⟨⟨marker, List.mem_append_left _ listed, stands⟩, either _ before ?_⟩
        intro m less
        exact first m (Nat.lt_of_lt_of_le less (Nat.le_of_not_lt le))

theorem isEarliest_foldl (s : Bytes) (table seen : List (Bytes × Family))
    (best : Option (Nat × Family)) (earliest : IsEarliest s seen best) :
    IsEarliest s (seen ++ table) (table.foldl (keepEarlier s) best) := by
  induction table generalizing seen best with
  | nil => rwa [List.append_nil]
  | cons entry table ih =>
    have step := ih _ _ (isEarliest_keepEarlier s seen best entry earliest)
    rwa [List.append_assoc] at step

theorem isEarliest_scan (s : Bytes) (table : List (Bytes × Family)) :
    IsEarliest s table (scan table s) :=
  isEarliest_foldl s table [] none (by simp [IsEarliest])

theorem IsEarliest.of_perm (s : Bytes) (table other : List (Bytes × Family))
    (best : Option (Nat × Family)) (perm : table.Perm other) (earliest : IsEarliest s table best) :
    IsEarliest s other best := by
  cases best with
  | none => exact fun entry listed => earliest entry (perm.mem_iff.2 listed)
  | some best =>
    obtain ⟨⟨marker, listed, stands⟩, before⟩ := earliest
    exact ⟨⟨marker, perm.mem_iff.1 listed, stands⟩,
      fun entry listed => before entry (perm.mem_iff.2 listed)⟩

/-- The markers leave no choice. -/
theorem IsEarliest.unique (s : Bytes) (best other : Option (Nat × Family))
    (earliest : IsEarliest s markers best) (earliest' : IsEarliest s markers other) :
    best = other := by
  cases best with
  | none =>
    cases other with
    | none => rfl
    | some other =>
      obtain ⟨⟨marker, listed, stands⟩, -⟩ := earliest'
      exact absurd stands (earliest _ listed _)
  | some best =>
    obtain ⟨⟨marker, listed, stands⟩, before⟩ := earliest
    cases other with
    | none => exact absurd stands (earliest' _ listed _)
    | some other =>
      obtain ⟨⟨marker', listed', stands'⟩, before'⟩ := earliest'
      have place : best.1 = other.1 := Nat.le_antisymm
        (Nat.le_of_not_lt fun lt => before _ listed' _ lt stands')
        (Nat.le_of_not_lt fun lt => before' _ listed _ lt stands)
      rw [← place] at stands'
      have same := eq_of_standsAt s best.1 _ _ listed listed' stands stands'
      exact congrArg some (Prod.ext place (Prod.mk.inj same).2)

theorem markerAt?_eq_some (s : Bytes) (family : Family) (found : markerAt? s = some family) :
    ∃ marker, (marker, family) ∈ markers ∧ StandsAt marker s 0 := by
  obtain ⟨⟨marker, family⟩, entry, rfl⟩ := Option.map_eq_some_iff.1 found
  have begins := List.find?_some entry
  exact ⟨marker, List.mem_of_find?_eq_some entry,
    (standsAt_zero_iff _ _).2 (List.isPrefixOf_iff_prefix.1 begins)⟩

theorem markerAt?_eq_none (s : Bytes) (absent : markerAt? s = none) :
    ∀ entry ∈ markers, ¬ StandsAt entry.1 s 0 := by
  intro entry listed stands
  have begins := List.isPrefixOf_iff_prefix.2 ((standsAt_zero_iff _ _).1 stands)
  exact List.find?_eq_none.1 (Option.map_eq_none_iff.1 absent) entry listed begins

/-- Going through a text place by place finds the first marker as well. -/
theorem exists_isEarliest_firstMarker? (s : Bytes) :
    ∃ best, IsEarliest s markers best ∧ firstMarker? s = best.map Prod.snd := by
  induction s with
  | nil =>
    refine ⟨none, ?_, rfl⟩
    rintro entry listed n ⟨front, back, whole, -⟩
    have empty : entry.1 = [] := by
      obtain ⟨inner, -⟩ := List.append_eq_nil_iff.1 whole.symm
      exact (List.append_eq_nil_iff.1 inner).2
    have full : ∀ entry ∈ markers, entry.1 ≠ [] := by decide +kernel
    exact full entry listed empty
  | cons b s ih =>
    rw [firstMarker?]
    cases here : markerAt? (b :: s) with
    | some family => exact ⟨some (0, family), ⟨markerAt?_eq_some _ _ here, by simp⟩, rfl⟩
    | none =>
      have absent := markerAt?_eq_none _ here
      obtain ⟨best, earliest, same⟩ := ih
      cases best with
      | none =>
        refine ⟨none, fun entry listed n => ?_, same⟩
        cases n with
        | zero => exact absent entry listed
        | succ n => simpa using earliest entry listed n
      | some best =>
        obtain ⟨⟨marker, listed, stands⟩, before⟩ := earliest
        refine ⟨some (best.1 + 1, best.2), ⟨⟨marker, listed, by simpa using stands⟩, ?_⟩, same⟩
        intro entry listed m lt
        cases m with
        | zero => exact absent entry listed
        | succ m => simpa using before entry listed m (Nat.lt_of_succ_lt_succ lt)

theorem firstMarker?_of_isEarliest (s : Bytes) (best : Option (Nat × Family))
    (earliest : IsEarliest s markers best) : firstMarker? s = best.map Prod.snd := by
  obtain ⟨other, found, same⟩ := exists_isEarliest_firstMarker? s
  rw [same, IsEarliest.unique s _ _ found earliest]

/-- A scan of the markers in any order finds the family of the first one. -/
theorem firstMarker?_eq_scan (s : Bytes) (table : List (Bytes × Family))
    (perm : table.Perm markers) : firstMarker? s = (scan table s).map Prod.snd := by
  have scanned := (isEarliest_scan s table).of_perm _ _ _ _ perm
  exact firstMarker?_of_isEarliest s _ scanned

theorem sniffBy?_eq (table : List (Bytes × Family)) (perm : table.Perm markers) (body : Bytes) :
    sniffBy? table body = sniff? body := by
  have same (s : Bytes) : (scan table s).map Prod.snd = firstMarker? s :=
    (firstMarker?_eq_scan s table perm).symm
  simp only [sniffBy?, same]
  rfl

end FeedIntake.Family
