import FeedIntake.Checksum.Basic

/-!
The view of a checksum as a list. Main statement: to record a sighting is to drop the entry of its
identity and to put the new one at the end.
-/
namespace FeedIntake.Checksum

/-- The first of two entries has the smaller stamp. -/
def Older (a b : Digest × Sighting) : Prop := a.2.stamp < b.2.stamp

theorem insertByAge_perm (entry : Digest × Sighting) (entries : List (Digest × Sighting)) :
    (insertByAge entry entries).Perm (entry :: entries) := by
  induction entries with
  | nil => exact .refl _
  | cons other rest ih =>
    rw [insertByAge]
    split
    · exact .refl _
    · exact (ih.cons other).trans (.swap _ _ _)

theorem byAge_perm (entries : List (Digest × Sighting)) : (byAge entries).Perm entries := by
  induction entries with
  | nil => exact .refl _
  | cons entry rest ih => exact (insertByAge_perm entry _).trans (ih.cons entry)

theorem insertByAge_pairwise (entry : Digest × Sighting) (entries : List (Digest × Sighting))
    (sorted : entries.Pairwise Older)
    (distinct : ∀ other ∈ entries, other.2.stamp ≠ entry.2.stamp) :
    (insertByAge entry entries).Pairwise Older := by
  induction entries with
  | nil => simp [insertByAge]
  | cons other rest ih =>
    rw [List.pairwise_cons] at sorted
    rw [insertByAge]
    split
    · next older =>
      refine List.pairwise_cons.2 ⟨?_, List.pairwise_cons.2 sorted⟩
      intro third member
      rcases List.mem_cons.1 member with rfl | inner
      · exact older
      · exact Nat.lt_trans older (sorted.1 third inner)
    · next notOlder =>
      refine List.pairwise_cons.2
        ⟨?_, ih sorted.2 fun third member => distinct third (List.mem_cons_of_mem _ member)⟩
      intro third member
      rcases List.mem_cons.1 ((insertByAge_perm entry rest).mem_iff.1 member) with rfl | inner
      · exact Nat.lt_of_le_of_ne (Nat.le_of_not_lt notOlder) (distinct other (by simp))
      · exact sorted.1 third inner

theorem byAge_pairwise (entries : List (Digest × Sighting))
    (distinct : entries.Pairwise fun a b => a.2.stamp ≠ b.2.stamp) :
    (byAge entries).Pairwise Older := by
  induction entries with
  | nil => exact .nil
  | cons entry rest ih =>
    rw [List.pairwise_cons] at distinct
    refine insertByAge_pairwise entry _ (ih distinct.2) fun other member => ?_
    exact (distinct.1 other ((byAge_perm rest).mem_iff.1 member)).symm

variable (checksum : Checksum)

theorem getElem?_of_mem (entry : Digest × Sighting)
    (member : entry ∈ checksum.sightings.toList) :
    checksum.sightings[entry.1]? = some entry.2 :=
  Std.TreeMap.mem_toList_iff_getElem?_eq_some.1 member

theorem stamps_distinct :
    checksum.sightings.toList.Pairwise fun a b => a.2.stamp ≠ b.2.stamp := by
  have keys := Std.TreeMap.distinct_keys_toList (t := checksum.sightings)
  refine keys.imp_of_mem fun {a b} inA inB different same => different ?_
  rw [checksum.stamp_inj a.1 b.1 a.2 b.2 (checksum.getElem?_of_mem a inA)
    (checksum.getElem?_of_mem b inB) same]
  exact Std.ReflCmp.compare_self

theorem byAge_sightings_pairwise : (byAge checksum.sightings.toList).Pairwise Older :=
  byAge_pairwise _ checksum.stamps_distinct

theorem byAge_put (ident content : Digest) :
    byAge (checksum.put ident content).sightings.toList =
      (byAge checksum.sightings.toList).filter (·.1 != ident)
        ++ [(ident, ⟨content, checksum.clock⟩)] := by
  refine List.Perm.eq_of_pairwise (fun a b _ _ (before : Older a b) (after : Older b a) =>
    absurd before (Nat.lt_asymm after)) ?_ ?_ ?_
  · exact byAge_sightings_pairwise _
  · refine List.pairwise_append.2
      ⟨(byAge_sightings_pairwise checksum).filter _, List.pairwise_singleton _ _, ?_⟩
    intro old inOld new inNew
    obtain rfl := List.mem_singleton.1 inNew
    have member := (byAge_perm _).mem_iff.1 ((List.mem_filter.1 inOld).1)
    exact checksum.stamp_lt _ _ (checksum.getElem?_of_mem old member)
  · have inserted := Std.TreeMap.toList_insert_perm (t := checksum.sightings) (k := ident)
      (v := (⟨content, checksum.clock⟩ : Sighting))
    have sameFilter : (fun entry : Digest × Sighting => decide ¬(ident == entry.1) = true) =
        (·.1 != ident) := by
      funext entry
      by_cases same : entry.1 = ident
      · simp [same]
      · simp [same, Ne.symm same]
    rw [sameFilter] at inserted
    exact (byAge_perm _).trans (inserted.trans
      ((((byAge_perm checksum.sightings.toList).filter _).symm.cons _).trans
        (List.perm_append_singleton _ _).symm))

/-- To record a sighting is to drop the entry of its identity and to put the new one at the end. -/
theorem toList_put (ident content : Digest) :
    (checksum.put ident content).toList =
      checksum.toList.filter (·.1 != ident) ++ [(ident, content)] := by
  rw [toList, byAge_put, toList, List.map_append, List.filter_map]
  rfl

@[simp] theorem toList_empty : empty.toList = [] := rfl

theorem length_toList : checksum.toList.length = checksum.size := by
  rw [toList, List.length_map, (byAge_perm _).length_eq, Std.TreeMap.length_toList, size]

theorem mem_toList_iff (entry : Digest × Digest) :
    entry ∈ checksum.toList ↔ checksum.seen? entry.1 = some entry.2 := by
  simp only [toList, List.mem_map, (byAge_perm _).mem_iff, seen?, Option.map_eq_some_iff]
  constructor
  · rintro ⟨found, member, rfl⟩
    exact ⟨found.2, checksum.getElem?_of_mem found member, rfl⟩
  · rintro ⟨sighting, found, same⟩
    exact ⟨(entry.1, sighting), Std.TreeMap.mem_toList_iff_getElem?_eq_some.2 found, by rw [same]⟩

theorem seen?_put (ident content other : Digest) :
    (checksum.put ident content).seen? other =
      if other = ident then some content else checksum.seen? other := by
  rw [seen?, put, Std.TreeMap.getElem?_insert]
  by_cases same : ident = other
  · subst same
    simp
  · simp [Ne.symm same, seen?, same]

/-- What was last seen under an identity is its last entry among those that are recorded, or else
what was seen before them. -/
theorem seen?_record (entries : List (Digest × Digest)) (ident : Digest) :
    (checksum.record entries).seen? ident =
      (entries.reverse.lookup ident).or (checksum.seen? ident) := by
  -- The entry that is recorded first is found last, behind all others.
  induction entries generalizing checksum with
  | nil => rfl
  | cons entry rest ih =>
    have later : (checksum.record (entry :: rest)).seen? ident =
        (rest.reverse.lookup ident).or ((checksum.put entry.1 entry.2).seen? ident) := ih _
    have first : (checksum.put entry.1 entry.2).seen? ident =
        ([entry].lookup ident).or (checksum.seen? ident) := by
      rw [seen?_put, List.lookup_singleton]
      by_cases same : ident = entry.1 <;> simp [same]
    rw [later, first, List.reverse_cons, List.lookup_append, Option.or_assoc]

/-- No two entries have one identity. -/
theorem nodup_idents : (checksum.toList.map (·.1)).Nodup := by
  rw [toList, List.map_map]
  have keys := Std.TreeMap.distinct_keys_toList (t := checksum.sightings)
  have distinct : (checksum.sightings.toList.map (·.1)).Nodup := by
    refine List.pairwise_map.2 (keys.imp fun different same => different ?_)
    rw [same]
    exact Std.ReflCmp.compare_self
  exact ((byAge_perm _).map _).nodup_iff.2 distinct

end FeedIntake.Checksum
