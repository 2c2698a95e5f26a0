import FeedIntake.Checksum.Blob
import FeedIntake.Proofs.Checksum.Log

/-!
Stored checksums. A blob is the version and entries of one width, and loading one puts its entries
one after the other. Main statement: what is stored comes back, cut to the latest entries; and a
blob of a stranger comes back with the last entry of each identity.
-/
namespace FeedIntake.Checksum

def blobOf (entries : Log) : Bytes := version :: entries.flatMap encodeEntry

@[simp] theorem length_encodeEntry (entry : Digest × Digest) :
    (encodeEntry entry).length = entryWidth := by
  simp [encodeEntry, entryWidth, Digest.width]

theorem length_flatMap_encodeEntry (entries : Log) :
    (entries.flatMap encodeEntry).length = entryWidth * entries.length := by
  induction entries with
  | nil => rfl
  | cons entry rest ih => simp [ih, Nat.mul_succ, Nat.add_comm]

/-- The first bytes of a text that begins with an entry are that entry. -/
theorem decodeEntries_encodeEntry (count : Nat) (entry : Digest × Digest) (rest : Bytes) :
    decodeEntries (count + 1) (encodeEntry entry ++ rest) = entry :: decodeEntries count rest := by
  have ident : (encodeEntry entry ++ rest).take Digest.width = Digest.toBytes entry.1 := by
    simp [encodeEntry]
  have content : ((encodeEntry entry ++ rest).drop Digest.width).take Digest.width =
      Digest.toBytes entry.2 := by
    simp [encodeEntry]
  have behind : (encodeEntry entry ++ rest).drop entryWidth = rest := by
    rw [← length_encodeEntry entry, List.drop_left]
  rw [decodeEntries, ident, content, behind, Digest.ofBytes_toBytes, Digest.ofBytes_toBytes]

theorem decodeEntries_flatMap (entries : Log) :
    decodeEntries entries.length (entries.flatMap encodeEntry) = entries := by
  induction entries with
  | nil => rfl
  | cons entry rest ih =>
    rw [List.length_cons, List.flatMap_cons, decodeEntries_encodeEntry, ih]

/-- Text of so many whole entries is what stores the entries that are read from it. -/
theorem flatMap_decodeEntries (count : Nat) (s : Bytes) (whole : s.length = entryWidth * count) :
    (decodeEntries count s).flatMap encodeEntry = s := by
  induction count generalizing s with
  | zero => exact (List.length_eq_zero_iff.1 (by simpa using whole)).symm
  | succ count ih =>
    have wide : s.length = entryWidth * count + entryWidth := by rw [whole, Nat.mul_succ]
    have both : entryWidth = Digest.width + Digest.width := rfl
    have ident : (s.take Digest.width).length = Digest.width := by
      rw [List.length_take]
      omega
    have content : ((s.drop Digest.width).take Digest.width).length = Digest.width := by
      rw [List.length_take, List.length_drop]
      omega
    have rest : (s.drop entryWidth).length = entryWidth * count := by
      rw [List.length_drop]
      omega
    rw [decodeEntries, List.flatMap_cons, ih _ rest, encodeEntry, Digest.toBytes_ofBytes _ ident,
      Digest.toBytes_ofBytes _ content, both, ← List.drop_drop, List.append_assoc,
      List.take_append_drop, List.take_append_drop]

/-- Loading a blob puts its entries one after the other. -/
theorem load_blobOf (entries : Log) : load (blobOf entries) = .ok (empty.record entries) := by
  have length := length_flatMap_encodeEntry entries
  have count : (entries.flatMap encodeEntry).length / entryWidth = entries.length := by
    rw [length, Nat.mul_div_cancel_left _ (by decide)]
  have whole : (entries.flatMap encodeEntry).length % entryWidth = 0 := by
    rw [length, Nat.mul_mod_right]
  rw [blobOf, load, whole, count, decodeEntries_flatMap]
  rfl

/-- Exactly the blobs of entries can be loaded. -/
theorem load_eq_ok_iff (blob : Bytes) (checksum : Checksum) :
    load blob = .ok checksum ↔
      ∃ entries, blob = blobOf entries ∧ checksum = empty.record entries := by
  constructor
  · intro loaded
    cases blob with
    | nil => cases loaded
    | cons format entries =>
      simp only [load] at loaded
      split at loaded
      · cases loaded
      split at loaded
      · cases loaded
      next supported whole =>
      refine ⟨_, ?_, (Except.ok.inj loaded).symm⟩
      have same : format = version := by simpa using supported
      have length : entries.length = entryWidth * (entries.length / entryWidth) := by
        have parts := Nat.div_add_mod entries.length entryWidth
        have none : entries.length % entryWidth = 0 := by simpa using whole
        omega
      rw [blobOf, flatMap_decodeEntries _ _ length, same]
  · rintro ⟨entries, rfl, rfl⟩
    exact load_blobOf entries

theorem exists_load_iff (blob : Bytes) :
    (∃ checksum, load blob = .ok checksum) ↔
      blob.head? = some version ∧ (blob.length - 1) % entryWidth = 0 := by
  cases blob with
  | nil => simp [load]
  | cons format entries =>
    by_cases same : format = version
    · by_cases whole : entries.length % entryWidth = 0 <;> simp [load, same, whole]
    · simp [load, same]

theorem blobOf_injective (first second : Log) (same : blobOf first = blobOf second) :
    first = second := by
  have text := (List.cons.inj same).2
  have lengths := congrArg List.length text
  rw [length_flatMap_encodeEntry, length_flatMap_encodeEntry] at lengths
  have count : first.length = second.length := Nat.eq_of_mul_eq_mul_left (by decide) lengths
  rw [← decodeEntries_flatMap first, text, count, decodeEntries_flatMap]

theorem dump_eq_blobOf (checksum : Checksum) (limit : Nat) :
    checksum.dump limit = blobOf (checksum.toList.rtake limit) := rfl

theorem dump_of_size_le (checksum : Checksum) (limit : Nat) (all : checksum.size ≤ limit) :
    checksum.dump limit = blobOf checksum.toList := by
  rw [dump_eq_blobOf, List.rtake, length_toList, Nat.sub_eq_zero_of_le all, List.drop_zero]

theorem rtake_rtake (log : Log) (n m : Nat) : (log.rtake n).rtake m = log.rtake (min n m) := by
  simp only [List.rtake, List.length_drop, List.drop_drop]
  congr 1
  omega

theorem toList_record_empty (entries : Log) :
    (empty.record entries).toList = Log.onlyLast entries := by
  rw [toList_record, toList_empty, Log.putAll_nil]

/-- The latest entries of a checksum are those of the checksum that is loaded from them. -/
theorem exists_load_dump (checksum : Checksum) (limit : Nat) :
    ∃ loaded, load (checksum.dump limit) = .ok loaded ∧
      loaded.toList = checksum.toList.rtake limit := by
  refine ⟨_, load_blobOf _, ?_⟩
  have part : (checksum.toList.rtake limit).Sublist checksum.toList := List.drop_sublist _ _
  have distinct : Log.Distinct (checksum.toList.rtake limit) :=
    checksum.toList_distinct.sublist (part.map _)
  rw [toList_record_empty]
  exact Log.onlyLast_of_distinct _ distinct

/-- What is stored comes back, cut to the latest entries. Exactly the blobs of whole entries in the
known version can be loaded, and they come back as they were if no identity is repeated in them, and
else with the last entry of each identity. -/
theorem load_dump_round_trip :
    (∀ (checksum : Checksum) (n m : Nat), ∃ loaded, load (checksum.dump n) = .ok loaded ∧
      loaded.size = min n checksum.size ∧ loaded.dump m = checksum.dump (min n m)) ∧
    (∀ blob : Bytes, (∃ loaded, load blob = .ok loaded) ↔
      blob.head? = some 1 ∧ (blob.length - 1) % 16 = 0) ∧
    (∀ (blob : Bytes) (loaded : Checksum), load blob = .ok loaded →
      ∃ entries, blob = 1 :: entries.flatMap encodeEntry ∧
        ∀ limit, loaded.size ≤ limit →
          (loaded.dump limit = blob ↔ (entries.map (·.1)).Nodup) ∧
          loaded.dump limit = 1 :: (Log.onlyLast entries).flatMap encodeEntry) := by
  refine ⟨?_, exists_load_iff, ?_⟩
  · intro checksum n m
    obtain ⟨loaded, read, latest⟩ := checksum.exists_load_dump n
    refine ⟨loaded, read, ?_, ?_⟩
    · rw [← length_toList, latest, ← length_toList, List.rtake, List.length_drop]
      omega
    · rw [dump_eq_blobOf, latest, rtake_rtake, dump_eq_blobOf]
  · intro blob loaded read
    obtain ⟨entries, rfl, rfl⟩ := (load_eq_ok_iff blob loaded).1 read
    refine ⟨entries, rfl, fun limit all => ?_⟩
    have dumped : (empty.record entries).dump limit = blobOf (Log.onlyLast entries) := by
      rw [dump_of_size_le _ _ all, toList_record_empty]
    refine ⟨?_, dumped⟩
    rw [dumped]
    constructor
    · intro same
      exact (Log.onlyLast_eq_self_iff entries).1 (blobOf_injective _ _ same)
    · intro distinct
      rw [Log.onlyLast_of_distinct entries distinct]

end FeedIntake.Checksum
