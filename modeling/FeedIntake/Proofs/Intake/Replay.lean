import Mathlib.Data.List.Perm.Subperm
import FeedIntake.Proofs.Checksum.Codec
import FeedIntake.Proofs.Intake.News

/-!
Documents that come again. Behind a document its entries are the newest, so that nothing else is
left of what was seen once the latest entries are stored, if the document has that many identities.
Main statement: a document that comes again is silent exactly if all of its identities could be
stored and no two of its stories contradict each other.
-/
namespace FeedIntake

namespace Log

/-- No identity comes with two contents. -/
def Consistent (entries : Log) : Prop :=
  ∀ a ∈ entries, ∀ b ∈ entries, a.1 = b.1 → a.2 = b.2

theorem Distinct.eq_of_fst_eq {log : Log} (distinct : log.Distinct) {a b : Digest × Digest}
    (inA : a ∈ log) (inB : b ∈ log) (same : a.1 = b.1) : a = b :=
  List.inj_on_of_nodup_map distinct inA inB same

/-- Of consistent entries nothing is lost but repetitions. -/
theorem mem_onlyLast_of_consistent (entries : Log) (consistent : entries.Consistent)
    (entry : Digest × Digest) (member : entry ∈ entries) : entry ∈ onlyLast entries := by
  have kept : entry.1 ∈ (onlyLast entries).map (·.1) := by
    rw [map_fst_onlyLast, List.mem_dedup]
    exact List.mem_map_of_mem member
  obtain ⟨last, found, same⟩ := List.mem_map.1 kept
  have inside := (onlyLast_sublist entries).subset found
  have equal : last = entry := Prod.ext same (consistent last inside entry member same)
  rwa [← equal]

/-- All entries that are put are among the latest exactly if these have room for all identities and
no identity comes with two contents. -/
theorem subset_rtake_putAll_iff (log entries : Log) (limit : Nat)
    (distinct : (putAll log entries).Distinct) :
    entries ⊆ (putAll log entries).rtake limit ↔
      (entries.map (·.1)).dedup.length ≤ limit ∧ entries.Consistent := by
  have latest : ((putAll log entries).rtake limit).Sublist (putAll log entries) :=
    List.drop_sublist _ _
  constructor
  · intro stored
    constructor
    · have idents : (entries.map (·.1)).dedup ⊆ ((putAll log entries).rtake limit).map (·.1) :=
        List.Subset.trans (List.dedup_subset _) (List.map_subset _ stored)
      have count := ((List.nodup_dedup _).subperm idents).length_le
      rw [List.length_map, List.rtake, List.length_drop] at count
      omega
    · intro a inA b inB same
      rw [distinct.eq_of_fst_eq (latest.subset (stored inA)) (latest.subset (stored inB)) same]
  · rintro ⟨room, consistent⟩ entry member
    have count : (onlyLast entries).length ≤ limit := by
      rwa [← map_fst_onlyLast, List.length_map] at room
    have last := mem_onlyLast_of_consistent entries consistent entry member
    -- What is kept of the entries stands at the end, and there is room for all of it.
    rw [putAll_eq, List.rtake, List.length_append, List.drop_append_of_le_length (by omega)]
    exact List.mem_append_right _ last

end Log

namespace Intake

variable (html : Html)

/-- A document that comes again, behind what was stored of the first time, is silent exactly if it
has no more identities than are stored and the stories of each of them agree. -/
theorem parseBy_again_silent_iff (seen : Checksum) (document : RawDocument) :
    ∃ first between stored again last,
      parseBy html ⟨seen, false⟩ document = (.ok first, between) ∧
      Checksum.load (between.seen.dump Checksum.usualLimit) = .ok stored ∧
      parseBy html ⟨stored, false⟩ document = (.ok again, last) ∧
      (again.stories = [] ↔
        (document.stories.map (·.sighting.1)).dedup.length ≤ 300 ∧
        ∀ a ∈ document.stories, ∀ b ∈ document.stories,
          a.sighting.1 = b.sighting.1 → a.sighting.2 = b.sighting.2) := by
  let entries : Log := document.stories.map RawStory.sighting
  obtain ⟨stored, loaded, latest⟩ := (seen.record entries).exists_load_dump Checksum.usualLimit
  refine ⟨_, _, stored, _, _, parseBy_unchecked html seen document, loaded,
    parseBy_unchecked html stored document, ?_⟩
  have silent : (stored.news document.stories).map (·.normalizeBy html
      (document.feed.normalizeBy html).url) = [] ↔
      entries ⊆ (Log.putAll seen.toList entries).rtake Checksum.usualLimit := by
    rw [List.map_eq_nil_iff, Checksum.news_eq_nil_iff, ← Checksum.toList_record, ← latest]
    simp only [entries, List.subset_def, List.forall_mem_map, Checksum.mem_toList_iff]
  have distinct : (Log.putAll seen.toList entries).Distinct := by
    rw [← Checksum.toList_record]
    exact Checksum.toList_distinct _
  have stored := Log.subset_rtake_putAll_iff seen.toList entries Checksum.usualLimit distinct
  have idents : entries.map (·.1) = document.stories.map (·.sighting.1) := List.map_map
  have consistent : entries.Consistent ↔ ∀ a ∈ document.stories, ∀ b ∈ document.stories,
      a.sighting.1 = b.sighting.1 → a.sighting.2 = b.sighting.2 := by
    simp only [Log.Consistent, entries, List.forall_mem_map]
  rw [resultBy, silent, stored, idents, consistent]
  rfl

end Intake

end FeedIntake
