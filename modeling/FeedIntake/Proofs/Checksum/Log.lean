import Mathlib.Data.List.Dedup
import Mathlib.Data.List.DropRight
import FeedIntake.Checksum.Lemmas

/-!
Checksums as they are meant: a log of identities with the content last seen of each, the oldest
first. To record a sighting drops the entry of its identity and puts the new one at the end. Main
statements: a log in which entries are put one after the other keeps the last entry of each
identity, and the list view of a checksum is such a log.
-/
namespace FeedIntake

/-- Identities and contents, the oldest first. -/
abbrev Log := List (Digest × Digest)

namespace Log

/-- The entry of an identity is dropped, if there is one, and the new one is put at the end. -/
def put (log : Log) (entry : Digest × Digest) : Log := log.filter (·.1 != entry.1) ++ [entry]

def putAll (log entries : Log) : Log := entries.foldl put log

/-- No two entries have one identity. -/
def Distinct (log : Log) : Prop := (log.map (·.1)).Nodup

instance (log : Log) : Decidable log.Distinct := inferInstanceAs (Decidable (List.Nodup _))

/-- Without the entries whose identity comes again behind them. -/
def onlyLast : Log → Log
  | [] => []
  | entry :: rest =>
    if entry.1 ∈ rest.map (·.1) then onlyLast rest else entry :: onlyLast rest

theorem distinct_cons (entry : Digest × Digest) (log : Log) :
    Distinct (entry :: log) ↔ entry.1 ∉ log.map (·.1) ∧ Distinct log := List.nodup_cons

/-- In a log without repeated identities an entry is found exactly under its identity. -/
theorem lookup_eq_some_iff (log : Log) (distinct : log.Distinct) (ident content : Digest) :
    log.lookup ident = some content ↔ (ident, content) ∈ log := by
  induction log with
  | nil => simp
  | cons entry rest ih =>
    obtain ⟨other, kept⟩ := entry
    obtain ⟨fresh, later⟩ := (distinct_cons _ _).1 distinct
    by_cases same : ident = other
    · subst same
      have absent : (ident, content) ∉ rest := fun member =>
        fresh (List.mem_map.2 ⟨_, member, rfl⟩)
      simp [absent, eq_comm]
    · have apart : (ident == other) = false := beq_false_of_ne same
      simp [List.lookup_cons, apart, same, ih later]

/-- What was there stays unless its identity is put again, and of the new entries the last of each
identity stays. -/
theorem putAll_eq (log entries : Log) :
    putAll log entries =
      log.filter (fun old => !(entries.map (·.1)).contains old.1) ++ onlyLast entries := by
  induction entries generalizing log with
  | nil => simp [putAll, onlyLast]
  | cons entry rest ih =>
    have step : putAll log (entry :: rest) = putAll (log.put entry) rest := rfl
    have kept : (log.filter (·.1 != entry.1)).filter
        (fun old => !(rest.map (·.1)).contains old.1) =
        log.filter (fun old => !((entry :: rest).map (·.1)).contains old.1) := by
      rw [List.filter_filter]
      refine List.filter_congr fun old _ => ?_
      rw [List.map_cons, List.contains_cons, Bool.not_or, Bool.and_comm]
      rfl
    rw [step, ih, put, List.filter_append, kept, List.append_assoc]
    by_cases again : entry.1 ∈ rest.map (·.1)
    · have found := List.contains_iff_mem.2 again
      rw [onlyLast, if_pos again, List.filter_cons_of_neg (by rw [found]; decide)]
      rfl
    · have missing : (rest.map (·.1)).contains entry.1 = false :=
        Bool.eq_false_iff.2 fun found => again (List.contains_iff_mem.1 found)
      rw [onlyLast, if_neg again, List.filter_cons_of_pos (by rw [missing]; decide)]
      rfl

/-- A log in which entries are put keeps the last entry of each identity. -/
theorem putAll_nil (entries : Log) : putAll [] entries = onlyLast entries := by
  rw [putAll_eq, List.filter_nil, List.nil_append]

theorem onlyLast_sublist (entries : Log) : (onlyLast entries).Sublist entries := by
  induction entries with
  | nil => exact .refl _
  | cons entry rest ih =>
    rw [onlyLast]
    split
    · exact ih.cons entry
    · exact ih.cons_cons entry

theorem onlyLast_of_distinct (entries : Log) (distinct : entries.Distinct) :
    onlyLast entries = entries := by
  induction entries with
  | nil => rfl
  | cons entry rest ih =>
    obtain ⟨fresh, later⟩ := (distinct_cons _ _).1 distinct
    rw [onlyLast, if_neg fresh, ih later]

/-- Nothing has to be dropped exactly if no identity is repeated. -/
theorem onlyLast_eq_self_iff (entries : Log) : onlyLast entries = entries ↔ entries.Distinct := by
  refine ⟨fun whole => ?_, onlyLast_of_distinct entries⟩
  induction entries with
  | nil => exact List.nodup_nil
  | cons entry rest ih =>
    rw [onlyLast] at whole
    split at whole
    · have short := (onlyLast_sublist rest).length_le
      rw [whole, List.length_cons] at short
      omega
    · next fresh => exact (distinct_cons _ _).2 ⟨fresh, ih (List.cons.inj whole).2⟩

/-- Each identity is kept once, where it comes last. -/
theorem map_fst_onlyLast (entries : Log) :
    (onlyLast entries).map (·.1) = (entries.map (·.1)).dedup := by
  induction entries with
  | nil => rfl
  | cons entry rest ih =>
    rw [onlyLast, List.map_cons]
    split
    · next again => rw [List.dedup_cons_of_mem again, ih]
    · next fresh => rw [List.dedup_cons_of_notMem fresh, List.map_cons, ih]

/-- Putting entries changes nothing exactly if what is kept of them stands at the end already. -/
theorem putAll_eq_self_iff (log entries : Log) (distinct : log.Distinct) :
    putAll log entries = log ↔ onlyLast entries <:+ log := by
  rw [putAll_eq]
  constructor
  · intro same
    exact ⟨_, same⟩
  · -- What stands in front of the kept entries has other identities, so that it stays.
    rintro ⟨older, rfl⟩
    have same : ∀ ident, ident ∈ (onlyLast entries).map (·.1) ↔ ident ∈ entries.map (·.1) := by
      intro ident
      rw [map_fst_onlyLast, List.mem_dedup]
    rw [Distinct, List.map_append] at distinct
    have apart := (List.nodup_append'.1 distinct).2.2
    have kept : older.filter (fun old => !(entries.map (·.1)).contains old.1) = older := by
      refine List.filter_eq_self.2 fun old member => ?_
      have absent : old.1 ∉ entries.map (·.1) := fun again =>
        apart (List.mem_map_of_mem member) ((same _).2 again)
      simpa using absent
    have dropped : (onlyLast entries).filter
        (fun old => !(entries.map (·.1)).contains old.1) = [] := by
      refine List.filter_eq_nil_iff.2 fun old member => ?_
      have again := (same _).1 (List.mem_map_of_mem member)
      simpa using again
    rw [List.filter_append, kept, dropped, List.append_nil]

end Log

namespace Checksum

variable (checksum : Checksum)

theorem toList_distinct : Log.Distinct checksum.toList := checksum.nodup_idents

theorem toList_put_log (entry : Digest × Digest) :
    (checksum.put entry.1 entry.2).toList = Log.put checksum.toList entry :=
  checksum.toList_put entry.1 entry.2

theorem toList_record (entries : Log) :
    (checksum.record entries).toList = Log.putAll checksum.toList entries := by
  induction entries generalizing checksum with
  | nil => rfl
  | cons entry rest ih =>
    have step := ih (checksum.put entry.1 entry.2)
    rw [toList_put_log] at step
    exact step

/-- What was last seen of a story is what the list view holds of it. -/
theorem lookup_toList (ident : Digest) : checksum.toList.lookup ident = checksum.seen? ident := by
  refine Option.ext fun content => ?_
  rw [Log.lookup_eq_some_iff _ checksum.toList_distinct, mem_toList_iff]

end Checksum

end FeedIntake
