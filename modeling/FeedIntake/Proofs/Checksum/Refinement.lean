import Mathlib.Data.List.Perm.Subperm
import Mathlib.Logic.Function.Basic
import FeedIntake.Proofs.Checksum.Codec

/-!
Checksums under any use. A run updates, copies, counts, stores and loads checksums under names, and
sees what each operation answers. Main statement: the same run over logs sees the same, and the list
views of the checksums stay the logs. The clocks never pass the number of sightings of the run, so
that a clock of 64 bits does not come round in a run of fewer.
-/
namespace FeedIntake

/-- What can be done with something that records sightings. -/
structure Recorder (State : Type) where
  empty : State
  update : State → Bytes → Bytes → Bool × State
  size : State → Nat
  dump : State → Nat → Bytes
  load : Bytes → Except ChecksumError State

/-- One use of the states that stand under some names. -/
inductive Operation (Name : Type) where
  | update (name : Name) (ident content : Bytes)
  | copy (source target : Name)
  | size (name : Name)
  | dump (name : Name) (limit : Nat)
  | load (name : Name) (blob : Bytes)
  /-- What is stored of a state is loaded in its place. -/
  | reload (name : Name) (limit : Nat)

inductive Observation where
  | changed (answer : Bool)
  | copied
  | counted (size : Nat)
  | stored (blob : Bytes)
  | loaded
  | refused (cause : ChecksumError)
  deriving DecidableEq

namespace Recorder

variable {Name State View : Type} [DecidableEq Name]

/-- A state is loaded under a name. What was there stays if nothing can be loaded. -/
def loadAt (recorder : Recorder State) (states : Name → State) (name : Name) (blob : Bytes) :
    Observation × (Name → State) :=
  match recorder.load blob with
  | .ok state => (.loaded, Function.update states name state)
  | .error cause => (.refused cause, states)

def step (recorder : Recorder State) (states : Name → State) :
    Operation Name → Observation × (Name → State)
  | .update name ident content =>
    let (answer, state) := recorder.update (states name) ident content
    (.changed answer, Function.update states name state)
  | .copy source target => (.copied, Function.update states target (states source))
  | .size name => (.counted (recorder.size (states name)), states)
  | .dump name limit => (.stored (recorder.dump (states name) limit), states)
  | .load name blob => recorder.loadAt states name blob
  | .reload name limit => recorder.loadAt states name (recorder.dump (states name) limit)

/-- Everything that is seen in a run, and the states behind it. -/
def run (recorder : Recorder State) :
    List (Operation Name) → (Name → State) → List Observation × (Name → State)
  | [], states => ([], states)
  | operation :: rest, states =>
    let (seen, next) := recorder.step states operation
    let (later, last) := recorder.run rest next
    (seen :: later, last)

/-- Whatever one recorder does with a state, the other does with the view of it. -/
structure Simulates (concrete : Recorder State) (abstract : Recorder View)
    (view : State → View) : Prop where
  empty : abstract.empty = view concrete.empty
  update : ∀ state ident content, abstract.update (view state) ident content =
    ((concrete.update state ident content).1, view (concrete.update state ident content).2)
  size : ∀ state, abstract.size (view state) = concrete.size state
  dump : ∀ state limit, abstract.dump (view state) limit = concrete.dump state limit
  load : ∀ blob, abstract.load blob = (concrete.load blob).map view

namespace Simulates

variable {concrete : Recorder State} {abstract : Recorder View} {view : State → View}

theorem loadAt_eq (simulates : Simulates concrete abstract view) (states : Name → State)
    (name : Name) (blob : Bytes) :
    abstract.loadAt (view ∘ states) name blob =
      ((concrete.loadAt states name blob).1, view ∘ (concrete.loadAt states name blob).2) := by
  rw [Recorder.loadAt, Recorder.loadAt, simulates.load]
  cases concrete.load blob with
  | ok state => simp [Except.map, Function.comp_update]
  | error cause => simp [Except.map]

theorem step_eq (simulates : Simulates concrete abstract view) (states : Name → State)
    (operation : Operation Name) :
    abstract.step (view ∘ states) operation =
      ((concrete.step states operation).1, view ∘ (concrete.step states operation).2) := by
  cases operation with
  | update name ident content =>
    simp [step, simulates.update, Function.comp_update]
  | copy source target => simp [step, Function.comp_update]
  | size name => simp [step, simulates.size]
  | dump name limit => simp [step, simulates.dump]
  | load name blob => exact simulates.loadAt_eq states name blob
  | reload name limit =>
    have stored := simulates.dump (states name) limit
    simp only [step, Function.comp_apply, stored]
    exact simulates.loadAt_eq states name _

/-- A run over the views sees what the run over the states sees, and ends in the views. -/
theorem run_eq (simulates : Simulates concrete abstract view) (operations : List (Operation Name))
    (states : Name → State) :
    abstract.run operations (view ∘ states) =
      ((concrete.run operations states).1, view ∘ (concrete.run operations states).2) := by
  induction operations generalizing states with
  | nil => rfl
  | cons operation rest ih =>
    have first := simulates.step_eq states operation
    have later := ih (concrete.step states operation).2
    simp only [run, first, later]

end Simulates

end Recorder

namespace Log

/-- True if nothing or something else was seen under the identity. -/
def update (log : Log) (ident content : Bytes) : Bool × Log :=
  let entry := (Digest.ofText ident, Digest.ofText content)
  (log.lookup entry.1 != some entry.2, log.put entry)

/-- The version, and the last entries in their order. -/
def dump (log : Log) (limit : Nat) : Bytes :=
  1 :: (log.rtake limit).flatMap fun entry => Digest.toBytes entry.1 ++ Digest.toBytes entry.2

/-- The pairs of digests that stand in a text one after the other. -/
def pairs (body : Bytes) : Log :=
  (List.range (body.length / 16)).map fun i =>
    (Digest.ofBytes ((body.drop (16 * i)).take 8), Digest.ofBytes ((body.drop (16 * i + 8)).take 8))

/-- The pairs behind the version are put one after the other. -/
def load : Bytes → Except ChecksumError Log
  | [] => .error .empty
  | format :: body =>
    if format ≠ 1 then .error (.unsupportedVersion format)
    else if body.length % 16 ≠ 0 then .error (.truncated (body.length + 1))
    else .ok (putAll [] (pairs body))

def recorder : Recorder Log where
  empty := []
  update := update
  size := List.length
  dump := dump
  load := load

end Log

namespace Checksum

def recorder : Recorder Checksum where
  empty := empty
  update := update
  size := size
  dump := dump
  load := load

theorem decodeEntries_eq_map (count : Nat) (s : Bytes) :
    decodeEntries count s = (List.range count).map fun i =>
      (Digest.ofBytes ((s.drop (16 * i)).take 8),
        Digest.ofBytes ((s.drop (16 * i + 8)).take 8)) := by
  induction count generalizing s with
  | zero => rfl
  | succ count ih =>
    have offset : ∀ i, entryWidth + 16 * i = 16 * (i + 1) := by
      intro i
      simp only [entryWidth, Digest.width]
      omega
    have offset' : ∀ i, entryWidth + (16 * i + 8) = 16 * (i + 1) + 8 := by
      intro i
      simp only [entryWidth, Digest.width]
      omega
    rw [decodeEntries, ih, List.range_succ_eq_map, List.map_cons, List.map_map]
    simp only [List.drop_drop, offset, offset']
    rfl

/-- What is stored of a log is the version, and then pairs that read as its last entries. -/
theorem exists_dump_log (log : Log) (limit : Nat) :
    ∃ body, Log.dump log limit = 1 :: body ∧ Log.pairs body = log.rtake limit := by
  refine ⟨(log.rtake limit).flatMap encodeEntry, rfl, ?_⟩
  have count : ((log.rtake limit).flatMap encodeEntry).length / 16 = (log.rtake limit).length := by
    rw [length_flatMap_encodeEntry]
    exact Nat.mul_div_cancel_left _ (by decide)
  rw [Log.pairs, ← decodeEntries_eq_map, count, decodeEntries_flatMap]

theorem load_toList (blob : Bytes) : Log.load blob = (load blob).map toList := by
  cases blob with
  | nil => rfl
  | cons format entries =>
    by_cases supported : format = 1
    · subst supported
      by_cases whole : entries.length % 16 = 0
      · have replayed : (empty.record (decodeEntries (entries.length / 16) entries)).toList =
            Log.putAll [] (Log.pairs entries) := by
          rw [toList_record, decodeEntries_eq_map]
          rfl
        simpa [Log.load, load, whole, version, entryWidth, Digest.width, Except.map]
          using replayed.symm
      · simp [Log.load, load, whole, version, entryWidth, Digest.width, Except.map]
    · simp [Log.load, load, supported, version, Except.map]

theorem simulates_log : Recorder.Simulates recorder Log.recorder toList where
  empty := toList_empty.symm
  update checksum ident content := by
    have found := checksum.lookup_toList (Digest.ofText ident)
    have kept := checksum.toList_put_log (Digest.ofText ident, Digest.ofText content)
    simp only [Log.recorder, Log.update, recorder, update, found, kept]
  size checksum := checksum.length_toList
  dump _ _ := rfl
  load := load_toList

theorem clock_record (checksum : Checksum) (entries : Log) :
    (checksum.record entries).clock = checksum.clock + entries.length := by
  induction entries generalizing checksum with
  | nil => rfl
  | cons entry rest ih =>
    have step := ih (checksum.put entry.1 entry.2)
    have ticked : (checksum.put entry.1 entry.2).clock = checksum.clock + 1 := rfl
    rw [ticked] at step
    rw [List.length_cons, Nat.add_comm rest.length, ← Nat.add_assoc]
    exact step

/-- There are as many stamps below the clock as there are entries. -/
theorem size_le_clock (checksum : Checksum) : checksum.size ≤ checksum.clock := by
  have distinct : (checksum.sightings.toList.map (·.2.stamp)).Nodup :=
    List.pairwise_map.2 checksum.stamps_distinct
  have below : checksum.sightings.toList.map (·.2.stamp) ⊆ List.range checksum.clock := by
    intro stamp member
    obtain ⟨entry, found, rfl⟩ := List.mem_map.1 member
    exact List.mem_range.2 (checksum.stamp_lt _ _ (checksum.getElem?_of_mem entry found))
  have count := (distinct.subperm below).length_le
  rw [List.length_map, List.length_range, Std.TreeMap.length_toList] at count
  exact count

theorem count_blobOf (entries : Log) : ((blobOf entries).length - 1) / 16 = entries.length := by
  have length : (blobOf entries).length - 1 = 16 * entries.length :=
    length_flatMap_encodeEntry entries
  rw [length, Nat.mul_div_cancel_left _ (by decide)]

theorem clock_of_load (blob : Bytes) (checksum : Checksum) (loaded : load blob = .ok checksum) :
    checksum.clock = (blob.length - 1) / 16 := by
  obtain ⟨entries, rfl, rfl⟩ := (load_eq_ok_iff blob checksum).1 loaded
  have start : empty.clock = 0 := rfl
  rw [clock_record, start, count_blobOf, Nat.zero_add]

end Checksum

namespace Operation

variable {Name : Type}

/-- How many sightings an operation brings in. -/
def sightings : Operation Name → Nat
  | .update _ _ _ => 1
  | .load _ blob => (blob.length - 1) / 16
  | _ => 0

def totalSightings : List (Operation Name) → Nat
  | [] => 0
  | operation :: rest => operation.sightings + totalSightings rest

end Operation

namespace Checksum

open Recorder

variable {Name : Type} [DecidableEq Name]

theorem loadAt_clock_le (states : Name → Checksum) (loading : Name) (blob : Bytes) (bound : Nat)
    (before : ∀ name, (states name).clock ≤ bound) (short : (blob.length - 1) / 16 ≤ bound)
    (name : Name) : ((recorder.loadAt states loading blob).2 name).clock ≤ bound := by
  have read : recorder.load blob = load blob := rfl
  rw [loadAt, read]
  cases loaded : load blob with
  | error cause => exact before name
  | ok checksum =>
    have clock := clock_of_load blob checksum loaded
    by_cases here : name = loading
    · simp [here, clock, short]
    · simp [here, before name]

theorem step_clock_le (states : Name → Checksum) (operation : Operation Name) (bound : Nat)
    (before : ∀ name, (states name).clock ≤ bound) (name : Name) :
    ((recorder.step states operation).2 name).clock ≤ bound + operation.sightings := by
  cases operation with
  | update changing ident content =>
    by_cases here : name = changing
    · have ticked : (update (states changing) ident content).2.clock =
          (states changing).clock + 1 := rfl
      have start := before changing
      simp only [step, recorder, here, Function.update_self, ticked, Operation.sightings]
      omega
    · have same := before name
      simp only [step, Function.update_of_ne here, Operation.sightings]
      omega
  | copy source target =>
    by_cases here : name = target
    · simp [step, here, before source, Operation.sightings]
    · simp [step, here, before name, Operation.sightings]
  | size | dump => exact before name
  | load loading blob =>
    refine loadAt_clock_le states loading blob _ (fun other => ?_) ?_ name
    · exact Nat.le_add_right_of_le (before other)
    · exact Nat.le_add_left _ _
  | reload loading limit =>
    refine loadAt_clock_le states loading _ _ before ?_ name
    -- A dump has no more entries than its checksum, whose size is below its clock.
    have stored : recorder.dump (states loading) limit =
        blobOf ((states loading).toList.rtake limit) := rfl
    have part : ((states loading).toList.rtake limit).length ≤ (states loading).toList.length :=
      (List.drop_sublist _ _).length_le
    have size := (states loading).length_toList
    have clock := (states loading).size_le_clock
    have start := before loading
    rw [stored, count_blobOf]
    omega

theorem run_clock_le (operations : List (Operation Name)) (states : Name → Checksum) (bound : Nat)
    (before : ∀ name, (states name).clock ≤ bound) (name : Name) :
    ((recorder.run operations states).2 name).clock ≤
      bound + Operation.totalSightings operations := by
  induction operations generalizing states bound with
  | nil => exact before name
  | cons operation rest ih =>
    have next := step_clock_le states operation bound before
    have last := ih (recorder.step states operation).2 (bound + operation.sightings) next
    rw [Operation.totalSightings, ← Nat.add_assoc]
    exact last

/-- Every run over checksums that start empty sees what the run over logs sees, and ends with the
logs as list views; no identity is ever repeated in them. -/
theorem run_refines_log (operations : List (Operation Name)) :
    (recorder.run operations fun _ => empty).1 = (Log.recorder.run operations fun _ => []).1 ∧
    ∀ name : Name,
      ((recorder.run operations fun _ => empty).2 name).toList =
        (Log.recorder.run operations fun _ => []).2 name ∧
      ((Log.recorder.run operations fun _ => []).2 name).Distinct ∧
      ((recorder.run operations fun _ => empty).2 name).clock ≤
        Operation.totalSightings operations := by
  have same := simulates_log.run_eq operations fun _ : Name => empty
  have start : toList ∘ (fun _ : Name => empty) = fun _ => [] := rfl
  rw [start] at same
  rw [same]
  refine ⟨rfl, fun name => ⟨rfl, toList_distinct _, ?_⟩⟩
  have bound := run_clock_le operations (fun _ : Name => empty) 0 (fun _ => Nat.le_refl 0) name
  rwa [Nat.zero_add] at bound

end Checksum

end FeedIntake
