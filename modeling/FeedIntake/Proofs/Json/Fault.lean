import FeedIntake.Json.Reader
import FeedIntake.Json.Writer
import FeedIntake.Proofs.Utf8.Valid

/-!
JSON of well-formed text. Main statements: a value is written exactly if all of its keys and strings
are well-formed, an object exactly if its members are, in whatever order they come; and every value
that is read can be written.
-/
namespace FeedIntake

theorem Utf8.faultFrom_eq_none_iff (state : State) (index : Nat) (last : UInt8) (s : Bytes) :
    faultFrom state index last s = none ↔ state.run s = some .start := by
  induction s generalizing state index last with
  | nil => simp [faultFrom, State.run]
  | cons b s ih =>
    rw [faultFrom, State.run]
    cases state.step b with
    | none => simp
    | some next => exact ih next _ _

theorem Utf8.fault?_eq_none_iff (s : Bytes) : fault? s = none ↔ isValid s = true := by
  rw [fault?, faultFrom_eq_none_iff, isValid_iff]

namespace Json

/-- A value of well-formed text. -/
def IsText (value : Json) : Prop := value.fault? = none

def MemberIsText (member : Bytes × Json) : Prop :=
  Utf8.isValid member.1 = true ∧ member.2.IsText

@[simp] theorem isText_string_iff (s : Bytes) : (string s).IsText ↔ Utf8.isValid s = true :=
  Utf8.fault?_eq_none_iff s

@[simp] theorem isText_ofOption_iff (s : Option Bytes) :
    (ofOption s).IsText ↔ ∀ t ∈ s, Utf8.isValid t = true := by
  cases s with
  | none => simp [ofOption, IsText, fault?]
  | some s => simp [ofOption]

@[simp] theorem isText_bool (value : Bool) : (bool value).IsText := rfl

@[simp] theorem isText_array_iff (items : List Json) :
    (array items).IsText ↔ ∀ item ∈ items, item.IsText := by
  rw [IsText, fault?]
  induction items with
  | nil => simp [itemsFault?]
  | cons item items ih => simp [itemsFault?, ih, IsText]

@[simp] theorem isText_object_iff (members : List (Bytes × Json)) :
    (object members).IsText ↔ ∀ member ∈ members, MemberIsText member := by
  rw [IsText, fault?]
  induction members with
  | nil => simp [membersFault?]
  | cons member members ih =>
    obtain ⟨key, value⟩ := member
    simp [membersFault?, ih, MemberIsText, IsText, Utf8.fault?_eq_none_iff, and_assoc]

theorem mem_insertMember (key : Bytes) (value : Json) (sorted : List (Bytes × Json)) :
    ∀ member ∈ insertMember key value sorted, member = (key, value) ∨ member ∈ sorted := by
  induction sorted with
  | nil => simp [insertMember]
  | cons first sorted ih =>
    intro member inside
    rw [insertMember] at inside
    split at inside
    · grind
    · split at inside
      · grind
      · grind

/-- A new key only adds a member. -/
theorem insertMember_perm (key : Bytes) (value : Json) (sorted : List (Bytes × Json))
    (fresh : ∀ member ∈ sorted, member.1 ≠ key) :
    (insertMember key value sorted).Perm ((key, value) :: sorted) := by
  induction sorted with
  | nil => exact .refl _
  | cons first sorted ih =>
    obtain ⟨other, others⟩ := List.forall_mem_cons.1 fresh
    have different : (key == first.1) = false := by simpa using other.symm
    rw [insertMember, different]
    simp only [Bool.false_eq_true, ↓reduceIte]
    split
    · exact .refl _
    · exact ((ih others).cons first).trans (.swap _ _ _)

/-- The members that an object is made of, if their keys differ. -/
theorem perm_ofMembers (members : List (Bytes × Json)) (keys : (members.map (·.1)).Nodup) :
    ∃ sorted, ofMembers members = object sorted ∧ sorted.Perm members := by
  have front : ∀ sorted : List (Bytes × Json), ((members ++ sorted).map (·.1)).Nodup →
      (members.foldl (fun sorted member => insertMember member.1 member.2 sorted) sorted).Perm
        (members ++ sorted) := by
    clear keys
    induction members with
    | nil => exact fun sorted _ => .refl _
    | cons member members ih =>
      intro sorted keys
      rw [List.cons_append, List.map_cons, List.nodup_cons] at keys
      have added := insertMember_perm member.1 member.2 sorted fun other inside same => by
        refine keys.1 (List.mem_map.2 ⟨other, List.mem_append_right _ inside, same⟩)
      have same := (added.append_left members).trans List.perm_middle
      have later := ih (insertMember member.1 member.2 sorted) <| by
        rw [(same.map (·.1)).nodup_iff, List.map_cons, List.nodup_cons]
        exact keys
      exact later.trans same
  refine ⟨_, rfl, ?_⟩
  simpa using front [] (by simpa using keys)

theorem isText_ofMembers_iff (members : List (Bytes × Json)) (keys : (members.map (·.1)).Nodup) :
    (ofMembers members).IsText ↔ ∀ member ∈ members, MemberIsText member := by
  obtain ⟨sorted, made, same⟩ := perm_ofMembers members keys
  rw [made, isText_object_iff]
  exact forall_congr' fun member => imp_congr_left same.mem_iff

/-- Of members with one key the last one counts, so nothing else comes in. -/
theorem isText_ofMembers (members : List (Bytes × Json))
    (whole : ∀ member ∈ members, MemberIsText member) : (ofMembers members).IsText := by
  have front : ∀ sorted : List (Bytes × Json), (∀ member ∈ sorted, MemberIsText member) →
      ∀ member ∈ members.foldl (fun sorted member => insertMember member.1 member.2 sorted) sorted,
        MemberIsText member := by
    induction members with
    | nil => exact fun _ whole => whole
    | cons first members ih =>
      obtain ⟨one, others⟩ := List.forall_mem_cons.1 whole
      intro sorted before
      refine ih others _ fun member inside => ?_
      rcases mem_insertMember first.1 first.2 sorted member inside with rfl | known
      · exact one
      · exact before member known
  exact (isText_object_iff _).2 (front [] nofun)

/-- The text of a value is delivered exactly if the value is one of well-formed text. -/
theorem exists_renderStrict_iff (layout : Layout) (value : Json) :
    (∃ text, value.renderStrict layout = .ok text) ↔ value.IsText := by
  rw [renderStrict, IsText]
  cases value.fault? <;> simp

end Json

end FeedIntake
