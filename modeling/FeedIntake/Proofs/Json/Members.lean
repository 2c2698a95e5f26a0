import FeedIntake.Proofs.Json.Fault

/-!
The members of objects. Main statements: an object that is made of members has the last one of each
key, in the order of the keys; and a list in that order is what an object made of it holds.
-/
namespace FeedIntake

namespace Bytes

theorem lt_iff (s t : Bytes) : lt s t = true ↔ s < t := by
  induction s generalizing t with
  | nil => cases t <;> simp [lt]
  | cons a s ih =>
    cases t with
    | nil => simp [lt]
    | cons b t => simp [lt, ih, List.cons_lt_cons_iff]

theorem lt_of_not_lt (s t : Bytes) (other : s ≠ t) (after : ¬ s < t) : t < s := by
  induction s generalizing t with
  | nil => cases t <;> simp_all
  | cons a s ih =>
    cases t with
    | nil => simp
    | cons b t =>
      rw [List.cons_lt_cons_iff, not_or, UInt8.not_lt] at after
      rw [List.cons_lt_cons_iff]
      by_cases same : b = a
      · subst same
        refine .inr ⟨rfl, ih t (fun equal => other (congrArg _ equal)) fun less => ?_⟩
        exact after.2 ⟨rfl, less⟩
      · exact .inl (UInt8.lt_of_le_of_ne after.1 same)

end Bytes

namespace Json

/-- The keys stand in the order of their bytes, so each stands there once. -/
def Ascend {Value : Type} (members : List (Bytes × Value)) : Prop :=
  members.Pairwise fun first later => first.1 < later.1

theorem lookup_eq_some_iff_mem {Value : Type} (key : Bytes) (value : Value)
    (members : List (Bytes × Value)) (ascend : Ascend members) :
    members.lookup key = some value ↔ (key, value) ∈ members := by
  induction members with
  | nil => simp
  | cons first members ih =>
    obtain ⟨before, others⟩ := List.pairwise_cons.1 ascend
    rw [List.lookup_cons, List.mem_cons]
    split
    · next same =>
      obtain rfl := eq_of_beq same
      refine ⟨fun found => .inl (Prod.ext rfl (Option.some.inj found).symm), ?_⟩
      rintro (here | later)
      · rw [← here]
      · exact absurd (before _ later) (List.lt_irrefl _)
    · next other =>
      rw [ih others]
      refine ⟨.inr, ?_⟩
      rintro (here | later)
      · simp [← here] at other
      · exact later

theorem lookup_insertMember (key name : Bytes) (value : Json) (sorted : List (Bytes × Json)) :
    (insertMember key value sorted).lookup name =
      if name = key then some value else sorted.lookup name := by
  induction sorted with
  | nil => grind [insertMember]
  | cons first sorted ih =>
    rw [insertMember]
    grind

theorem ascend_insertMember (key : Bytes) (value : Json) (sorted : List (Bytes × Json))
    (ascend : Ascend sorted) : Ascend (insertMember key value sorted) := by
  induction sorted with
  | nil => exact List.pairwise_singleton _ _
  | cons first sorted ih =>
    obtain ⟨before, others⟩ := List.pairwise_cons.1 ascend
    rw [insertMember]
    split
    · next same =>
      exact List.pairwise_cons.2 ⟨by simpa [eq_of_beq same] using before, others⟩
    · next other =>
      split
      · next less =>
        have less := (Bytes.lt_iff _ _).1 less
        refine List.pairwise_cons.2 ⟨fun member inside => ?_, ascend⟩
        rcases List.mem_cons.1 inside with rfl | later
        · exact less
        · exact List.lt_trans less (before member later)
      · next after =>
        have more := Bytes.lt_of_not_lt key first.1 (by simpa using other)
          (mt (Bytes.lt_iff _ _).2 after)
        refine List.pairwise_cons.2 ⟨fun member inside => ?_, ih others⟩
        rcases mem_insertMember key value sorted member inside with rfl | known
        · exact more
        · exact before member known

/-- Of several members with one key the last one counts, and the keys are put in order. -/
theorem exists_ofMembers (members : List (Bytes × Json)) :
    ∃ sorted, ofMembers members = object sorted ∧ Ascend sorted ∧
      ∀ name, sorted.lookup name = members.reverse.lookup name := by
  have front : ∀ sorted, Ascend sorted →
      Ascend (members.foldl (fun sorted member => insertMember member.1 member.2 sorted) sorted) ∧
      ∀ name, (members.foldl (fun sorted member => insertMember member.1 member.2 sorted)
        sorted).lookup name = (members.reverse ++ sorted).lookup name := by
    induction members with
    | nil => exact fun sorted ascend => ⟨ascend, fun _ => rfl⟩
    | cons member members ih =>
      intro sorted ascend
      obtain ⟨ordered, found⟩ := ih _ (ascend_insertMember member.1 member.2 sorted ascend)
      refine ⟨ordered, fun name => ?_⟩
      rw [List.foldl_cons, found name, List.reverse_cons, List.append_assoc, List.lookup_append,
        List.lookup_append, lookup_insertMember, List.singleton_append, List.lookup_cons]
      grind
  obtain ⟨ascend, found⟩ := front [] .nil
  exact ⟨_, rfl, ascend, fun name => by rw [found name, List.append_nil]⟩

theorem member?_ofMembers (name : Bytes) (members : List (Bytes × Json)) :
    (ofMembers members).member? name = members.reverse.lookup name := by
  obtain ⟨sorted, made, -, found⟩ := exists_ofMembers members
  rw [made, member?, found]

theorem insertMember_of_last (key : Bytes) (value : Json) (sorted : List (Bytes × Json))
    (last : ∀ member ∈ sorted, member.1 < key) :
    insertMember key value sorted = sorted ++ [(key, value)] := by
  induction sorted with
  | nil => rfl
  | cons first sorted ih =>
    obtain ⟨before, others⟩ := List.forall_mem_cons.1 last
    have other : (key == first.1) = false := by
      simpa using fun same => List.lt_irrefl _ (same ▸ before)
    have after : Bytes.lt key first.1 = false := by
      simpa using mt (Bytes.lt_iff _ _).1 (List.lt_asymm before)
    rw [insertMember, other, after, ih others]
    rfl

/-- Members that are in order already are kept as they are. -/
theorem ofMembers_of_ascend (members : List (Bytes × Json)) (ascend : Ascend members) :
    ofMembers members = object members := by
  have behind : ∀ sorted, Ascend (sorted ++ members) →
      members.foldl (fun sorted member => insertMember member.1 member.2 sorted) sorted =
        sorted ++ members := by
    clear ascend
    induction members with
    | nil => simp
    | cons member members ih =>
      intro sorted ascend
      have last : ∀ other ∈ sorted, other.1 < member.1 := fun other inside =>
        (List.pairwise_append.1 ascend).2.2 other inside member List.mem_cons_self
      rw [List.foldl_cons, insertMember_of_last _ _ _ last]
      simpa using ih (sorted ++ [member]) (by simpa using ascend)
  exact congrArg object (behind [] ascend)

end Json

end FeedIntake
