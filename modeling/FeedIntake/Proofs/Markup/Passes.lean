import FeedIntake.Markup.Processor

/-!
What the passes over a tree leave. Main statements: in a tree that has been sanitised there is
nothing, at any depth, that a page could execute; a tree is left as it is exactly if there was
nothing in it; and through every library a fragment is cleaned to the written form of such nodes.
Where the links of a tree have been made absolute, it shows the same text, and every anchor that
leads into the web opens a page of its own.
-/
namespace FeedIntake.Markup

mutual

/-- There is nothing active in a node. -/
def Node.IsHarmless : Node → Prop
  | .element _ attributes children =>
    (∀ entry ∈ attributes, entry.isActive = false) ∧ AreHarmless children
  | _ => True

/-- There is nothing active in some nodes, and none of them is to be removed. -/
def AreHarmless : List Node → Prop
  | [] => True
  | node :: rest => node.isDropped = false ∧ node.IsHarmless ∧ AreHarmless rest

end

/-- A node keeps its name. -/
theorem Node.isDropped_sanitize (node : Node) : node.sanitize.isDropped = node.isDropped := by
  cases node <;> rfl

mutual

theorem Node.isHarmless_sanitize : ∀ node : Node, node.sanitize.IsHarmless
  | .element _ attributes children => by
    refine ⟨fun entry member => ?_, areHarmless_sanitizeAll children⟩
    simpa using (List.mem_filter.1 member).2
  | .text _ => trivial
  | .cdata _ => trivial
  | .comment _ => trivial
  | .other => trivial

theorem areHarmless_sanitizeAll : ∀ nodes : List Node, AreHarmless (sanitizeAll nodes)
  | [] => trivial
  | node :: rest => by
    rw [sanitizeAll]
    split
    · exact areHarmless_sanitizeAll rest
    · next kept =>
      refine ⟨?_, Node.isHarmless_sanitize node, areHarmless_sanitizeAll rest⟩
      rw [Node.isDropped_sanitize]
      exact Bool.eq_false_iff.2 kept

end

mutual

theorem Node.sanitize_of_isHarmless : ∀ node : Node, node.IsHarmless → node.sanitize = node
  | .element name attributes children, ⟨inactive, below⟩ => by
    have kept : attributes.filter (!·.isActive) = attributes :=
      List.filter_eq_self.2 fun entry member => by simp [inactive entry member]
    rw [Node.sanitize, kept, sanitizeAll_of_areHarmless children below]
  | .text _, _ => rfl
  | .cdata _, _ => rfl
  | .comment _, _ => rfl
  | .other, _ => rfl

theorem sanitizeAll_of_areHarmless : ∀ nodes : List Node, AreHarmless nodes →
    sanitizeAll nodes = nodes
  | [], _ => rfl
  | node :: rest, ⟨kept, harmless, below⟩ => by
    rw [sanitizeAll, kept, if_neg Bool.false_ne_true, Node.sanitize_of_isHarmless node harmless,
      sanitizeAll_of_areHarmless rest below]

end

/-- Nodes are left as they are exactly if there is nothing active in them. -/
theorem sanitizeAll_eq_self_iff (nodes : List Node) : sanitizeAll nodes = nodes ↔
    AreHarmless nodes :=
  ⟨fun same => same ▸ areHarmless_sanitizeAll nodes, sanitizeAll_of_areHarmless nodes⟩

theorem sanitizeAll_sanitizeAll (nodes : List Node) :
    sanitizeAll (sanitizeAll nodes) = sanitizeAll nodes :=
  sanitizeAll_of_areHarmless _ (areHarmless_sanitizeAll nodes)

theorem areHarmless_append (front back : List Node) :
    AreHarmless (front ++ back) ↔ AreHarmless front ∧ AreHarmless back := by
  induction front with
  | nil => exact (and_iff_right trivial).symm
  | cons node front ih => simp only [List.cons_append, AreHarmless, ih, and_assoc]

/-- What stands in a harmless body is harmless without the wrapping element around it. -/
theorem areHarmless_topLevel (content : List Node) (harmless : AreHarmless content) :
    AreHarmless (topLevel content) := by
  induction content with
  | nil => trivial
  | cons node content ih =>
    obtain ⟨kept, own, behind⟩ := harmless
    rw [topLevel, List.flatMap_cons, areHarmless_append]
    refine ⟨?_, ih behind⟩
    split
    · cases node with
      | element name attributes children => exact own.2
      | _ => trivial
    · exact ⟨kept, own, trivial⟩

/-- Whatever a library reads, only nodes without anything active are written again. -/
theorem Library.exists_clean_eq (library : Library) (fragment : Bytes) :
    ∃ nodes, AreHarmless nodes ∧ library.clean fragment = nodes.flatMap library.write := by
  rw [clean]
  split
  · exact ⟨[], trivial, rfl⟩
  · split
    · exact ⟨[], trivial, rfl⟩
    · next content _ =>
      exact ⟨_, areHarmless_topLevel _ (areHarmless_sanitizeAll content), rfl⟩

namespace Attribute

theorem text?_set_self (name value : Bytes) (attributes : List Attribute) :
    text? name (set name value attributes) = some value := by
  induction attributes with
  | nil => simp [set, text?, text]
  | cons entry rest ih =>
    rw [set]
    split
    · simp [text?, text]
    · next other =>
      rw [text?, List.find?_cons_of_neg (by simpa using other)]
      exact ih

theorem text?_set_of_ne (name value other : Bytes) (attributes : List Attribute)
    (apart : other ≠ name) : text? other (set name value attributes) = text? other attributes := by
  induction attributes with
  | nil => simp [set, text?, apart.symm]
  | cons entry rest ih =>
    rw [set]
    split
    · next same =>
      have missed : entry.name ≠ other := by
        rw [beq_iff_eq.1 same]
        exact apart.symm
      simp [text?, apart.symm, missed]
    · rw [text?, text?, List.find?_cons, List.find?_cons]
      split
      · rfl
      · exact ih

/-- An anchor with these attributes opens a page of its own, which is told nothing. -/
def OpensApart (attributes : List Attribute) : Prop :=
  text? (Bytes.ofString "target") attributes = some (Bytes.ofString "_blank") ∧
    text? (Bytes.ofString "rel") attributes = some (Bytes.ofString "noopener noreferrer")

theorem opensApart_relink (base : Bytes) (attributes : List Attribute)
    (opens : opensWeb (relink base (Bytes.ofString "a") attributes) = true) :
    OpensApart (relink base (Bytes.ofString "a") attributes) := by
  rw [relink, beq_self_eq_true, Bool.true_and] at opens ⊢
  split at opens
  · next web =>
    rw [if_pos web, OpensApart, text?_set_of_ne _ _ _ _ (by decide), text?_set_self,
      text?_set_self]
    exact ⟨rfl, rfl⟩
  · next local' => exact absurd opens local'

end Attribute

mutual

/-- Every anchor in a node that leads into the web opens a page of its own. -/
def Node.OpensApart : Node → Prop
  | .element name attributes children =>
    (name = Bytes.ofString "a" → Attribute.opensWeb attributes = true →
      Attribute.OpensApart attributes) ∧ OpenApart children
  | _ => True

def OpenApart : List Node → Prop
  | [] => True
  | node :: rest => node.OpensApart ∧ OpenApart rest

end

mutual

theorem Node.opensApart_relink (base : Bytes) : ∀ node : Node, (node.relink base).OpensApart
  | .element name attributes children => by
    refine ⟨fun anchor opens => ?_, openApart_relinkAll base children⟩
    rw [anchor] at opens ⊢
    exact Attribute.opensApart_relink base attributes opens
  | .text _ => trivial
  | .cdata _ => trivial
  | .comment _ => trivial
  | .other => trivial

theorem openApart_relinkAll (base : Bytes) : ∀ nodes : List Node, OpenApart (relinkAll base nodes)
  | [] => trivial
  | node :: rest => ⟨Node.opensApart_relink base node, openApart_relinkAll base rest⟩

end

mutual

theorem Node.shown_relink (base : Bytes) : ∀ node : Node, (node.relink base).shown = node.shown
  | .element name attributes children => by
    rw [Node.relink, Node.shown, Node.shown, shownAll_relinkAll base children]
  | .text _ => rfl
  | .cdata _ => rfl
  | .comment _ => rfl
  | .other => rfl

/-- Links are no part of the text that is shown. -/
theorem shownAll_relinkAll (base : Bytes) :
    ∀ nodes : List Node, shownAll (relinkAll base nodes) = shownAll nodes
  | [] => rfl
  | node :: rest => by
    rw [relinkAll, shownAll, shownAll, Node.shown_relink base node, shownAll_relinkAll base rest]

end

end FeedIntake.Markup
