import FeedIntake.Markup.Fragment
import FeedIntake.Proofs.Markup.Lines

/-!
Fragments that a library reads as one text node. Nothing is removed from such a fragment and no link
is in it, so what is done with it comes down to how the library writes the node, and to the lines of
its text.
-/
namespace FeedIntake

open Bytes

namespace Markup

/-- The wrapping element around some children. -/
def wrapped (children : List Node) : Node := .element wrapperName [wrapperMark] children

theorem body?_document (children : List Node) :
    (document children).body? = some [wrapped children] := by
  have named : (document children).children.find? (Node.isNamed (ofString "body")) =
      some (.element (ofString "body") [] [wrapped children]) :=
    List.find?_cons_of_pos (beq_self_eq_true (ofString "body"))
  rw [Node.body?, named]
  rfl

theorem topLevel_wrapped (children : List Node) : topLevel [wrapped children] = children := by
  have marked : Attribute.text? wrapperMark.name [wrapperMark] = wrapperMark.value := by decide
  have known : isWrapper (wrapped children) = true := by simp [wrapped, isWrapper, marked]
  rw [topLevel, List.flatMap_singleton, if_pos known]
  rfl

/-- The wrapping element is not active, so it stays. -/
theorem sanitizeAll_wrapped (children : List Node) :
    sanitizeAll [wrapped children] = [wrapped (sanitizeAll children)] := by
  have kept : droppedElements.contains wrapperName = false := by decide
  have harmless : [wrapperMark].filter (!·.isActive) = [wrapperMark] := by decide
  rw [sanitizeAll, wrapped, Node.isDropped, kept, if_neg Bool.false_ne_true, Node.sanitize,
    harmless, sanitizeAll]
  rfl

theorem shownAll_wrapped (children : List Node) :
    shownAll [wrapped children] = Mark.lineFeed :: shownAll children ++ [Mark.lineFeed] := by
  have audible : silentElements.contains wrapperName = false := by decide
  have block : blockElements.contains wrapperName = true := by decide
  rw [shownAll, wrapped, Node.shown, audible, block, shownAll, List.append_nil]
  rfl

/-- The wrapping element has no links. -/
theorem relinkAll_wrapped (base : Bytes) (children : List Node) :
    relinkAll base [wrapped children] = [wrapped (relinkAll base children)] := by
  have unlinked : Attribute.text? (ofString "href") [wrapperMark] = none ∧
      Attribute.text? (ofString "src") [wrapperMark] = none := by decide
  have other : (wrapperName == ofString "a") = false := by decide
  have same : Attribute.relink base wrapperName [wrapperMark] = [wrapperMark] := by
    simp [Attribute.relink, Attribute.resolve, unlinked, other]
  rw [relinkAll, wrapped, Node.relink, same, relinkAll]
  rfl

namespace Library

variable (library : Library) (fragment text : Bytes)

/-- A library reads a fragment as one text node. -/
def ReadsAs : Prop := library.root? (wrap fragment) = some (document [.text text])

variable (full : isAllBlank fragment = false) (reads : library.ReadsAs fragment text)

include reads

theorem content?_of_readsAs : library.content? fragment = some [wrapped [.text text]] := by
  rw [content?, reads, Option.bind_some, body?_document]

include full

theorem clean_of_readsAs : library.clean fragment = library.write (.text text) := by
  rw [clean, if_neg (by simp [full]), library.content?_of_readsAs fragment text reads]
  have kept : sanitizeAll [.text text] = [.text text] := rfl
  simp only [serialize, sanitizeAll_wrapped, kept, topLevel_wrapped, List.flatMap_singleton]

theorem text_of_readsAs : library.text fragment = tidy text := by
  rw [Library.text, if_neg (by simp [full]), library.content?_of_readsAs fragment text reads]
  have shown : shownAll [.text text] = text := List.append_nil text
  simp only [shownAll_wrapped, shown, tidy_eq, tidyLines_framed]

theorem withAbsoluteLinks_of_readsAs (base : Bytes) :
    library.withAbsoluteLinks base fragment = library.write (.text text) := by
  rw [withAbsoluteLinks, if_neg (by simp [full]), library.content?_of_readsAs fragment text reads]
  have kept : relinkAll base [.text text] = [.text text] := rfl
  simp only [serialize, relinkAll_wrapped, kept, topLevel_wrapped, List.flatMap_singleton]

end Library

theorem unwrap_wrap (fragment : Bytes) : unwrap (wrap fragment) = fragment := by
  simp [unwrap, wrap]

end Markup

namespace Fragment

@[simp] theorem html_clean : html.clean = clean := rfl

@[simp] theorem html_text : html.text = text := rfl

@[simp] theorem html_withAbsoluteLinks : html.withAbsoluteLinks = withAbsoluteLinks := rfl

theorem readsAs_decode (fragment : Bytes) : library.ReadsAs fragment (decode fragment) := by
  have same := congrArg decode (Markup.unwrap_wrap fragment)
  exact congrArg (fun text => some (Markup.document [.text text])) same

/-- A fragment that is not blank is cleaned by escaping the text that it shows. -/
theorem clean_eq (fragment : Bytes) :
    clean fragment = if isAllBlank fragment then [] else escape (decode fragment) := by
  split
  · next blank => rw [clean, Markup.Library.clean, if_pos blank]
  · next full =>
    exact library.clean_of_readsAs _ _ (by simpa using full) (readsAs_decode fragment)

/-- There are no links in a plain text fragment, so only its form may change. -/
theorem withAbsoluteLinks_eq (base fragment : Bytes) :
    withAbsoluteLinks base fragment = clean fragment := by
  rw [clean_eq]
  split
  · next blank => rw [withAbsoluteLinks, Markup.Library.withAbsoluteLinks, if_pos blank]
  · next full =>
    exact library.withAbsoluteLinks_of_readsAs _ _ (by simpa using full) (readsAs_decode fragment)
      base

theorem text_eq_of_full (fragment : Bytes) (full : isAllBlank fragment = false) :
    text fragment = Markup.tidy (decode fragment) :=
  library.text_of_readsAs _ _ full (readsAs_decode fragment)

end Fragment

end FeedIntake
