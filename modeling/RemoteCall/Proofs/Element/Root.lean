import RemoteCall.Element.Reader
import RemoteCall.Element.Writer
import RemoteCall.Proofs.Xml.Root

/-!
# The root of what an element is written as

An element may have attributes whose names spoil its tag, and texts that no document may hold.
What it is written as need not be a document then. If it is one all the same, the root has the
name of the element.
-/

namespace RemoteCall.Element

open Xml

/-- No letter follows the name in a tag, whatever the attributes are called. -/
theorem stops_renderAttributes (attributes : List (String × String)) {c : Char}
    (hc : isNameLetter c = false) (rest : List Char) :
    Stops isNameLetter (Markup.renderAttributes attributes ++ c :: rest) := by
  intro d hd
  cases attributes with
  | nil =>
    obtain rfl : c = d := by simpa [Markup.renderAttributes] using hd
    exact hc
  | cons first attributes =>
    obtain rfl : ' ' = d := by simpa [Markup.renderAttributes] using hd
    decide

/-- What an element is written as begins with its name. -/
theorem exists_toList_toXml (element : Element) : ∃ rest, Stops isNameLetter rest ∧
    element.toXml.toList = '<' :: (element.localName.toList ++ rest) := by
  obtain ⟨name, uri, attributes, children, text⟩ := element
  let tag := tagAttributes none uri attributes
  have hslash : isNameLetter '/' = false := by decide
  have hclose : isNameLetter '>' = false := by decide
  rw [toXml, Markup.textOf, String.toList_ofList, markup]
  cases hempty : children.isEmpty && text.isNone with
  | true =>
    refine ⟨_, stops_renderAttributes tag hslash ['>'], ?_⟩
    simp only [markupIn, hempty, if_true, List.flatMap_cons, List.flatMap_nil, List.append_nil,
      render_emptyTag, localName, List.append_assoc, tag]
  | false =>
    let inside := (text.map fun t => Markup.text (escapeText t)).toList ++
      markupAll uri children ++ [.endTag name]
    refine ⟨_, stops_renderAttributes tag hclose (inside.flatMap Markup.render), ?_⟩
    simp only [markupIn, hempty, Bool.false_eq_true, if_false, List.flatMap_cons,
      render_startTag, localName, List.cons_append, List.append_assoc, List.nil_append, tag, inside]

/-- A document that an element is written as has a root of the same name. -/
theorem localName_of_parse_toXml {element root : Element}
    (hname : isNamePart element.localName.toList = true)
    (hparse : parse element.toXml = .ok root) : root.localName = element.localName := by
  obtain ⟨rest, hrest, hchars⟩ := element.exists_toList_toXml
  simp only [parse] at hparse
  split at hparse
  · next found hfound =>
    cases hparse
    obtain ⟨node, hnode, hroot⟩ := Option.bind_eq_some_iff.mp hfound
    obtain ⟨uri, attributes, nodes, opening, closing, rfl⟩ :=
      root_of_parse? hname hrest hchars hnode
    rw [ofNode?, Option.some.injEq] at hroot
    rw [← hroot, localName, String.ofList_toList]
  · cases hparse

/-- Every element is written with characters. -/
theorem toXml_ne_empty (element : Element) : element.toXml ≠ "" := by
  obtain ⟨rest, -, hchars⟩ := element.exists_toList_toXml
  intro h
  rw [h] at hchars
  cases hchars

end RemoteCall.Element
