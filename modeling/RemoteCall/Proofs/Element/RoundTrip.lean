import RemoteCall.Proofs.Element.Document
import RemoteCall.Proofs.Element.Root

/-!
# Elements that are written and read

An element that can stand in a document can stand alone: what it is written as is a document,
and the root of that is the element.
-/

namespace RemoteCall.Element

open Xml

/-- The document of an element is its markup outside of any namespace. -/
theorem toList_toXml (element : Element) :
    element.toXml.toList = charsOf (markupIn none element) := by
  rw [toXml, Markup.textOf, String.toList_ofList, markup, charsOf]

/-- Nothing of what an element is written as is skipped before its root. -/
theorem skipProlog_toXml {element : Element}
    (hname : isNamePart element.localName.toList = true) :
    skipProlog element.toXml.toList = some element.toXml.toList := by
  obtain ⟨rest, -, hchars⟩ := element.exists_toList_toXml
  rw [hchars, skipProlog_of_isNamePart hname]

/-- What an element is written as is more than blanks. -/
theorem isBlankText_toXml (element : Element) : Text.isBlankText element.toXml = false := by
  obtain ⟨rest, -, hchars⟩ := element.exists_toList_toXml
  have hangle : Text.isBlank '<' = false := by decide
  rw [Text.isBlankText, hchars, List.all_cons, hangle, Bool.false_and]

/-- **An element that stands alone is read as it was written.** -/
theorem parse_toXml {element : Element} (h : Portable none element) :
    parse element.toXml = .ok element := by
  have hscope : lookUp [] none = none := rfl
  obtain ⟨content, nodes, opening, closing, hreads⟩ := h.exists_readsAs hscope
  have hname : isNamePart element.localName.toList = true := by
    cases h with
    | node hself => exact hself.name
  have hchars := element.toList_toXml
  have hlegal : element.toXml.toList.all isXmlChar = true := by
    rw [hchars]
    exact hreads.content.legal
  have hprolog := skipProlog_toXml hname
  rw [hchars] at hprolog
  have hnode : resolve [] (.element (tagIn none element) opening content closing) =
      some (.element element.namespaceUri element.localName element.attributes nodes
        opening closing) := by
    simpa [resolveAll, Option.bind_eq_some_iff] using hreads.resolved
  have hdocument := parse?_of_isContent hlegal (hchars ▸ hprolog) hreads.content hnode
  have hself : ofNode? (.element element.namespaceUri element.localName element.attributes nodes
      opening closing) = some element := by
    have helements := hreads.elements
    rw [ofNodes] at helements
    split at helements
    · next found hfound =>
      obtain rfl : found = element := by simpa [ofNodes] using helements
      exact hfound
    · cases helements
  rw [parse, hdocument, Option.bind_some, hself]

end RemoteCall.Element
