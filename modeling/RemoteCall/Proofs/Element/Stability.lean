import RemoteCall.Proofs.Element.Fidelity
import RemoteCall.Proofs.Element.Legality

/-!
# Elements that are read, written and read again

An element that has been read has legal names and texts, so it can be written. It is read again as
the same element unless an attribute is in the namespace of the prefix `xml`, to which the written
tag would have to bind another prefix, or a child is in no namespace below a parent that is in
one: the tag of such a child binds the default namespace to the empty name, and that is what it
is read with.
-/

namespace RemoteCall.Element

open Xml

/-- What is found of the names and the text of an element that has been read. -/
structure IsNamed (element : Element) : Prop where
  name : isNamePart element.localName.toList = true
  namespaceUri : ∀ uri ∈ element.namespaceUri, IsBindable uri
  attributes : ∀ candidate ∈ element.attributes, candidate.IsNamed
  attributeKeys : (element.attributes.map attributeKey).Nodup
  text : keptText element.children element.text = element.text

/-- An element that is read from a node with proper names has proper names at every depth. -/
theorem every_isNamed_of_ofNode? {node : Node} (h : node.IsNamed) {element : Element}
    (helement : ofNode? node = some element) : element.Every IsNamed := by
  induction h generalizing element with
  | element hname huri hattributes hkeys hchildren ih =>
    cases helement
    refine .node ⟨hname, huri, hattributes, hkeys, keptText_idem _ _⟩ fun child hchild => ?_
    rw [Element.children, ofNodes_eq_filterMap] at hchild
    obtain ⟨node, hnode, hread⟩ := List.mem_filterMap.mp hchild
    exact ih node hnode hread
  | text | aside => cases helement

/-- An element that is read from a document has proper names at every depth. -/
theorem every_isNamed_of_parse {xml : String} {element : Element}
    (h : parse xml = .ok element) : element.Every IsNamed := by
  unfold parse at h
  split at h
  · next found hfound =>
    cases h
    obtain ⟨node, hnode, helement⟩ := Option.bind_eq_some_iff.mp hfound
    exact every_isNamed_of_ofNode? (isNamed_of_parse? hnode) helement
  · cases h

/-- With proper names and legal texts, what has been read can be written as a tree. -/
theorem IsNamed.isLegible {element : Element} (h : element.IsNamed) (hlegal : element.IsLegal) :
    element.IsLegible where
  name := h.name
  namespaceUri := h.namespaceUri
  attributes := by
    intro candidate hcandidate
    have hnamed := h.attributes candidate hcandidate
    refine ⟨hnamed.name, fun uri huri => ?_, hlegal.attributes candidate hcandidate⟩
    rcases hnamed.namespaceUri uri huri with rfl | hbindable
    · decide
    · exact hbindable.2.2
  attributeKeys := h.attributeKeys
  textLegal := hlegal.text
  textKept := h.text

/-- What an element that has been read must be besides to be read again. -/
structure IsStable (element : Element) : Prop where
  attributes : ∀ candidate ∈ element.attributes, candidate.namespaceUri ≠ some xmlNamespace
  children : KeepsNamespaces element

/-- Of what keeps an element from being read again, only two things are left in one that has been
read before. -/
theorem IsNamed.isSteady_iff_isStable {element : Element} (h : element.IsNamed) :
    element.IsSteady ↔ element.IsStable := by
  constructor
  · intro hsteady
    refine ⟨fun candidate hcandidate huri => ?_, hsteady.children⟩
    exact (hsteady.namespaces candidate hcandidate _ huri).1 rfl
  · intro hstable
    refine ⟨fun candidate hcandidate => (h.attributes candidate hcandidate).name_ne,
      fun candidate hcandidate uri huri => ?_, hstable.children⟩
    refine ((h.attributes candidate hcandidate).namespaceUri uri huri).resolve_left fun heq => ?_
    exact hstable.attributes candidate hcandidate (huri.trans (congrArg some heq))

/-- **Elements that have been read are read again as they were**, if no attribute is in the
namespace of the prefix `xml` and no child is in no namespace below a parent that is in one.
Otherwise they are not. -/
theorem roundTrips_iff_of_parse {xml : String} {element : Element} (h : parse xml = .ok element) :
    (element.RoundTrips ↔ element.Every IsStable) ∧
      (element.Every IsStable → parse element.toXml = .ok element) := by
  have hnamed := every_isNamed_of_parse h
  have hlegible : element.Every IsLegible :=
    (hnamed.and (every_isLegal_of_parse h)).mono fun node hnode => hnode.1.isLegible hnode.2
  have hsteady : element.Every IsSteady ↔ element.Every IsStable :=
    (hnamed.mono fun node hnode => hnode.isSteady_iff_isStable).congr
  rw [← hsteady]
  exact roundTrips_iff_isSteady hlegible

/-- What is read of `<p:a xmlns:p='u' p:k='&#10;'>1<b xmlns=''/><![CDATA[<]]></p:a>`. -/
def mixed : Element :=
  .mk "a" (some "u") [⟨some "u", "k", "\n"⟩] [.mk "b" (some "") [] [] none] (some "1<")

/-- The document is read as the element: text around a child is joined, and the child is in the
empty namespace. -/
theorem parse_mixed :
    parse "<p:a xmlns:p='u' p:k='&#10;'>1<b xmlns=''/><![CDATA[<]]></p:a>" = .ok mixed := by
  have hread : Xml.parse? "<p:a xmlns:p='u' p:k='&#10;'>1<b xmlns=''/><![CDATA[<]]></p:a>" =
      some (.element (some "u") "a" [⟨some "u", "k", "\n"⟩]
        [.text ['1'] ['1'] [], .element (some "") "b" [] [] "<b xmlns=''/>".toList [],
          .text ['<'] "<![CDATA[<]]>".toList []]
        "<p:a xmlns:p='u' p:k='&#10;'>".toList "</p:a>".toList) := by
    decide +kernel
  rw [parse, hread]
  rfl

/-- The element is read as it was written, its line feed and its empty namespace included. -/
theorem parse_toXml_mixed : parse mixed.toXml = .ok mixed := by
  refine (roundTrips_iff_of_parse parse_mixed).2 (.node ⟨by decide, ?_⟩ ?_)
  · simp [KeepsNamespaces, mixed, children, namespaceUri]
  · intro child hchild
    obtain rfl := List.mem_singleton.mp hchild
    exact .node ⟨by decide, by simp [KeepsNamespaces, children]⟩ (by simp [children])

/-- An element with a child that is in no namespace. -/
def leaving : Element :=
  .mk "a" (some "u") [] [.mk "b" none [] [] none] none

/-- The child is read as being in no namespace. -/
theorem parse_leaving : parse "<p:a xmlns:p='u'><b/></p:a>" = .ok leaving := by
  have hread : Xml.parse? "<p:a xmlns:p='u'><b/></p:a>" = some (.element (some "u") "a" []
      [.element none "b" [] [] "<b/>".toList []]
      "<p:a xmlns:p='u'>".toList "</p:a>".toList) := by
    decide +kernel
  rw [parse, hread]
  rfl

/-- The child is in the namespace of the empty name afterwards. -/
theorem parse_toXml_leaving :
    parse leaving.toXml = .ok (.mk "a" (some "u") [] [.mk "b" (some "") [] [] none] none) := by
  have hwritten : leaving.toXml = "<a xmlns=\"u\"><b xmlns=\"\"/></a>" := by
    decide +kernel
  have hread : Xml.parse? "<a xmlns=\"u\"><b xmlns=\"\"/></a>" =
      some (.element (some "u") "a" [] [.element (some "") "b" [] [] "<b xmlns=\"\"/>".toList []]
        "<a xmlns=\"u\">".toList "</a>".toList) := by
    decide +kernel
  rw [parse, hwritten, hread]
  rfl

/-- An element with an attribute in the namespace of the prefix `xml`. -/
def spoken : Element :=
  .mk "a" none [⟨some xmlNamespace, "lang", "en"⟩] [] none

/-- The attribute is read as being in the namespace of the prefix `xml`, which needs no declaration.
-/
theorem parse_spoken : parse "<a xml:lang='en'/>" = .ok spoken := by
  have hread : Xml.parse? "<a xml:lang='en'/>" = some (.element none "a"
      [⟨some xmlNamespace, "lang", "en"⟩] [] "<a xml:lang='en'/>".toList []) := by
    decide +kernel
  rw [parse, hread]
  rfl

/-- The namespace cannot be bound to another prefix. -/
theorem parse_toXml_spoken : parse spoken.toXml = .error .malformed := by
  have hwritten : spoken.toXml =
      "<a xmlns:ns0=\"http://www.w3.org/XML/1998/namespace\" ns0:lang=\"en\"/>" := by
    decide +kernel
  have hread : Xml.parse?
      "<a xmlns:ns0=\"http://www.w3.org/XML/1998/namespace\" ns0:lang=\"en\"/>" = none := by
    decide +kernel
  rw [parse, hwritten, hread]
  rfl

/-- Neither an element that leaves a namespace nor an attribute in that of the prefix `xml` is
read again as it was. -/
theorem not_roundTrips_of_parse :
    (parse "<p:a xmlns:p='u'><b/></p:a>" = .ok leaving ∧ ¬ leaving.RoundTrips) ∧
      parse "<a xml:lang='en'/>" = .ok spoken ∧ ¬ spoken.RoundTrips := by
  refine ⟨⟨parse_leaving, ?_⟩, parse_spoken, ?_⟩
  · rintro ⟨again, hparse, hsame⟩
    rw [parse_toXml_leaving] at hparse
    cases hparse
    exact absurd hsame (by decide +kernel)
  · rintro ⟨again, hparse, -⟩
    rw [parse_toXml_spoken] at hparse
    cases hparse

end RemoteCall.Element
