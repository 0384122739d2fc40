import RemoteCall.Proofs.Element.Fidelity
import RemoteCall.Proofs.Element.Legality

/-!
# Elements that are built, written and read

An element that is built of ordinary names and legal texts, with no child that would leave the
namespace of its parent for none, is read as it was written, unless it has an attribute in a
namespace that is called `xmlns`. Such an attribute gets a prefix of its own, but it is taken for
the declaration of the default namespace all the same.
-/

namespace RemoteCall.Element

open Xml

/-- The names are ordinary ones, the texts legal, and the namespaces such as may be bound. An
attribute without namespace is not called like the declaration of one. -/
structure IsOrdinary (element : Element) : Prop where
  name : isName element.localName = true
  namespaceUri : ∀ uri ∈ element.namespaceUri, IsBindable uri
  text : ∀ text ∈ element.text, isXmlText text = true
  attributeNames : ∀ candidate ∈ element.attributes, isName candidate.localName = true
  attributeUris : ∀ candidate ∈ element.attributes, ∀ uri ∈ candidate.namespaceUri, IsBindable uri
  values : ∀ candidate ∈ element.attributes, isXmlText candidate.value = true
  plainNames : ∀ candidate ∈ element.attributes, candidate.namespaceUri = none →
    candidate.localName ≠ "xmlns"

/-- With ordinary names and legal texts, what has been built can be written as a tree. -/
theorem IsOrdinary.isLegible {element : Element} (h : element.IsOrdinary)
    (hregular : element.IsRegular) : element.IsLegible where
  name := isNamePart_of_isName h.name
  namespaceUri := h.namespaceUri
  attributes := by
    intro candidate hcandidate
    have hname := isNamePart_of_isName (h.attributeNames candidate hcandidate)
    exact ⟨hname, fun uri huri => (h.attributeUris candidate hcandidate uri huri).2.2,
      h.values candidate hcandidate⟩
  attributeKeys := hregular.attributeKeys
  textLegal := h.text
  textKept := hregular.text

/-- No attribute in a namespace is called like a declaration. -/
def HasNoQualifiedDeclaration (element : Element) : Prop :=
  ∀ candidate ∈ element.attributes, candidate.namespaceUri ≠ none → candidate.localName ≠ "xmlns"

/-- Of what keeps an ordinary element from being read again, only one thing is left: an attribute in
a namespace that is called `xmlns`. -/
theorem IsOrdinary.isSteady_iff {element : Element} (h : element.IsOrdinary)
    (hkeeps : element.KeepsNamespaces) : element.IsSteady ↔ element.HasNoQualifiedDeclaration := by
  constructor
  · intro hsteady candidate hcandidate _
    exact hsteady.names candidate hcandidate
  · intro hfree
    refine ⟨fun candidate hcandidate => ?_, h.attributeUris, hkeeps⟩
    by_cases huri : candidate.namespaceUri = none
    · exact h.plainNames candidate hcandidate huri
    · exact hfree candidate hcandidate huri

/-- **Elements that are built are read as they were written**, if their names are ordinary and
their texts legal, no child would leave the namespace of its parent for none, and no attribute in
a namespace is called `xmlns`. With such an attribute they are not. -/
theorem Built.roundTrips_iff {element : Element} (h : element.Built)
    (hordinary : element.Every IsOrdinary) (hkeeps : element.Every KeepsNamespaces) :
    (element.RoundTrips ↔ element.Every HasNoQualifiedDeclaration) ∧
      (element.Every HasNoQualifiedDeclaration → parse element.toXml = .ok element) := by
  have hlegible : element.Every IsLegible :=
    (hordinary.and h.every_isRegular).mono fun node hnode => hnode.1.isLegible hnode.2
  have hsteady : element.Every IsSteady ↔ element.Every HasNoQualifiedDeclaration :=
    ((hordinary.and hkeeps).mono fun node hnode => hnode.1.isSteady_iff hnode.2).congr
  rw [← hsteady]
  exact roundTrips_iff_isSteady hlegible

/-- An element with a child in another namespace, and with attributes of one name in several. -/
def catalogue : Element :=
  .mk "catalogue" (some "urn:shop")
    [⟨some "urn:first", "id", "1"⟩, ⟨none, "id", "2"⟩, ⟨some "urn:second", "id", "\"3\""⟩]
    [.mk "item" (some "urn:stock") [] [] (some "5 < 6\r")] none

/-- The catalogue can be built: made, given its attributes, and its child added. -/
theorem built_catalogue : catalogue.Built := by
  have hmakeItem : Element.make "item" (some "urn:stock") =
      .ok (.mk "item" (some "urn:stock") [] [] none) := rfl
  have hitem := Built.setText (some "5 < 6\r") (.make hmakeItem)
  have hmake : Element.make "catalogue" (some "urn:shop") =
      .ok (.mk "catalogue" (some "urn:shop") [] [] none) := rfl
  have hfirst := Built.setAttributeNs (some "urn:first") "id" "1" (.make hmake)
  have hsecond := Built.setAttributeNs (some "urn:second") "id" "\"3\""
    (.setAttributeNs none "id" "2" hfirst)
  exact .addChild hsecond hitem

/-- The catalogue is read as it was written, with two prefixes, a line end that is escaped and a
child in another namespace. -/
theorem parse_toXml_catalogue : parse catalogue.toXml = .ok catalogue := by
  have hordinary : catalogue.Every IsOrdinary := by
    refine .node ⟨by decide, by decide, by decide, by decide, by decide, by decide, by decide⟩ ?_
    intro item hitem
    obtain rfl := List.mem_singleton.mp hitem
    exact .node ⟨by decide, by decide, by decide, by decide, by decide, by decide, by decide⟩
      (by simp [children])
  have hkeeps : catalogue.Every KeepsNamespaces := by
    refine .node (by simp [KeepsNamespaces, catalogue, children, namespaceUri]) ?_
    intro item hitem
    obtain rfl := List.mem_singleton.mp hitem
    exact .node (by simp [KeepsNamespaces, children]) (by simp [children])
  have hfree : catalogue.Every HasNoQualifiedDeclaration := by
    refine .node (by simp [HasNoQualifiedDeclaration, catalogue, attributes]) ?_
    intro item hitem
    obtain rfl := List.mem_singleton.mp hitem
    exact .node (by simp [HasNoQualifiedDeclaration, attributes]) (by simp [children])
  exact (built_catalogue.roundTrips_iff hordinary hkeeps).2 hfree

/-- An element with an attribute that is called like a declaration. -/
def misnamed : Element :=
  .mk "a" none [⟨some "urn:u", "xmlns", "v"⟩] [] none

/-- The attribute is read as the declaration of the default namespace. -/
theorem parse_toXml_misnamed :
    parse misnamed.toXml = .ok (.mk "a" (some "v") [] [] none) := by
  have hwritten : misnamed.toXml = "<a xmlns:ns0=\"urn:u\" ns0:xmlns=\"v\"/>" := by
    decide +kernel
  have hread : Xml.parse? "<a xmlns:ns0=\"urn:u\" ns0:xmlns=\"v\"/>" =
      some (.element (some "v") "a" [] [] misnamed.toXml.toList []) := by
    rw [hwritten]
    decide +kernel
  rw [parse, hwritten, hread]
  rfl

/-- The attribute is gone, and the element is in another namespace. -/
theorem not_roundTrips_misnamed : misnamed.Built ∧ misnamed.Every IsOrdinary ∧
    misnamed.Every KeepsNamespaces ∧ ¬ misnamed.RoundTrips := by
  have hmake : Element.make "a" none = .ok (.mk "a" none [] [] none) := rfl
  have hbuilt : misnamed.Built := .setAttributeNs (some "urn:u") "xmlns" "v" (.make hmake)
  have hordinary : misnamed.Every IsOrdinary :=
    .node ⟨by decide, by decide, by decide, by decide, by decide, by decide, by decide⟩
      (by simp [misnamed, children])
  have hkeeps : misnamed.Every KeepsNamespaces :=
    .node (by simp [KeepsNamespaces, misnamed, children]) (by simp [misnamed, children])
  refine ⟨hbuilt, hordinary, hkeeps, ?_⟩
  rintro ⟨again, hparse, hsame⟩
  rw [parse_toXml_misnamed] at hparse
  cases hparse
  exact absurd hsame (by decide +kernel)

end RemoteCall.Element
