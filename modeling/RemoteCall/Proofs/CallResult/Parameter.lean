import RemoteCall.CallResult.Reader
import RemoteCall.CallResult.Writer
import RemoteCall.Proofs.Element.Document
import RemoteCall.Proofs.Xml.Wrapped

/-!
# Parameters in documents

A parameter is written as an element with a name and a value. An escaped value is read as
it was; a value that is markup is content of its own element and reaches no further.
-/

namespace RemoteCall.CallResult

open Xml Element

variable {spec : Option FunctionSpec} {name value : String}

/-- What needs no character references is escaped in the same way everywhere. -/
theorem escapeAttribute_eq_escapePlain (h : isOneLine value = true) :
    escapeAttribute value = escapePlain value := by
  have hchars (chars : List Char) (h : ∀ c ∈ chars, isKeptInValue c = true) :
      chars.flatMap escapeAttributeChar = chars.flatMap escapeMarkup := by
    induction chars with
    | nil => rfl
    | cons c rest ih =>
      obtain ⟨hc, hrest⟩ := List.forall_mem_cons.mp h
      simp only [isKeptInValue, Bool.and_eq_true, bne_iff_ne] at hc
      rw [List.flatMap_cons, List.flatMap_cons, ih hrest, escapeAttributeChar, if_neg hc.1.1,
        if_neg hc.2, escapeTextChar, if_neg hc.1.2]
  rw [escapeAttribute, escapePlain, hchars _ (List.all_eq_true.mp h)]

/-- A tag without namespaces, whose values are lines, is written with as few references as
can be. -/
theorem start_tagIn {element : Element} (huri : element.namespaceUri = none)
    (h : ∀ candidate ∈ element.attributes, candidate.namespaceUri = none ∧
      isOneLine candidate.value = true) :
    (tagIn none element).start = .startTag element.localName
      (element.attributes.map fun candidate =>
        (candidate.localName, escapePlain candidate.value)) := by
  have hmarkup (attributes : List Attribute) (h : ∀ candidate ∈ attributes,
      candidate.namespaceUri = none ∧ isOneLine candidate.value = true) :
      attributeMarkup 0 attributes = attributes.map fun candidate =>
        (candidate.localName, escapePlain candidate.value) := by
    induction attributes with
    | nil => rfl
    | cons first rest ih =>
      obtain ⟨⟨hnone, hline⟩, hrest⟩ := List.forall_mem_cons.mp h
      obtain ⟨uri | uri, name, value⟩ := first
      · rw [attributeMarkup, ih hrest, escapeAttribute_eq_escapePlain hline]
        rfl
      · cases hnone
  have hwritten := map_written_declarations none element.namespaceUri element.attributes
  rw [tagAttributes, if_pos huri, List.nil_append, hmarkup _ h] at hwritten
  rw [Tag.start, tagIn, hwritten]
  simp [QName.text]

/-- The end tag of an element has its local name. -/
theorem finish_tagIn (outer : Option String) (element : Element) :
    (tagIn outer element).finish = .endTag element.localName := by
  simp [Tag.finish, tagIn, QName.text]

/-- The element that a parameter is written as. -/
def parameterElement (name value : String) : Element :=
  .mk "param" none [⟨none, "name", name⟩] [] (some value)

/-- A parameter can be written if its name and its value are legal and the value is not empty. -/
theorem isPortableIn_parameterElement (hname : isXmlText name = true)
    (hvalue : isXmlText value = true) (hne : value ≠ "") :
    IsPortableIn none (parameterElement name value) := by
  have hkept : keptText [] (some value) = some value := by simp [keptText, nonEmpty, hne]
  exact isPortableIn_mk (by decide) (by decide) (by decide) hname (by simpa using hvalue) hkept

/-- Where no elements are read there are none. -/
theorem any_isElement_of_ofNodes {nodes : List Node} (h : ofNodes nodes = []) :
    nodes.any isElement = false := by
  induction nodes with
  | nil => rfl
  | cons node rest ih =>
    rw [ofNodes] at h
    split at h
    · cases h
    · next hnode =>
      cases node with
      | element => cases hnode
      | _ => exact ih h

/-- The value of a parameter without elements in it is its text. -/
theorem parameterValue_eq_of_readsAs {source : List Char} {tree : Tree} {uri : Option String}
    {localName : String} {attributes : List Attribute} {content : List Node}
    {opening closing : List Char}
    (h : ReadsAs [] source [parameterElement name value] [tree]
      [.element uri localName attributes content opening closing]) :
    parameterValue content = value := by
  have helement := h.elements
  simp only [ofNodes, ofNode?, parameterElement, List.cons.injEq, Element.mk.injEq,
    and_true] at helement
  obtain ⟨-, -, -, hchildren, htext⟩ := helement
  rw [hchildren] at htext
  simp only [keptText, nonEmpty, Option.filter_filter, Option.filter_eq_some_iff,
    Option.some.injEq] at htext
  rw [parameterValue, any_isElement_of_ofNodes hchildren]
  exact htext.1

/-- A parameter is content of its own, and is read as a `param` element with its name. Its
value is read as it was unless it is markup. -/
theorem exists_readsAs_parameter (hname : isXmlText name = true) (hline : isOneLine name = true)
    (hnameNe : name ≠ "") (hvalueNe : value ≠ "")
    (hescaped : isRaw spec name = false → isXmlText value = true)
    (hraw : isRaw spec name = true → ParamType.xml.accepts value = true) :
    ∃ elements tree opening closing content,
      ReadsAs [] (charsOf (parameterMarkup spec name value)) elements [tree]
        [.element none "param" [⟨none, "name", name⟩] content opening closing] ∧
      (isRaw spec name = false → parameterValue content = value) := by
  have hscope : lookUp [] none = none := rfl
  have hmarkup : parameterMarkup spec name value = [.startTag "param" [("name", escapePlain name)],
      .text (if isRaw spec name then value else escapeText value), .endTag "param"] :=
    if_neg (by simp [hnameNe, hvalueNe])
  cases hcase : isRaw spec name with
  | false =>
    have hportable : Portable none (parameterElement name value) :=
      .node (isPortableIn_parameterElement hname (hescaped hcase) hvalueNe)
        (by simp [parameterElement, Element.children])
    obtain ⟨trees, content, opening, closing, hreads⟩ := hportable.exists_readsAs hscope
    have hwritten : markupIn none (parameterElement name value) =
        parameterMarkup spec name value := by
      rw [hmarkup, ← escapeAttribute_eq_escapePlain hline, hcase]
      rfl
    rw [hwritten] at hreads
    exact ⟨_, _, opening, closing, content, hreads, fun _ => parameterValue_eq_of_readsAs hreads⟩
  | true =>
    obtain ⟨trees, nodes, hcontent, hnodes⟩ := exists_isContent_of_isWellFormed (hraw hcase)
    have hportable : IsPortableIn none (parameterElement name value) :=
      isPortableIn_parameterElement hname hcontent.legal hvalueNe
    have hself : scopeIn none (parameterElement name value) [] = [] :=
      scopeIn_eq_self rfl (by simp [parameterElement, attributes]) []
    rw [← hself] at hnodes
    have hsource : charsOf (parameterMarkup spec name value) =
        (tagIn none (parameterElement name value)).start.render ++ value.toList ++
          (tagIn none (parameterElement name value)).finish.render := by
      have hstart : (tagIn none (parameterElement name value)).start = _ :=
        start_tagIn rfl (by simpa [parameterElement, attributes] using hline)
      rw [hmarkup, hstart, finish_tagIn, hcase]
      simp [charsOf, parameterElement, Element.localName, attributes]
    have hcontent := hportable.isWritable_tagIn.isContent hcontent
    have hmarkup : StartsMarkup (charsOf (parameterMarkup spec name value)) := by
      rw [hsource, List.append_assoc]
      exact startsMarkup_cons
    rw [← hsource] at hcontent
    exact ⟨_, _, _, _, mergeText nodes,
      .of_resolve hcontent hmarkup (hportable.resolve_tagIn hscope hnodes _ _), by simp⟩

end RemoteCall.CallResult
