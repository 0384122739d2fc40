import RemoteCall.Proofs.Element.Document
import RemoteCall.Proofs.Xml.Legality

/-!
# Elements with legal texts

The texts of an element that has been read are legal. An element that is written has legal
texts if, and only if, what is written is legal: escaping neither hides an illegal character nor
makes one. So for an element with ordinary names nothing but its texts decides whether it can be
written and read.
-/

namespace RemoteCall

open Xml (Attribute isXmlChar isXmlText escapeText escapeAttribute charsOf)

namespace Element

/-- The text and the values of an element are legal. -/
structure IsLegal (element : Element) : Prop where
  text : ∀ text ∈ element.text, isXmlText text = true
  attributes : ∀ candidate ∈ element.attributes, isXmlText candidate.value = true

/-- An element that is in no namespace and has no attribute in one, with ordinary names. -/
structure IsSimple (element : Element) : Prop where
  namespaceUri : element.namespaceUri = none
  name : isName element.localName = true
  attributes : ∀ candidate ∈ element.attributes, candidate.namespaceUri = none ∧
    isName candidate.localName = true ∧ candidate.localName ≠ "xmlns"

/-- A simple element with legal texts can be written as it is. -/
theorem IsSimple.isPlain {element : Element} (h : element.IsSimple) (hlegal : element.IsLegal) :
    element.IsPlain where
  namespaceUri := h.namespaceUri
  name := h.name
  text := hlegal.text
  attributes := by
    intro candidate hcandidate
    obtain ⟨huri, hname, hne⟩ := h.attributes candidate hcandidate
    exact ⟨huri, hname, hne, hlegal.attributes candidate hcandidate⟩

/-- What holds of every node may be joined with something else that does. -/
theorem Every.and {test test' : Element → Prop} {element : Element} (h : Every test element)
    (h' : Every test' element) : Every (fun node => test node ∧ test' node) element := by
  induction h with
  | node h hchildren ih =>
    exact .node ⟨h, h'.test⟩ fun child hchild => ih child hchild (h'.children child hchild)

/-- Tests that agree at every node are passed by the same trees. -/
theorem Every.congr {test test' : Element → Prop} {element : Element}
    (h : Every (fun node => test node ↔ test' node) element) :
    Every test element ↔ Every test' element := by
  constructor
  · intro htest
    exact (h.and htest).mono fun node hnode => hnode.1.mp hnode.2
  · intro htest
    exact (h.and htest).mono fun node hnode => hnode.1.mpr hnode.2

/-! ## Reading -/

/-- Texts that are legal make up a legal text. -/
theorem legal_textOfNodes {nodes : List Xml.Node} (h : ∀ node ∈ nodes, node.IsLegal) :
    (textOfNodes nodes).all isXmlChar = true := by
  rw [textOfNodes, List.all_flatMap, List.all_eq_true]
  intro node hnode
  cases h node hnode with
  | text hcontent => exact hcontent
  | element | aside => rfl

/-- The elements among nodes are those that the nodes are read as, one by one. -/
theorem ofNodes_eq_filterMap (nodes : List Xml.Node) : ofNodes nodes = nodes.filterMap ofNode? := by
  induction nodes with
  | nil => rfl
  | cons node rest ih =>
    rw [ofNodes, List.filterMap_cons, ih]
    cases ofNode? node <;> rfl

/-- An element that is read from a legal node is legal at every depth. -/
theorem every_isLegal_of_ofNode? {node : Xml.Node} (h : node.IsLegal) {element : Element}
    (helement : ofNode? node = some element) : element.Every IsLegal := by
  induction h generalizing element with
  | @element uri name attributes children opening closing hvalues hchildren ih =>
    cases helement
    refine .node ⟨fun text htext => ?_, hvalues⟩ fun child hchild => ?_
    · obtain ⟨hnonEmpty, -⟩ := Option.filter_eq_some_iff.mp htext
      obtain ⟨hread, -⟩ := Option.filter_eq_some_iff.mp hnonEmpty
      cases hread
      rw [isXmlText, String.toList_ofList]
      exact legal_textOfNodes hchildren
    · rw [Element.children, ofNodes_eq_filterMap] at hchild
      obtain ⟨node, hnode, hread⟩ := List.mem_filterMap.mp hchild
      exact ih node hnode hread
  | text | aside => cases helement

/-- The texts of an element that has been read are legal. -/
theorem every_isLegal_of_parse {xml : String} {root : Element} (h : parse xml = .ok root) :
    root.Every IsLegal := by
  unfold parse at h
  split at h
  · next element heq =>
    cases h
    obtain ⟨node, hnode, helement⟩ := Option.bind_eq_some_iff.mp heq
    exact every_isLegal_of_ofNode? (Xml.isLegal_of_parse? hnode) helement
  · cases h

/-! ## Writing -/

/-- If attributes are written with legal characters, all their values are legal. -/
theorem legal_of_renderAttributes {attributes : List (String × String)}
    (h : (Xml.Markup.renderAttributes attributes).all isXmlChar = true) :
    ∀ entry ∈ attributes, isXmlText entry.2 = true := by
  induction attributes with
  | nil => simp
  | cons first rest ih =>
    simp only [Xml.Markup.renderAttributes, List.all_cons, List.all_append, Bool.and_eq_true] at h
    obtain ⟨-, -, -, -, hvalue, -, hrest⟩ := h
    exact List.forall_mem_cons.mpr ⟨hvalue, ih hrest⟩

/-- The value of every attribute is written, under whatever name. -/
theorem exists_mem_attributeMarkup {attributes : List Attribute} {candidate : Attribute}
    (h : candidate ∈ attributes) (index : Nat) :
    ∃ name, (name, escapeAttribute candidate.value) ∈ attributeMarkup index attributes := by
  induction attributes generalizing index with
  | nil => cases h
  | cons first rest ih =>
    obtain ⟨uri | uri, name, value⟩ := first
    · rcases List.mem_cons.mp h with rfl | hrest
      · exact ⟨name, List.mem_cons_self⟩
      · obtain ⟨name', hname⟩ := ih hrest index
        exact ⟨name', List.mem_cons_of_mem _ hname⟩
    · rcases List.mem_cons.mp h with rfl | hrest
      · exact ⟨_, List.mem_cons_of_mem _ List.mem_cons_self⟩
      · obtain ⟨name', hname⟩ := ih hrest (index + 1)
        exact ⟨name', List.mem_cons_of_mem _ (List.mem_cons_of_mem _ hname)⟩

/-- If a tag is written with legal characters, the values of the attributes are legal. -/
theorem legal_of_tagAttributes {outer uri : Option String} {attributes : List Attribute}
    (h : (Xml.Markup.renderAttributes (tagAttributes outer uri attributes)).all isXmlChar = true) :
    ∀ candidate ∈ attributes, isXmlText candidate.value = true := by
  intro candidate hcandidate
  obtain ⟨name, hname⟩ := exists_mem_attributeMarkup hcandidate 0
  have hvalue := legal_of_renderAttributes h _ (List.mem_append_right _ hname)
  rwa [Xml.isXmlText_escapeAttribute] at hvalue

/-- What a child is written as is part of what all of them are written as. -/
theorem charsOf_markupIn_subset {outer : Option String} {child : Element} {children : List Element}
    (h : child ∈ children) : charsOf (markupIn outer child) ⊆ charsOf (markupAll outer children) := by
  induction children with
  | nil => cases h
  | cons first rest ih =>
    rw [markupAll, Xml.charsOf_append]
    rcases List.mem_cons.mp h with rfl | hrest
    · exact List.subset_append_left ..
    · exact fun c hc => List.mem_append_right _ (ih hrest hc)

/-- What is written of an element is legal only if its texts are. -/
theorem every_isLegal_of_markupIn {test : Element → Prop} {element : Element}
    (hevery : element.Every test) {outer : Option String}
    (h : (charsOf (markupIn outer element)).all isXmlChar = true) : element.Every IsLegal := by
  induction hevery generalizing outer with
  | @node element _ hchildren ih =>
    obtain ⟨name, uri, attributes, children, text⟩ := element
    rw [markupIn] at h
    split at h
    · next hempty =>
      simp only [Bool.and_eq_true, List.isEmpty_iff, Option.isNone_iff_eq_none] at hempty
      obtain ⟨rfl, rfl⟩ := hempty
      simp only [charsOf, List.flatMap_cons, List.flatMap_nil, Xml.render_emptyTag, List.all_cons,
        List.all_append, Bool.and_eq_true] at h
      exact .node ⟨by simp [Element.text], legal_of_tagAttributes h.1.2.1.2⟩
        (by simp [Element.children])
    · simp only [List.cons_append, charsOf, List.flatMap_cons, List.flatMap_append,
        Xml.render_startTag, List.all_cons, List.all_append, Bool.and_eq_true] at h
      obtain ⟨-, ⟨⟨-, hattributes⟩, -⟩, ⟨htext, hinside⟩, -⟩ := h
      refine .node ⟨?_, legal_of_tagAttributes hattributes⟩ fun child hchild => ?_
      · rintro value hvalue
        cases hvalue
        rw [← Xml.isXmlText_escapeText, isXmlText]
        simpa using htext
      · exact ih child hchild (Xml.legal_of_subset (charsOf_markupIn_subset hchild) hinside)

end Element

end RemoteCall
