import RemoteCall.Element.Reader
import RemoteCall.Name
import RemoteCall.Proofs.Element.Tag

/-!
# Elements in documents

An element that is written somewhere in a document is read as it was: its text and its
children are read from between its tags, and nothing beside them.
-/

namespace RemoteCall.Element

open Xml

variable {outer : Option String} {element : Element}

/-! ## Trees -/

/-- The element can be written below a parent in the namespace `outer`, with all that is in it. -/
inductive Portable : Option String → Element → Prop
  | node {outer : Option String} {element : Element} (h : IsPortableIn outer element)
      (hchildren : ∀ child ∈ element.children, Portable element.namespaceUri child) :
      Portable outer element

/-- The nodes are elements all through, with no text between them. -/
def AreElements (nodes : List Node) : Prop :=
  ∀ node ∈ nodes, (ofNode? node).isSome = true

/-- A node before an element is not merged with anything. -/
theorem mergeText_cons_cons_element (node : Node) {uri : Option String} {name : String}
    {attributes : List Attribute} {children rest nodes : List Node} {opening closing : List Char}
    (h : mergeText nodes =
      .element uri name attributes children opening closing :: rest) :
    mergeText (node :: nodes) =
      node :: .element uri name attributes children opening closing :: rest := by
  unfold mergeText
  rw [h]
  cases node <;> rfl

/-- Elements are not merged, and neither is a node before them. -/
theorem mergeText_cons {nodes : List Node} (h : AreElements nodes) (node : Node) :
    mergeText (node :: nodes) = node :: nodes := by
  induction nodes generalizing node with
  | nil => cases node <;> rfl
  | cons next nodes ih =>
    obtain ⟨hnext, hnodes⟩ := List.forall_mem_cons.mp h
    cases next with
    | element => exact mergeText_cons_cons_element node (ih hnodes _)
    | _ => cases hnext

/-- Elements in a row are not merged. -/
theorem mergeText_eq_self {nodes : List Node} (h : AreElements nodes) :
    mergeText nodes = nodes := by
  cases nodes with
  | nil => rfl
  | cons node nodes => exact mergeText_cons (List.forall_mem_cons.mp h).2 node

/-- Elements in a row have no text between them. -/
theorem textOfNodes_eq_nil {nodes : List Node} (h : AreElements nodes) :
    textOfNodes nodes = [] := by
  refine List.flatMap_eq_nil_iff.mpr fun node hnode => ?_
  have hsome := h node hnode
  cases node with
  | element => rfl
  | _ => cases hsome

/-- The elements among the first nodes come before those among the others. -/
theorem ofNodes_append (first second : List Node) :
    ofNodes (first ++ second) = ofNodes first ++ ofNodes second := by
  induction first with
  | nil => rfl
  | cons node first ih =>
    rw [List.cons_append, ofNodes, ofNodes]
    split <;> simp [ih]

/-- The source is content that is read, in the scope, as elements and nothing beside them. -/
structure ReadsAs (scope : List Binding) (source : List Char) (elements : List Element)
    (trees : List Tree) (nodes : List Node) : Prop where
  content : IsContent trees source
  markup : StartsMarkup source
  resolved : resolveAll scope trees = some nodes
  areElements : AreElements nodes
  elements : ofNodes nodes = elements

/-- Nothing is read as no elements. -/
theorem ReadsAs.nil (scope : List Binding) : ReadsAs scope [] [] [] [] where
  content := .nil
  markup := by simp [StartsMarkup, Stops]
  resolved := rfl
  areElements := by simp [AreElements]
  elements := rfl

/-- The source of a tree is read as the element that the tree is resolved to. -/
theorem ReadsAs.of_resolve {scope : List Binding} {source : List Char} {tree : Tree}
    {uri : Option String} {name : String} {attributes : List Attribute} {nodes : List Node}
    {opening closing : List Char} (hcontent : IsContent [tree] source)
    (hmarkup : StartsMarkup source)
    (hresolved : resolve scope tree = some (.element uri name attributes nodes opening closing)) :
    ReadsAs scope source (ofNodes [.element uri name attributes nodes opening closing]) [tree]
      [.element uri name attributes nodes opening closing] where
  content := hcontent
  markup := hmarkup
  resolved := by simp [resolveAll, hresolved]
  areElements := by simp [AreElements, ofNode?]
  elements := rfl

/-- Two sources in a row are read as the elements of both. -/
theorem ReadsAs.append {scope : List Binding} {source source' : List Char}
    {elements elements' : List Element} {trees trees' : List Tree} {nodes nodes' : List Node}
    (h : ReadsAs scope source elements trees nodes)
    (h' : ReadsAs scope source' elements' trees' nodes') :
    ReadsAs scope (source ++ source') (elements ++ elements') (trees ++ trees')
      (nodes ++ nodes') where
  content := h.content.append h'.content h'.markup
  markup := h.markup.append h'.markup
  resolved := resolveAll_append h.resolved h'.resolved
  areElements := List.forall_mem_append.mpr ⟨h.areElements, h'.areElements⟩
  elements := by rw [ofNodes_append, h.elements, h'.elements]

/-- If each element is read from what it is written as, so are all of them in a row. -/
theorem exists_readsAs_markupAll {scope : List Binding} {elements : List Element}
    (h : ∀ element ∈ elements, ∃ trees nodes,
      ReadsAs scope (charsOf (markupIn outer element)) [element] trees nodes) :
    ∃ trees nodes, ReadsAs scope (charsOf (markupAll outer elements)) elements trees nodes := by
  induction elements with
  | nil => exact ⟨[], [], .nil scope⟩
  | cons first rest ih =>
    obtain ⟨hfirst, hrest⟩ := List.forall_mem_cons.mp h
    obtain ⟨trees, nodes, hreads⟩ := hfirst
    obtain ⟨trees', nodes', hreads'⟩ := ih hrest
    rw [markupAll, charsOf_append]
    exact ⟨trees ++ trees', nodes ++ nodes', hreads.append hreads'⟩

/-- Between the tags of an element stand its text and its children, and are read as them. -/
theorem ReadsAs.exists_inside {scope : List Binding} {source : List Char}
    {children : List Element} {trees : List Tree} {nodes : List Node} {text : Option String}
    (h : ReadsAs scope source children trees nodes) (hne : text ≠ some "")
    (hlegal : ∀ t ∈ text, isXmlText t = true) :
    ∃ trees nodes,
      IsContent trees
        (charsOf (text.map fun t => Markup.text (escapeText t)).toList ++ source) ∧
      resolveAll scope trees = some nodes ∧ ofNodes (mergeText nodes) = children ∧
      textOfNodes (mergeText nodes) = (text.getD "").toList := by
  have hnil := textOfNodes_eq_nil h.areElements
  cases text with
  | none =>
    refine ⟨trees, nodes, h.content, h.resolved, ?_, ?_⟩
    · rw [mergeText_eq_self h.areElements, h.elements]
    · rw [mergeText_eq_self h.areElements, hnil]
      rfl
  | some text =>
    have hcontent := (isContent_escapeText (fun heq => hne (congrArg some heq))
      (hlegal text rfl)).append h.content h.markup
    have hresolved := resolve_escapeText scope text
    refine ⟨.text (escapeText text).toList :: trees,
      .text text.toList (escapeText text).toList [] :: nodes, ?_, ?_, ?_, ?_⟩
    · simpa [charsOf] using hcontent
    · simp [resolveAll, hresolved, h.resolved]
    · rw [mergeText_cons h.areElements]
      exact h.elements
    · rw [mergeText_cons h.areElements, textOfNodes, List.flatMap_cons, ← textOfNodes, hnil,
        List.append_nil]
      rfl

/-- An element without children and text is written as an empty tag. -/
theorem charsOf_markupIn_of_empty
    (h : (element.children.isEmpty && element.text.isNone) = true) :
    charsOf (markupIn outer element) = (tagIn outer element).empty.render := by
  obtain ⟨localName, uri, attributes, children, text⟩ := element
  have hempty : (children.isEmpty && text.isNone) = true := h
  simp only [markupIn, hempty, if_true, charsOf, List.flatMap_cons, List.flatMap_nil,
    List.append_nil, tagIn, Tag.empty, map_written_declarations, QName.text, Element.localName,
    Element.namespaceUri, Element.attributes, List.isEmpty_nil, String.ofList_toList]

/-- Any other element is written as its start tag, its text, its children and its end tag. -/
theorem charsOf_markupIn_of_not_empty
    (h : (element.children.isEmpty && element.text.isNone) = false) :
    charsOf (markupIn outer element) = (tagIn outer element).start.render ++
      (charsOf (element.text.map fun t => Markup.text (escapeText t)).toList ++
        charsOf (markupAll element.namespaceUri element.children)) ++
      (tagIn outer element).finish.render := by
  obtain ⟨localName, uri, attributes, children, text⟩ := element
  have hempty : (children.isEmpty && text.isNone) = false := h
  simp only [markupIn, hempty, Bool.false_eq_true, if_false, charsOf, List.flatMap_cons,
    List.flatMap_append, List.flatMap_nil, List.append_nil, List.append_assoc, tagIn, Tag.start,
    Tag.finish, map_written_declarations, QName.text, Element.localName, Element.namespaceUri,
    Element.attributes, Element.children, Element.text, List.isEmpty_nil, if_true,
    String.ofList_toList]

/-- What an element is written as begins with markup. -/
theorem startsMarkup_markupIn (outer : Option String) (element : Element) :
    StartsMarkup (charsOf (markupIn outer element)) := by
  cases h : element.children.isEmpty && element.text.isNone with
  | true =>
    rw [charsOf_markupIn_of_empty h]
    exact startsMarkup_cons
  | false =>
    rw [charsOf_markupIn_of_not_empty h, List.append_assoc]
    exact startsMarkup_cons

/-- An element is read as it is where its tag is resolved and its text and children are read. -/
theorem IsPortableIn.readsAs (h : IsPortableIn outer element) {scope : List Binding}
    {content : List Tree} {nodes : List Node} {opening closing : List Char}
    (hcontent : IsContent [.element (tagIn outer element) opening content closing]
      (charsOf (markupIn outer element)))
    (hresolved : resolve scope (.element (tagIn outer element) opening content closing) =
      some (.element element.namespaceUri element.localName element.attributes nodes
        opening closing))
    (hchildren : ofNodes nodes = element.children)
    (htext : textOfNodes nodes = (element.text.getD "").toList) :
    ReadsAs scope (charsOf (markupIn outer element)) [element]
      [.element (tagIn outer element) opening content closing]
      [.element element.namespaceUri element.localName element.attributes nodes
        opening closing] := by
  have hkept : keptText element.children (some (element.text.getD "")) = element.text := by
    have htext := h.textKept
    cases hcase : element.text with
    | none => rfl
    | some text => rwa [hcase] at htext
  have hself : ofNodes [.element element.namespaceUri element.localName element.attributes nodes
      opening closing] = [element] := by
    obtain ⟨localName, uri, attributes, children, text⟩ := element
    simp only [ofNodes, ofNode?, hchildren, htext, String.ofList_toList, hkept]
    rfl
  have hreads := ReadsAs.of_resolve hcontent (startsMarkup_markupIn outer element) hresolved
  rwa [hself] at hreads

/-- An element that can be written below its parent is read as it is there. -/
theorem Portable.exists_readsAs (h : Portable outer element) {scope : List Binding}
    (hscope : lookUp scope none = outer) :
    ∃ content nodes opening closing, ReadsAs scope (charsOf (markupIn outer element)) [element]
      [.element (tagIn outer element) opening content closing]
      [.element element.namespaceUri element.localName element.attributes nodes
        opening closing] := by
  induction h generalizing scope with
  | @node outer element h hchildren ih =>
    have hinner := h.lookUp_scopeIn hscope
    cases hempty : element.children.isEmpty && element.text.isNone with
    | true =>
      have hcontent := h.isWritable_tagIn.isContent_empty
      rw [← charsOf_markupIn_of_empty hempty] at hcontent
      obtain ⟨hnil, hnone⟩ := Bool.and_eq_true_iff.mp hempty
      have hnodes : resolveAll (scopeIn outer element scope) [] = some [] := rfl
      exact ⟨[], [], _, [], h.readsAs hcontent (h.resolve_tagIn hscope hnodes _ [])
        (List.isEmpty_iff.mp hnil).symm (by rw [Option.isNone_iff_eq_none.mp hnone]; rfl)⟩
    | false =>
      obtain ⟨trees, nodes, hreads⟩ := exists_readsAs_markupAll fun child hchild => by
        obtain ⟨content, nodes, opening, closing, hreads⟩ := ih child hchild hinner
        exact ⟨_, _, hreads⟩
      have hne := ne_some_empty_of_keptText h.textKept
      obtain ⟨content, nodes, hcontent, hnodes, hchildren, htext⟩ :=
        hreads.exists_inside hne h.textLegal
      have hwritten := h.isWritable_tagIn.isContent hcontent
      rw [← charsOf_markupIn_of_not_empty hempty] at hwritten
      exact ⟨content, mergeText nodes, _, _,
        h.readsAs hwritten (h.resolve_tagIn hscope hnodes _ _) hchildren htext⟩

/-! ## Elements without namespaces -/

/-- The names of functions and parameters are names in a document. -/
theorem isNamePart_of_isName {name : String} (h : isName name = true) :
    isNamePart name.toList = true := by
  have hstart {c : Char} (hc : isLetter c = true) : isNameStart c = true := by
    rw [isLetter] at hc
    simp only [isNameStart, hc, Bool.true_or]
  have hchar {c : Char} (hc : isNameCharacter c = true) : isNameChar c = true := by
    simp only [isNameCharacter, Text.isDigit, Bool.or_eq_true] at hc
    rcases hc with (((hc | hc) | hc) | hc) | hc
    · exact isNameChar_of_isNameStart (hstart hc)
    · simp only [isNameChar, hc, Bool.or_true, Bool.true_or]
    · simp only [isNameChar, isNameStart, hc, Bool.or_true, Bool.true_or]
    · simp only [isNameChar, hc, Bool.or_true, Bool.true_or]
    · simp only [isNameChar, hc, Bool.or_true, Bool.true_or]
  unfold isName at h
  split at h
  · cases h
  · next c rest heq =>
    obtain ⟨hc, hrest⟩ := Bool.and_eq_true_iff.mp h
    rw [heq, isNamePart, hstart hc, Bool.true_and, List.all_eq_true]
    exact fun d hd => hchar (List.all_eq_true.mp hrest d hd)

/-- An element that is in no namespace and has no attribute in one, with ordinary names and
texts that a document may hold. -/
structure IsPlain (element : Element) : Prop where
  namespaceUri : element.namespaceUri = none
  name : isName element.localName = true
  text : ∀ text ∈ element.text, isXmlText text = true
  attributes : ∀ candidate ∈ element.attributes, candidate.namespaceUri = none ∧
    isName candidate.localName = true ∧ candidate.localName ≠ "xmlns" ∧
    isXmlText candidate.value = true

/-- An element all of whose nodes are regular and plain can be written as a document. -/
theorem portable_of_every {element : Element} (hregular : element.Every IsRegular)
    (hplain : element.Every IsPlain) : Portable none element := by
  induction hregular with
  | @node element h hchildren ih =>
    have hself := hplain.test
    refine .node ⟨isNamePart_of_isName hself.name, .inl hself.namespaceUri, ?_, h.attributeKeys,
      hself.text, h.text⟩ fun child hchild => ?_
    · intro candidate hcandidate
      obtain ⟨huri, hname, hne, hvalue⟩ := hself.attributes candidate hcandidate
      exact ⟨isNamePart_of_isName hname, hne, by simp [huri], hvalue⟩
    · rw [hself.namespaceUri]
      exact ih child hchild (hplain.children child hchild)

end RemoteCall.Element
