import RemoteCall.Proofs.Element.RoundTrip

/-!
# Trees that elements are written as

An element with legal names and texts is written as a tree, whatever is found later of its
namespaces. What is read of it is what the tree is resolved to, so nothing but the resolution of
its names can come between the element that is written and the one that is read.
-/

namespace RemoteCall.Element

open Xml

/-- What an attribute must be for the tag that it is written in to be one. -/
structure IsLegibleAttribute (candidate : Attribute) : Prop where
  name : isNamePart candidate.localName.toList = true
  namespaceUri : ∀ uri ∈ candidate.namespaceUri, isXmlText uri = true
  value : isXmlText candidate.value = true

/-- What an element must be to be written as a tree, leaving aside whether its attributes are
taken for declarations, and what its parent is. -/
structure IsLegible (element : Element) : Prop where
  name : isNamePart element.localName.toList = true
  namespaceUri : ∀ uri ∈ element.namespaceUri, IsBindable uri
  attributes : ∀ candidate ∈ element.attributes, IsLegibleAttribute candidate
  attributeKeys : (element.attributes.map attributeKey).Nodup
  textLegal : ∀ text ∈ element.text, isXmlText text = true
  textKept : keptText element.children element.text = element.text

/-! ## The tree -/

mutual

/-- The tree that an element is written as below a parent in the namespace `outer`. -/
def treeIn (outer : Option String) : Element → Tree
  | .mk name uri attributes children text =>
    let tag := tagIn outer (.mk name uri attributes children text)
    let inside := (text.map fun t => Tree.text (escapeText t).toList).toList ++
      treesIn uri children
    if children.isEmpty && text.isNone then .element tag tag.empty.render inside []
    else .element tag tag.start.render inside tag.finish.render

/-- The trees that elements are written as below a parent in the namespace `outer`. -/
def treesIn (outer : Option String) : List Element → List Tree
  | [] => []
  | element :: rest => treeIn outer element :: treesIn outer rest

end

/-- The trees between the tags of an element: its text and its children. -/
def inside (element : Element) : List Tree :=
  (element.text.map fun t => Tree.text (escapeText t).toList).toList ++
    treesIn element.namespaceUri element.children

/-- An element without children and text is a tree without closing characters. -/
theorem treeIn_of_empty {outer : Option String} {element : Element}
    (h : (element.children.isEmpty && element.text.isNone) = true) :
    treeIn outer element =
      .element (tagIn outer element) (tagIn outer element).empty.render [] [] := by
  obtain ⟨name, uri, attributes, children, text⟩ := element
  have hempty : (children.isEmpty && text.isNone) = true := h
  obtain ⟨hchildren, htext⟩ := Bool.and_eq_true_iff.mp hempty
  obtain rfl := List.isEmpty_iff.mp hchildren
  obtain rfl := Option.isNone_iff_eq_none.mp htext
  rfl

/-- Any other element is a tree of its two tags and what is between them. -/
theorem treeIn_of_not_empty {outer : Option String} {element : Element}
    (h : (element.children.isEmpty && element.text.isNone) = false) :
    treeIn outer element =
      .element (tagIn outer element) (tagIn outer element).start.render element.inside
        (tagIn outer element).finish.render := by
  obtain ⟨name, uri, attributes, children, text⟩ := element
  have hempty : (children.isEmpty && text.isNone) = false := h
  simp only [treeIn, hempty, Bool.false_eq_true, if_false]
  rfl

/-- Either way, the tree of an element has its tag, and between the tags its text and its children.
-/
theorem exists_treeIn_eq (outer : Option String) (element : Element) :
    ∃ opening closing, treeIn outer element =
      .element (tagIn outer element) opening element.inside closing := by
  cases hempty : element.children.isEmpty && element.text.isNone with
  | true =>
    obtain ⟨hchildren, htext⟩ := Bool.and_eq_true_iff.mp hempty
    have hinside : element.inside = [] := by
      rw [inside, List.isEmpty_iff.mp hchildren, Option.isNone_iff_eq_none.mp htext]
      rfl
    exact ⟨_, _, by rw [treeIn_of_empty hempty, hinside]⟩
  | false => exact ⟨_, _, treeIn_of_not_empty hempty⟩

/-! ## Writing -/

/-- What attributes with legal names and values declare can be written. -/
theorem isWritable_attributeDeclarations {attributes : List Attribute}
    (h : ∀ candidate ∈ attributes, IsLegibleAttribute candidate) (index : Nat) :
    ∀ declaration ∈ attributeDeclarations index attributes, declaration.raw.IsWritable := by
  induction attributes generalizing index with
  | nil => simp [attributeDeclarations]
  | cons first rest ih =>
    obtain ⟨hfirst, hrest⟩ := List.forall_mem_cons.mp h
    obtain ⟨uri | uri, name, value⟩ := first
    · have hplain : (Declared.plain ⟨[], name.toList⟩ value).raw.IsWritable :=
        isWritable_plain ⟨rfl, hfirst.name⟩ hfirst.value
      exact List.forall_mem_cons.mpr ⟨hplain, ih hrest index⟩
    · have hpart := isNamePart_numberedPrefix index
      have hbinding : (Declared.binding (some (numberedPrefix index), uri)).raw.IsWritable :=
        isWritable_binding (by simpa using hpart) (hfirst.namespaceUri uri rfl)
      have hplain : (Declared.plain ⟨numberedPrefix index, name.toList⟩ value).raw.IsWritable :=
        isWritable_plain ⟨by rw [hpart, Bool.or_true], hfirst.name⟩ hfirst.value
      exact List.forall_mem_cons.mpr
        ⟨hbinding, List.forall_mem_cons.mpr ⟨hplain, ih hrest (index + 1)⟩⟩

/-- The tag of an element with legal names and texts can be written, whatever its parent. -/
theorem IsLegible.isWritable_tagIn {element : Element} (h : element.IsLegible)
    (outer : Option String) : (tagIn outer element).IsWritable := by
  refine ⟨⟨rfl, h.name⟩, fun raw hraw => ?_⟩
  obtain ⟨declaration, hmem, rfl⟩ := List.mem_map.mp hraw
  rcases List.mem_append.mp hmem with hmem | hmem
  · split at hmem
    · cases hmem
    · obtain rfl := List.mem_singleton.mp hmem
      refine isWritable_binding (by simp) ?_
      cases huri : element.namespaceUri with
      | none => rfl
      | some uri => exact (h.namespaceUri uri huri).2.2
  · exact isWritable_attributeDeclarations h.attributes 0 declaration hmem

/-- What elements in a row are written as begins with markup. -/
theorem startsMarkup_markupAll (outer : Option String) (elements : List Element) :
    StartsMarkup (charsOf (markupAll outer elements)) := by
  induction elements with
  | nil => simp [markupAll, charsOf, StartsMarkup, Stops]
  | cons first rest ih =>
    rw [markupAll, charsOf_append]
    exact (startsMarkup_markupIn outer first).append ih

/-- If each element is written as its tree, so are all of them in a row. -/
theorem isContent_treesIn {outer : Option String} {elements : List Element}
    (h : ∀ element ∈ elements,
      IsContent [treeIn outer element] (charsOf (markupIn outer element))) :
    IsContent (treesIn outer elements) (charsOf (markupAll outer elements)) := by
  induction elements with
  | nil => exact .nil
  | cons first rest ih =>
    obtain ⟨hfirst, hrest⟩ := List.forall_mem_cons.mp h
    rw [markupAll, charsOf_append]
    exact hfirst.append (ih hrest) (startsMarkup_markupAll outer rest)

/-- What an element with legal names and texts is written as is its tree. -/
theorem isContent_treeIn {element : Element} (h : element.Every IsLegible)
    (outer : Option String) :
    IsContent [treeIn outer element] (charsOf (markupIn outer element)) := by
  induction h generalizing outer with
  | @node element h _ ih =>
    have htag := h.isWritable_tagIn outer
    cases hempty : element.children.isEmpty && element.text.isNone with
    | true =>
      rw [treeIn_of_empty hempty, charsOf_markupIn_of_empty hempty]
      exact htag.isContent_empty
    | false =>
      rw [treeIn_of_not_empty hempty, charsOf_markupIn_of_not_empty hempty]
      refine htag.isContent ?_
      have hchildren := isContent_treesIn fun child hchild => ih child hchild element.namespaceUri
      have hmarkup := startsMarkup_markupAll element.namespaceUri element.children
      rw [inside]
      cases htext : element.text with
      | none => exact hchildren
      | some text =>
        have hne : text ≠ "" := by
          rintro rfl
          exact ne_some_empty_of_keptText h.textKept htext
        have hcontent := (isContent_escapeText hne (h.textLegal text htext)).append hchildren hmarkup
        simpa [charsOf] using hcontent

/-! ## Reading -/

/-- What is read of an element is what its tree is resolved to. -/
theorem parse_toXml_eq_ok_iff {element again : Element} (h : element.Every IsLegible) :
    parse element.toXml = .ok again ↔
      ∃ node, resolve [] (treeIn none element) = some node ∧ ofNode? node = some again := by
  have hcontent := isContent_treeIn h none
  have hlegal : element.toXml.toList.all isXmlChar = true := by
    rw [element.toList_toXml]
    exact hcontent.legal
  have hprolog := skipProlog_toXml h.test.name
  rw [element.toList_toXml] at hprolog
  obtain ⟨opening, closing, htree⟩ := exists_treeIn_eq none element
  rw [htree] at hcontent
  have hread := readTree_of_isContent hlegal (element.toList_toXml ▸ hprolog) hcontent
  rw [parse, Xml.parse?, hread, Option.bind_eq_bind, Option.bind_some, ← htree,
    ← Option.bind_eq_some_iff]
  cases (resolve [] (treeIn none element)).bind ofNode? <;> simp

end RemoteCall.Element
