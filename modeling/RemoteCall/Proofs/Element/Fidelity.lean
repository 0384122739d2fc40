import RemoteCall.Element.Equality
import RemoteCall.Proofs.Element.Tree
import RemoteCall.Proofs.Xml.Names

/-!
# Elements that are read as they were written

An element that can stand in a document is read without any difference. Conversely, where the
element that is read is the same one, attributes in another order aside, it could stand in a
document. So what keeps an element with legal names and texts from being read as it was written
can be told from its nodes: attributes that are taken for declarations or are in a reserved
namespace, and children that would have to leave the namespace of their parent for none.
-/

namespace RemoteCall.Element

open Xml

/-! ## Equality -/

mutual

/-- An element is the same as itself. -/
theorem same_self : (element : Element) → same element element = true
  | .mk _ _ _ children _ => by simp [same, sameAll_self children]

/-- Elements in a row are the same as themselves. -/
theorem sameAll_self : (elements : List Element) → sameAll elements elements = true
  | [] => rfl
  | first :: rest => by simp [sameAll, same_self first, sameAll_self rest]

end

/-- Attributes that are the same once sorted are the same but for their order. -/
theorem perm_of_sortedAttributes_eq {attributes attributes' : List Attribute}
    (h : sortedAttributes attributes = sortedAttributes attributes') :
    attributes.Perm attributes' := by
  have hfirst := List.mergeSort_perm attributes attributeLe
  have hsecond := List.mergeSort_perm attributes' attributeLe
  rw [sortedAttributes, sortedAttributes] at h
  rw [h] at hfirst
  exact hfirst.symm.trans hsecond

/-- Elements that are the same agree in the namespace, in the attributes up to their order, and
in the children. -/
theorem parts_of_same {element element' : Element} (h : same element element' = true) :
    element.namespaceUri = element'.namespaceUri ∧
      element.attributes.Perm element'.attributes ∧
      sameAll element.children element'.children = true := by
  obtain ⟨name, uri, attributes, children, text⟩ := element
  obtain ⟨name', uri', attributes', children', text'⟩ := element'
  simp only [same, Bool.and_eq_true, decide_eq_true_eq] at h
  obtain ⟨⟨⟨⟨-, huri⟩, -⟩, hattributes⟩, hchildren⟩ := h
  exact ⟨huri, perm_of_sortedAttributes_eq hattributes, hchildren⟩

/-! ## Children -/

/-- Merging texts leaves the elements between them as they are. -/
theorem ofNodes_mergeText (nodes : List Node) : ofNodes (mergeText nodes) = ofNodes nodes := by
  induction nodes with
  | nil => rfl
  | cons first rest ih =>
    unfold mergeText
    split
    · next heq =>
      -- both texts are no elements
      rw [heq] at ih
      simpa [ofNodes, ofNode?] using ih
    · rw [ofNodes, ofNodes, ih]

/-- The children are read from their own trees, the text beside them left out. -/
theorem exists_resolveAll_treesIn {scope : List Binding} {element : Element} {nodes : List Node}
    (h : resolveAll scope element.inside = some nodes) :
    ∃ nodes', resolveAll scope (treesIn element.namespaceUri element.children) = some nodes' ∧
      ofNodes nodes = ofNodes nodes' := by
  rw [inside] at h
  cases htext : element.text with
  | none =>
    rw [htext] at h
    exact ⟨nodes, h, rfl⟩
  | some text =>
    rw [htext] at h
    simp only [Option.map_some, Option.toList_some, List.cons_append, List.nil_append,
      resolveAll, resolve_escapeText, Option.bind_eq_bind, Option.bind_some,
      Option.bind_eq_some_iff, Option.some.injEq] at h
    obtain ⟨nodes', hnodes', rfl⟩ := h
    exact ⟨nodes', hnodes', rfl⟩

/-- Each child is read as the same child, if they are the same one by one. -/
theorem exists_of_sameAll {outer : Option String} {scope : List Binding} {elements : List Element}
    {nodes : List Node} (h : resolveAll scope (treesIn outer elements) = some nodes)
    (hsame : sameAll (ofNodes nodes) elements = true) :
    ∀ element ∈ elements, ∃ node again, resolve scope (treeIn outer element) = some node ∧
      ofNode? node = some again ∧ same again element = true := by
  induction elements generalizing nodes with
  | nil => simp
  | cons first rest ih =>
    simp only [treesIn, resolveAll, Option.bind_eq_bind, Option.bind_eq_some_iff,
      Option.some.injEq] at h
    obtain ⟨node, hnode, later, hlater, rfl⟩ := h
    obtain ⟨opening, closing, htree⟩ := exists_treeIn_eq outer first
    have hresolved := hnode
    rw [htree] at hresolved
    obtain ⟨_, _, uri, attributes, children, -, -, -, -, -, rfl⟩ :=
      resolve_element_eq_some_iff.mp hresolved
    simp only [ofNodes, ofNode?, sameAll, Bool.and_eq_true] at hsame
    obtain ⟨hfirst, hrest⟩ := hsame
    exact List.forall_mem_cons.mpr ⟨⟨_, _, hnode, rfl, hfirst⟩, ih hlater hrest⟩

/-! ## Tags -/

/-- An attribute in a namespace binds a numbered prefix to it. -/
theorem exists_binding_of_mem {attributes : List Attribute} {candidate : Attribute}
    (h : candidate ∈ attributes) {uri : String} (huri : candidate.namespaceUri = some uri)
    (index : Nat) : ∃ later, .binding (some (numberedPrefix later), uri) ∈
      attributeDeclarations index attributes := by
  induction attributes generalizing index with
  | nil => cases h
  | cons first rest ih =>
    obtain ⟨uri' | uri', name, value⟩ := first
    · rcases List.mem_cons.mp h with rfl | hrest
      · cases huri
      · obtain ⟨later, hlater⟩ := ih hrest index
        exact ⟨later, List.mem_cons_of_mem _ hlater⟩
    · rcases List.mem_cons.mp h with rfl | hrest
      · cases huri
        exact ⟨index, List.mem_cons_self⟩
      · obtain ⟨later, hlater⟩ := ih hrest (index + 1)
        exact ⟨later, List.mem_cons_of_mem _ (List.mem_cons_of_mem _ hlater)⟩

/-- A numbered prefix is not bound to a reserved namespace. -/
theorem isBindable_of_declared {index : Nat} {uri : String} {found : Declared}
    (h : declared (Declared.binding (some (numberedPrefix index), uri)).raw = some found)
    (hlegal : isXmlText uri = true) : IsBindable uri := by
  have hxml : numberedPrefix index ≠ "xml".toList := by simp [numberedPrefix_eq]
  have hvalue := attributeValue_escapeAttribute uri
  rw [raw_prefixed] at h
  simp only [declared, hvalue, Option.bind_eq_bind, Option.bind_some, if_true, if_neg hxml] at h
  split at h
  · cases h
  · next hxmlns =>
    split at h
    · cases h
    · next hne => exact ⟨hne, hxmlns, hlegal⟩

variable {outer : Option String} {element again : Element} {scope : List Binding}

/-- Attributes that are read as they were written are not taken for declarations, and their
prefixes are bound. -/
theorem IsLegible.isPortableAttribute (h : element.IsLegible) {found : List Declared}
    {attributes : List Attribute}
    (hdeclared : (tagIn outer element).attributes.mapM declared = some found)
    (hread : attributesOf scope found = some attributes)
    (hattributes : attributes.Perm element.attributes) :
    ∀ candidate ∈ element.attributes, IsPortableAttribute candidate := by
  intro candidate hcandidate
  obtain ⟨hname, hlegal, hvalue⟩ := h.attributes candidate hcandidate
  have hne := localName_ne_of_attributesOf hdeclared hread candidate
    (hattributes.mem_iff.mpr hcandidate)
  refine ⟨hname, hne, fun uri huri => ?_, hvalue⟩
  obtain ⟨later, hmem⟩ := exists_binding_of_mem hcandidate huri 0
  obtain ⟨image, himage⟩ := exists_image_of_mem_mapM hdeclared
    (List.mem_map_of_mem (List.mem_append_right _ hmem))
  exact isBindable_of_declared himage (hlegal uri huri)

/-- With such attributes a tag makes the scope that it was written to make, in which its own name
is in the namespace of the element, or in the empty one where the element leaves that of its
parent for none. -/
theorem IsLegible.scope_and_uri (h : element.IsLegible) (hscope : lookUp scope none = outer)
    (hportable : ∀ candidate ∈ element.attributes, IsPortableAttribute candidate)
    {found : List Declared} {bindings : List Binding} {uri : Option String}
    (hdeclared : (tagIn outer element).attributes.mapM declared = some found)
    (hbindings : bindingsOf found = some bindings)
    (huri : elementNamespace (bindings ++ scope) (tagIn outer element).name = some uri) :
    bindings ++ scope = scopeIn outer element scope ∧
      uri = if element.namespaceUri = outer then outer
        else some (element.namespaceUri.getD "") := by
  have hproper : ∀ declaration ∈ declarations outer element.namespaceUri element.attributes,
      declaration.IsProper := isProper_declarations (fun _ => h.namespaceUri) hportable
  have hmade := mapM_declared_raw hproper
  obtain rfl : declarations outer element.namespaceUri element.attributes = found :=
    Option.some.inj (hmade.symm.trans hdeclared)
  obtain rfl : bindingsIn (declarations outer element.namespaceUri element.attributes) =
      bindings := Option.some.inj ((if_pos (nodup_prefixes_declarations ..)).symm.trans hbindings)
  have hname : elementNamespace (scopeIn outer element scope) (tagIn outer element).name =
      some (lookUp (scopeIn outer element scope) none) := by
    simp [elementNamespace, tagIn]
  rw [← scopeIn, hname, lookUp_scopeIn_eq hscope, Option.some.injEq] at huri
  exact ⟨rfl, huri.symm⟩

/-- An element that is read with its namespace and its attributes can stand where it was read,
if its children can, which are read in the scope that its tag makes. -/
theorem IsLegible.isPortableIn (h : element.IsLegible) (hscope : lookUp scope none = outer)
    {content : List Tree} {opening closing : List Char} {node : Node}
    (hresolved : resolve scope (.element (tagIn outer element) opening content closing) =
      some node)
    (hagain : ofNode? node = some again) (huri : again.namespaceUri = element.namespaceUri)
    (hattributes : again.attributes.Perm element.attributes) :
    IsPortableIn outer element ∧ ∃ nodes,
      resolveAll (scopeIn outer element scope) content = some nodes ∧
        again.children = ofNodes nodes := by
  obtain ⟨found, bindings, uri, attributes, nodes, hdeclared, hbindings, hname, hread, hnodes,
    rfl⟩ := resolve_element_eq_some_iff.mp hresolved
  cases hagain
  have hportable := h.isPortableAttribute hdeclared hread hattributes
  obtain ⟨hinner, heq⟩ := h.scope_and_uri hscope hportable hdeclared hbindings hname
  rw [hinner] at hnodes
  refine ⟨⟨h.name, ?_, hportable, h.attributeKeys, h.textLegal, h.textKept⟩, nodes, hnodes,
    ofNodes_mergeText nodes⟩
  by_cases hleft : element.namespaceUri = outer
  · exact .inl hleft
  · rw [if_neg hleft] at heq
    have hsome : element.namespaceUri = some (element.namespaceUri.getD "") :=
      huri.symm.trans heq
    exact .inr ⟨_, hsome, h.namespaceUri _ hsome⟩

/-- An element that is read as the same one can stand where it was read. -/
theorem portable_of_same (h : element.Every IsLegible) (hscope : lookUp scope none = outer)
    {node : Node} (hresolved : resolve scope (treeIn outer element) = some node)
    (hagain : ofNode? node = some again) (hsame : same again element = true) :
    Portable outer element := by
  induction h generalizing outer scope node again with
  | @node element hself _ ih =>
    obtain ⟨opening, closing, htree⟩ := exists_treeIn_eq outer element
    rw [htree] at hresolved
    obtain ⟨huri, hattributes, hchildren⟩ := parts_of_same hsame
    obtain ⟨hportable, nodes, hnodes, heq⟩ :=
      hself.isPortableIn hscope hresolved hagain huri hattributes
    obtain ⟨nodes', hnodes', hofNodes⟩ := exists_resolveAll_treesIn hnodes
    rw [heq, hofNodes] at hchildren
    refine .node hportable fun child hchild => ?_
    obtain ⟨node, again, hresolved, hagain, hsame⟩ := exists_of_sameAll hnodes' hchildren child hchild
    exact ih child hchild (hportable.lookUp_scopeIn hscope) hresolved hagain hsame

/-! ## Namespaces that are kept -/

/-- No child is in no namespace, unless the element is in none either. -/
def KeepsNamespaces (element : Element) : Prop :=
  element.namespaceUri ≠ none → ∀ child ∈ element.children, child.namespaceUri ≠ none

/-- What an element must be, besides legible, for its tag to declare what it is to declare. -/
structure IsSteady (element : Element) : Prop where
  names : ∀ candidate ∈ element.attributes, candidate.localName ≠ "xmlns"
  namespaces : ∀ candidate ∈ element.attributes, ∀ uri ∈ candidate.namespaceUri, IsBindable uri
  children : KeepsNamespaces element

/-- An element with legal names and texts can be written in its place if its own namespace can be
left off there and all its tags declare what they are to declare. -/
theorem portable_iff (h : element.Every IsLegible) :
    Portable outer element ↔
      (outer ≠ none → element.namespaceUri ≠ none) ∧ element.Every IsSteady := by
  induction h generalizing outer with
  | @node element hself _ ih =>
    constructor
    · rintro ⟨hportable, hchildren⟩
      have hleft : outer ≠ none → element.namespaceUri ≠ none := by
        intro houter
        rcases hportable.namespaceUri with heq | ⟨uri, heq, -⟩
        · rwa [heq]
        · simp [heq]
      have hkept (child : Element) (hchild : child ∈ element.children) :=
        (ih child hchild).mp (hchildren child hchild)
      refine ⟨hleft, .node ⟨?_, ?_, ?_⟩ fun child hchild => (hkept child hchild).2⟩
      · exact fun candidate hcandidate => (hportable.attributes candidate hcandidate).name_ne
      · exact fun candidate hcandidate => (hportable.attributes candidate hcandidate).namespaceUri
      · exact fun hne child hchild => (hkept child hchild).1 hne
    · rintro ⟨hleft, hsteady⟩
      obtain ⟨hnames, hnamespaces, hkeeps⟩ := hsteady.test
      have hattributes : ∀ candidate ∈ element.attributes, IsPortableAttribute candidate := by
        intro candidate hcandidate
        have hlegible := hself.attributes candidate hcandidate
        exact ⟨hlegible.name, hnames candidate hcandidate, hnamespaces candidate hcandidate,
          hlegible.value⟩
      have huri : element.namespaceUri = outer ∨
          ∃ uri, element.namespaceUri = some uri ∧ IsBindable uri := by
        cases hcase : element.namespaceUri with
        | some uri => exact .inr ⟨uri, rfl, hself.namespaceUri uri hcase⟩
        | none =>
          cases outer with
          | none => exact .inl rfl
          | some uri => exact absurd hcase (hleft (by simp))
      refine .node ⟨hself.name, huri, hattributes, hself.attributeKeys, hself.textLegal,
        hself.textKept⟩ fun child hchild => ?_
      exact (ih child hchild).mpr ⟨fun hne => hkeeps hne child hchild, hsteady.children child hchild⟩

/-- What the element is written as is read as the same element. -/
def RoundTrips (element : Element) : Prop :=
  ∃ again, parse element.toXml = .ok again ∧ (again == element) = true

/-- An element with legal names and texts is read as the same one if and only if all its tags
declare what they are to declare, and then without any difference. -/
theorem roundTrips_iff_isSteady (h : element.Every IsLegible) :
    (element.RoundTrips ↔ element.Every IsSteady) ∧
      (element.Every IsSteady → parse element.toXml = .ok element) := by
  have hportable : Portable none element ↔ element.Every IsSteady := by
    have hiff : Portable none element ↔ _ := portable_iff h
    simpa using hiff
  have hread : element.Every IsSteady → parse element.toXml = .ok element :=
    fun hsteady => parse_toXml (hportable.mpr hsteady)
  refine ⟨⟨?_, fun hsteady => ⟨element, hread hsteady, same_self element⟩⟩, hread⟩
  rintro ⟨again, hparse, hsame⟩
  obtain ⟨node, hresolved, hagain⟩ := (parse_toXml_eq_ok_iff h).mp hparse
  exact hportable.mp (portable_of_same h rfl hresolved hagain hsame)

end RemoteCall.Element
