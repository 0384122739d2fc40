import RemoteCall.Proofs.Xml.Legality

/-!
# Names that are read

The names of what is read from a document are proper ones, and the namespaces are such as a tag
may bind, but for that of the prefix `xml`, in which attributes may be. No attribute is called
`xmlns`, whatever its prefix: it is taken for a declaration instead.
-/

namespace RemoteCall.Xml

/-! ## Scopes -/

/-- The scope binds nothing to a namespace that a tag may not bind. -/
def IsSoundScope (scope : List Binding) : Prop :=
  ∀ binding ∈ scope, IsBindable binding.2

/-- Every namespace that is found in a sound scope is one that a tag may bind. -/
theorem IsSoundScope.isBindable_of_lookUp {scope : List Binding} (h : IsSoundScope scope)
    {name : Option (List Char)} {uri : String} (hlookUp : lookUp scope name = some uri) :
    IsBindable uri := by
  obtain ⟨binding, hfound, rfl⟩ := Option.map_eq_some_iff.mp hlookUp
  exact h binding (List.mem_of_find?_eq_some hfound)

/-- What a tag declares may be declared, so the scope inside it is as sound as the one outside. -/
theorem isSoundScope_of_bindingsOf {raws : List RawAttribute} {declarations : List Declared}
    {bindings scope : List Binding} (hdeclared : raws.mapM declared = some declarations)
    (hbindings : bindingsOf declarations = some bindings)
    (hlegal : ∀ raw ∈ raws, raw.value.all isXmlChar = true) (hscope : IsSoundScope scope) :
    IsSoundScope (bindings ++ scope) := by
  refine List.forall_mem_append.mpr ⟨fun binding hbinding => ?_, hscope⟩
  simp only [bindingsOf, Option.ite_none_right_eq_some, Option.some.injEq] at hbindings
  obtain ⟨-, rfl⟩ := hbindings
  obtain ⟨declaration, hdeclaration, hsome⟩ := List.mem_filterMap.mp hbinding
  obtain ⟨raw, hraw, hread⟩ := exists_of_mem_mapM hdeclared hdeclaration
  obtain ⟨value, hvalue, ⟨name, rfl, hxml, hxmlns⟩ | rfl | ⟨rfl, -⟩⟩ := declared_cases hread
  · cases hsome
    exact ⟨hxml, hxmlns, legal_of_attributeValue hvalue (hlegal raw hraw)⟩
  · cases hsome
  · cases hsome

/-- The namespace of an element is one that is bound, or none. -/
theorem IsSoundScope.isBindable_of_elementNamespace {scope : List Binding}
    (h : IsSoundScope scope) {name : QName} {uri? : Option String}
    (hname : elementNamespace scope name = some uri?) : ∀ uri ∈ uri?, IsBindable uri := by
  intro uri huri
  unfold elementNamespace at hname
  split at hname
  · cases hname
  · split at hname
    · cases hname
      exact h.isBindable_of_lookUp huri
    · obtain ⟨found, hfound, rfl⟩ := Option.map_eq_some_iff.mp hname
      cases huri
      exact h.isBindable_of_lookUp hfound

/-- The namespace of an attribute is one that is bound, that of the prefix `xml`, or none. -/
theorem IsSoundScope.isBindable_of_attributeNamespace {scope : List Binding}
    (h : IsSoundScope scope) {name : QName} {uri? : Option String}
    (hname : attributeNamespace scope name = some uri?) :
    ∀ uri ∈ uri?, uri = xmlNamespace ∨ IsBindable uri := by
  intro uri huri
  unfold attributeNamespace at hname
  split at hname
  · cases hname
    cases huri
  · split at hname
    · cases hname
      cases huri
      exact .inl rfl
    · obtain ⟨found, hfound, rfl⟩ := Option.map_eq_some_iff.mp hname
      cases huri
      exact .inr (h.isBindable_of_lookUp hfound)

/-! ## Attributes -/

/-- The name and the namespace are such as attributes that are read have them. -/
structure Attribute.IsNamed (candidate : Attribute) : Prop where
  name : isNamePart candidate.localName.toList = true
  name_ne : candidate.localName ≠ "xmlns"
  namespaceUri : ∀ uri ∈ candidate.namespaceUri, uri = xmlNamespace ∨ IsBindable uri

/-- No two attributes of an element have the same name in the same namespace. -/
theorem nodup_of_attributesOf {scope : List Binding} {declarations : List Declared}
    {attributes : List Attribute} (h : attributesOf scope declarations = some attributes) :
    (attributes.map fun candidate => (candidate.namespaceUri, candidate.localName)).Nodup := by
  simp only [attributesOf, Option.bind_eq_bind, Option.bind_eq_some_iff,
    Option.ite_none_right_eq_some, Option.some.injEq] at h
  obtain ⟨resolved, -, hnodup, rfl⟩ := h
  exact hnodup

/-- No attribute that is read is called `xmlns`. -/
theorem localName_ne_of_attributesOf {scope : List Binding} {raws : List RawAttribute}
    {declarations : List Declared} {attributes : List Attribute}
    (hdeclared : raws.mapM declared = some declarations)
    (h : attributesOf scope declarations = some attributes) :
    ∀ candidate ∈ attributes, candidate.localName ≠ "xmlns" := by
  intro candidate hcandidate heq
  obtain ⟨raw, -, hlocal, hname, -⟩ := exists_raw_of_attributesOf hdeclared h candidate hcandidate
  rw [hname] at heq
  exact hlocal (by rw [← heq, String.toList_ofList])

/-- The attributes that are read of a tag have proper names, in namespaces that are in scope. -/
theorem isNamed_of_attributesOf {scope : List Binding} {raws : List RawAttribute}
    {declarations : List Declared} {attributes : List Attribute}
    (hdeclared : raws.mapM declared = some declarations)
    (h : attributesOf scope declarations = some attributes)
    (hproper : ∀ raw ∈ raws, raw.name.IsProper) (hscope : IsSoundScope scope) :
    ∀ candidate ∈ attributes, candidate.IsNamed := by
  intro candidate hcandidate
  obtain ⟨raw, hraw, -, hname, huri, -⟩ :=
    exists_raw_of_attributesOf hdeclared h candidate hcandidate
  refine ⟨?_, localName_ne_of_attributesOf hdeclared h candidate hcandidate,
    hscope.isBindable_of_attributeNamespace huri⟩
  rw [hname, String.toList_ofList]
  exact (hproper raw hraw).2

/-! ## Nodes -/

/-- The names and namespaces in a node are such as nodes that are read have them. -/
inductive Node.IsNamed : Node → Prop
  | element {uri? : Option String} {name : String} {attributes : List Attribute}
      {children : List Node} {opening closing : List Char}
      (hname : isNamePart name.toList = true) (huri : ∀ uri ∈ uri?, IsBindable uri)
      (hattributes : ∀ candidate ∈ attributes, candidate.IsNamed)
      (hkeys : (attributes.map fun candidate =>
        (candidate.namespaceUri, candidate.localName)).Nodup)
      (hchildren : ∀ child ∈ children, IsNamed child) :
      IsNamed (.element uri? name attributes children opening closing)
  | text {content first later : List Char} : IsNamed (.text content first later)
  | aside {source : List Char} : IsNamed (.aside source)

/-- What a sound tree is resolved to in a sound scope has proper names. -/
theorem Tree.IsSound.isNamed_resolve {tree : Tree} (h : tree.IsSound) {scope : List Binding}
    {node : Node} (hscope : IsSoundScope scope) (hnode : Xml.resolve scope tree = some node) :
    node.IsNamed := by
  induction h generalizing scope node with
  | element htag hcontent ih =>
    obtain ⟨declarations, bindings, uri, attributes, children, hdeclared, hbindings, huri,
      hattributes, hchildren, rfl⟩ := resolve_element_eq_some_iff.mp hnode
    have hinner := isSoundScope_of_bindingsOf hdeclared hbindings htag.values hscope
    refine .element ?_ (hinner.isBindable_of_elementNamespace huri)
      (isNamed_of_attributesOf hdeclared hattributes htag.attributeNames hinner)
      (nodup_of_attributesOf hattributes)
      (forall_mem_mergeText (fun _ _ _ _ _ _ _ _ => .text) fun child hchild => ?_)
    · rw [String.toList_ofList]
      exact htag.name.2
    · rw [resolveAll_eq_mapM] at hchildren
      obtain ⟨tree, htree, hresolved⟩ := exists_of_mem_mapM hchildren hchild
      exact ih tree htree hinner hresolved
  | text =>
    simp only [Xml.resolve, Option.bind_eq_bind, Option.bind_eq_some_iff, Option.some.injEq]
      at hnode
    obtain ⟨_, -, rfl⟩ := hnode
    exact .text
  | characterData =>
    cases hnode
    exact .text
  | aside =>
    cases hnode
    exact .aside

/-- Whatever is read from a document has proper names. -/
theorem isNamed_of_parse? {text : String} {root : Node} (h : parse? text = some root) :
    root.IsNamed := by
  simp only [parse?, Option.bind_eq_bind, Option.bind_eq_some_iff] at h
  obtain ⟨tree, htree, hroot⟩ := h
  exact (isSound_of_readTree htree).isNamed_resolve (by simp [IsSoundScope]) hroot

end RemoteCall.Xml
