import RemoteCall.Proofs.Xml.Content
import RemoteCall.Xml.Document

/-!
# Namespace declarations that are written

A tag is written from what its attributes are to declare. They are read as declared if
their values are escaped, and names under a prefix are found in the namespace that the tag
binds it to.
-/

namespace RemoteCall.Xml

/-- An element is resolved in five steps: its declarations, what they bind, its namespace, its
attributes, its content. All of them have to succeed, and the last three see what the element itself
binds. -/
theorem resolve_element_eq_some_iff {scope : List Binding} {tag : Tag} {content : List Tree}
    {opening closing : List Char} {node : Node} :
    resolve scope (.element tag opening content closing) = some node ↔
      ∃ declarations bindings uri attributes children,
        tag.attributes.mapM declared = some declarations ∧
        bindingsOf declarations = some bindings ∧
        elementNamespace (bindings ++ scope) tag.name = some uri ∧
        attributesOf (bindings ++ scope) declarations = some attributes ∧
        resolveAll (bindings ++ scope) content = some children ∧
        node = .element uri (String.ofList tag.name.localPart) attributes (mergeText children)
          opening closing := by
  simp only [resolve, Option.bind_eq_bind, Option.bind_eq_some_iff, Option.some.injEq]
  constructor
  · rintro ⟨declarations, hdeclared, bindings, hbindings, uri, huri, attributes, hattributes,
      children, hchildren, rfl⟩
    exact ⟨declarations, bindings, uri, attributes, children, hdeclared, hbindings, huri,
      hattributes, hchildren, rfl⟩
  · rintro ⟨declarations, bindings, uri, attributes, children, hdeclared, hbindings, huri,
      hattributes, hchildren, rfl⟩
    exact ⟨declarations, hdeclared, bindings, hbindings, uri, huri, attributes, hattributes,
      children, hchildren, rfl⟩

/-- Nodes in a row are resolved one by one. -/
theorem resolveAll_append {scope : List Binding} {first second : List Tree}
    {nodes nodes' : List Node} (h : resolveAll scope first = some nodes)
    (h' : resolveAll scope second = some nodes') :
    resolveAll scope (first ++ second) = some (nodes ++ nodes') := by
  induction first generalizing nodes with
  | nil =>
    cases h
    exact h'
  | cons tree first ih =>
    simp only [resolveAll, Option.bind_eq_bind, Option.bind_eq_some_iff, Option.some.injEq] at h
    obtain ⟨node, hnode, rest, hrest, rfl⟩ := h
    simp [resolveAll, hnode, ih hrest]

/-- An element that is all of the content after the declaration is the root that is parsed. -/
theorem parse?_of_isContent {text : String} {source : List Char} {tag : Tag}
    {content : List Tree} {opening closing : List Char} {node : Node}
    (hlegal : text.toList.all isXmlChar = true) (hbody : skipProlog text.toList = some source)
    (hcontent : IsContent [.element tag opening content closing] source)
    (hnode : resolve [] (.element tag opening content closing) = some node) :
    parse? text = some node := by
  rw [parse?, readTree_of_isContent hlegal hbody hcontent]
  exact hnode

/-! ## Declaring -/

/-- Whether a tag may bind a prefix to the namespace. -/
def IsBindable (uri : String) : Prop :=
  uri ≠ xmlNamespace ∧ uri ≠ xmlnsNamespace ∧ isXmlText uri = true

instance (uri : String) : Decidable (IsBindable uri) :=
  inferInstanceAs (Decidable (_ ∧ _ ∧ _))

/-- The attribute that declares as much. -/
def Declared.raw : Declared → RawAttribute
  | .binding (none, uri) => ⟨⟨[], "xmlns".toList⟩, (escapeAttribute uri).toList⟩
  | .binding (some name, uri) => ⟨⟨"xmlns".toList, name⟩, (escapeAttribute uri).toList⟩
  | .idle => ⟨⟨"xmlns".toList, "xml".toList⟩, (escapeAttribute xmlNamespace).toList⟩
  | .plain name value => ⟨name, (escapeAttribute value).toList⟩

/-- The namespace of names without a prefix is declared by `xmlns`. -/
theorem raw_default (uri : String) :
    (Declared.binding (none, uri)).raw = ⟨⟨[], "xmlns".toList⟩, (escapeAttribute uri).toList⟩ :=
  rfl

/-- The namespace of a prefix is declared by an attribute with the prefix `xmlns`. -/
theorem raw_prefixed (name : List Char) (uri : String) :
    (Declared.binding (some name, uri)).raw =
      ⟨⟨"xmlns".toList, name⟩, (escapeAttribute uri).toList⟩ := rfl

/-- An attribute that declares nothing is written under its own name. -/
theorem raw_plain (name : QName) (value : String) :
    (Declared.plain name value).raw = ⟨name, (escapeAttribute value).toList⟩ := rfl

/-- What an attribute can be written to declare. -/
inductive Declared.IsProper : Declared → Prop
  | default {uri : String} (huri : IsBindable uri) : IsProper (.binding (none, uri))
  | prefixed {name : List Char} {uri : String} (hname : isNamePart name = true)
      (hxml : name ≠ "xml".toList) (huri : IsBindable uri) : IsProper (.binding (some name, uri))
  | plain {name : QName} {value : String} (hname : name.IsProper)
      (hscope : name.scope ≠ "xmlns".toList) (hlocal : name.localPart ≠ "xmlns".toList)
      (hvalue : isXmlText value = true) : IsProper (.plain name value)

/-- A declaration of any legal namespace can be written. -/
theorem isWritable_binding {scope : Option (List Char)} {uri : String}
    (hscope : ∀ part ∈ scope, isNamePart part = true) (huri : isXmlText uri = true) :
    (Declared.binding (scope, uri)).raw.IsWritable := by
  have hxmlns : isNamePart "xmlns".toList = true := by decide
  have hconfined := isConfined_escapeAttributeChar.forall_mem_escaped huri
  cases scope with
  | none => exact isWritable_mk.mpr ⟨⟨rfl, hxmlns⟩, hconfined⟩
  | some part =>
    rw [raw_prefixed]
    exact isWritable_mk.mpr ⟨⟨by rw [hxmlns, Bool.or_true], hscope part rfl⟩, hconfined⟩

/-- An attribute of a proper name and any legal value can be written. -/
theorem isWritable_plain {name : QName} {value : String} (hname : name.IsProper)
    (hvalue : isXmlText value = true) : (Declared.plain name value).raw.IsWritable := by
  rw [raw_plain]
  exact isWritable_mk.mpr ⟨hname, isConfined_escapeAttributeChar.forall_mem_escaped hvalue⟩

/-- Whatever can be declared can be written. -/
theorem Declared.IsProper.isWritable {declaration : Declared} (h : declaration.IsProper) :
    declaration.raw.IsWritable := by
  cases h with
  | default huri => exact isWritable_binding (by simp) huri.2.2
  | prefixed hname hxml huri => exact isWritable_binding (by simpa using hname) huri.2.2
  | plain hname hscope hlocal hvalue => exact isWritable_plain hname hvalue

/-- An attribute that has nothing to do with namespaces is plain. -/
theorem declared_eq_plain {name : QName} {raw : List Char} {value : String}
    (hvalue : attributeValue raw = some value) (hscope : name.scope ≠ "xmlns".toList)
    (hlocal : name.localPart ≠ "xmlns".toList) :
    declared ⟨name, raw⟩ = some (.plain name value) := by
  simp only [declared, hvalue, Option.bind_eq_bind, Option.bind_some, if_neg hscope,
    if_neg hlocal]

/-- What is written of a declaration is read as that declaration. -/
theorem Declared.IsProper.declared_raw {declaration : Declared} (h : declaration.IsProper) :
    declared declaration.raw = some declaration := by
  cases h with
  | @default uri huri =>
    have hvalue := attributeValue_escapeAttribute uri
    have hscope : [] ≠ "xmlns".toList := by simp
    rw [raw_default]
    simp only [declared, hvalue, Option.bind_eq_bind, Option.bind_some, if_neg hscope, huri.1,
      huri.2.1, or_self, if_true, if_false]
  | @prefixed name uri hname hxml huri =>
    have hvalue := attributeValue_escapeAttribute uri
    rw [raw_prefixed]
    simp only [declared, hvalue, Option.bind_eq_bind, Option.bind_some, if_true, if_neg huri.1,
      if_neg huri.2.1, if_neg hxml]
  | @plain name value hname hscope hlocal hvalue =>
    rw [raw_plain]
    exact declared_eq_plain (attributeValue_escapeAttribute value) hscope hlocal

/-- Declarations that are written in a tag are all read as they are. -/
theorem mapM_declared_raw {declarations : List Declared}
    (h : ∀ declaration ∈ declarations, declaration.IsProper) :
    (declarations.map Declared.raw).mapM declared = some declarations := by
  induction declarations with
  | nil => rfl
  | cons first rest ih =>
    obtain ⟨hfirst, hrest⟩ := List.forall_mem_cons.mp h
    simp [hfirst.declared_raw, ih hrest]

/-! ## Looking up -/

/-- The first binding of a prefix is the one that counts. -/
theorem lookUp_cons (first : Binding) (scope : List Binding) (name : Option (List Char)) :
    lookUp (first :: scope) name = if first.1 = name then some first.2 else lookUp scope name := by
  unfold lookUp
  by_cases h : first.1 = name <;> simp [h]

/-- A prefix that a tag binds once is bound to what the tag says. -/
theorem lookUp_append_of_mem {bindings scope : List Binding} {name : List Char} {uri : String}
    (hmem : (some name, uri) ∈ bindings) (hnodup : (bindings.filterMap Prod.fst).Nodup) :
    lookUp (bindings ++ scope) (some name) = some uri := by
  induction bindings with
  | nil => cases hmem
  | cons first rest ih =>
    rw [List.cons_append, lookUp_cons]
    obtain ⟨firstName, firstUri⟩ := first
    rcases List.mem_cons.mp hmem with heq | hlater
    · obtain ⟨rfl, rfl⟩ := Prod.mk.inj heq
      rw [if_pos rfl]
    · cases firstName with
      | none => simpa using ih hlater (by simpa using hnodup)
      | some other =>
        simp only [List.filterMap_cons, List.nodup_cons] at hnodup
        have hne : some other ≠ some name := by
          rintro heq
          cases heq
          exact hnodup.1 (List.mem_filterMap.mpr ⟨(some name, uri), hlater, rfl⟩)
        rw [if_neg hne]
        exact ih hlater hnodup.2

/-- Bindings of other prefixes do not matter. -/
theorem lookUp_append_of_forall_ne {bindings scope : List Binding} {name : Option (List Char)}
    (h : ∀ binding ∈ bindings, binding.1 ≠ name) :
    lookUp (bindings ++ scope) name = lookUp scope name := by
  induction bindings with
  | nil => rfl
  | cons first rest ih =>
    obtain ⟨hfirst, hrest⟩ := List.forall_mem_cons.mp h
    rw [List.cons_append, lookUp_cons, if_neg hfirst, ih hrest]

end RemoteCall.Xml
