import RemoteCall.Element.Writer
import RemoteCall.Proofs.Element.Built
import RemoteCall.Proofs.Xml.Declarations

/-!
# Tags of elements

The tag of an element declares its namespace where that differs from the one around it, and
a prefix for each attribute in a namespace. The prefixes are numbered, so no two
declarations of a tag meet, and every name is resolved to what it was written for.
-/

namespace RemoteCall.Element

open Xml

/-! ## Prefixes -/

/-- The prefix with the number. -/
def numberedPrefix (index : Nat) : List Char :=
  ("ns" ++ Text.naturalText index).toList

/-- A numbered prefix is `ns` and the digits of its number. -/
theorem numberedPrefix_eq (index : Nat) :
    numberedPrefix index = 'n' :: 's' :: Nat.toDigits 10 index := by
  simp [numberedPrefix, Text.naturalText]

/-- Prefixes with different numbers are different, so no attribute takes the prefix of another. -/
theorem numberedPrefix_inj {first second : Nat} (h : numberedPrefix first = numberedPrefix second) :
    first = second := by
  rw [numberedPrefix_eq, numberedPrefix_eq] at h
  have hdigits : Nat.toDigits 10 first = Nat.toDigits 10 second := by simpa using h
  rw [← Nat.ofDigitChars_ten_toDigits (n := first), hdigits, Nat.ofDigitChars_ten_toDigits]

/-- A numbered prefix is a name. -/
theorem isNamePart_numberedPrefix (index : Nat) : isNamePart (numberedPrefix index) = true := by
  have hdigits : (Nat.toDigits 10 index).all isNameChar = true := by
    refine List.all_eq_true.mpr fun c hc => ?_
    have hdigit : ('0' ≤ c && c ≤ '9') = true :=
      Nat.isDigit_of_mem_toDigits (by decide) (by decide) hc
    simp only [isNameChar, hdigit, Bool.or_true, Bool.true_or]
  rw [numberedPrefix_eq]
  exact hdigits

/-! ## What a tag declares -/

/-- What the attributes declare; the next prefix has the number `index`. -/
def attributeDeclarations (index : Nat) : List Attribute → List Declared
  | [] => []
  | ⟨none, name, value⟩ :: rest =>
    .plain ⟨[], name.toList⟩ value :: attributeDeclarations index rest
  | ⟨some uri, name, value⟩ :: rest =>
    .binding (some (numberedPrefix index), uri) ::
      .plain ⟨numberedPrefix index, name.toList⟩ value :: attributeDeclarations (index + 1) rest

/-- What the tag of an element declares below a parent in the namespace `outer`. -/
def declarations (outer uri : Option String) (attributes : List Attribute) : List Declared :=
  (if uri = outer then [] else [.binding (none, uri.getD "")]) ++
    attributeDeclarations 0 attributes

/-- The tag of an element below a parent in the namespace `outer`. -/
def tagIn (outer : Option String) (element : Element) : Tag :=
  ⟨⟨[], element.localName.toList⟩,
    (declarations outer element.namespaceUri element.attributes).map Declared.raw⟩

/-- What the attributes declare is written as they are written. -/
theorem map_written_attributeDeclarations (index : Nat) (attributes : List Attribute) :
    ((attributeDeclarations index attributes).map Declared.raw).map RawAttribute.written =
      attributeMarkup index attributes := by
  induction attributes generalizing index with
  | nil => rfl
  | cons first rest ih =>
    obtain ⟨uri | uri, name, value⟩ := first
    · simp only [attributeDeclarations, attributeMarkup, List.map_cons, ih]
      simp [Declared.raw, RawAttribute.written, QName.text]
    · simp only [attributeDeclarations, attributeMarkup, List.map_cons, ih]
      simp [Declared.raw, RawAttribute.written, QName.text, numberedPrefix, ← String.toList_inj]

/-- What the tag of an element declares is written as the attributes of the tag. -/
theorem map_written_declarations (outer uri : Option String) (attributes : List Attribute) :
    ((declarations outer uri attributes).map Declared.raw).map RawAttribute.written =
      tagAttributes outer uri attributes := by
  rw [declarations, tagAttributes, List.map_append, List.map_append,
    map_written_attributeDeclarations]
  congr 1
  split
  · rfl
  · simp [Declared.raw, RawAttribute.written, QName.text]

/-- What can be an attribute of an element that is written. -/
structure IsPortableAttribute (candidate : Attribute) : Prop where
  name : isNamePart candidate.localName.toList = true
  name_ne : candidate.localName ≠ "xmlns"
  namespaceUri : ∀ uri ∈ candidate.namespaceUri, IsBindable uri
  value : isXmlText candidate.value = true

/-- Attributes that can be written declare what is proper to declare. -/
theorem isProper_attributeDeclarations {attributes : List Attribute}
    (h : ∀ candidate ∈ attributes, IsPortableAttribute candidate) (index : Nat) :
    ∀ declaration ∈ attributeDeclarations index attributes, declaration.IsProper := by
  have hxmlns {name : String} (hne : name ≠ "xmlns") : name.toList ≠ "xmlns".toList :=
    fun heq => hne (String.toList_inj.mp heq)
  induction attributes generalizing index with
  | nil => simp [attributeDeclarations]
  | cons first rest ih =>
    obtain ⟨hfirst, hrest⟩ := List.forall_mem_cons.mp h
    obtain ⟨uri | uri, name, value⟩ := first
    · have hplain : (Declared.plain ⟨[], name.toList⟩ value).IsProper :=
        .plain ⟨rfl, hfirst.name⟩ (by simp) (hxmlns hfirst.name_ne) hfirst.value
      exact List.forall_mem_cons.mpr ⟨hplain, ih hrest index⟩
    · have hpart := isNamePart_numberedPrefix index
      have hbinding : (Declared.binding (some (numberedPrefix index), uri)).IsProper :=
        .prefixed hpart (by simp [numberedPrefix_eq]) (hfirst.namespaceUri uri rfl)
      have hplain : (Declared.plain ⟨numberedPrefix index, name.toList⟩ value).IsProper :=
        .plain ⟨by rw [hpart, Bool.or_true], hfirst.name⟩ (by simp [numberedPrefix_eq])
          (hxmlns hfirst.name_ne) hfirst.value
      exact List.forall_mem_cons.mpr
        ⟨hbinding, List.forall_mem_cons.mpr ⟨hplain, ih hrest (index + 1)⟩⟩

/-! ## Namespaces of attributes -/

/-- The bindings among the declarations. -/
def bindingsIn (declarations : List Declared) : List Binding :=
  declarations.filterMap fun
    | .binding binding => some binding
    | _ => none

/-- The prefixes that attributes bind have numbers, from the next one on. -/
theorem mem_bindingsIn_attributeDeclarations {index : Nat} {attributes : List Attribute}
    {binding : Binding} (h : binding ∈ bindingsIn (attributeDeclarations index attributes)) :
    ∃ later, index ≤ later ∧ binding.1 = some (numberedPrefix later) := by
  induction attributes generalizing index with
  | nil => simp [attributeDeclarations, bindingsIn] at h
  | cons first rest ih =>
    obtain ⟨uri | uri, name, value⟩ := first
    · exact ih h
    · rcases List.mem_cons.mp h with rfl | h
      · exact ⟨index, Nat.le_refl index, rfl⟩
      · obtain ⟨later, hlater, heq⟩ := ih h
        exact ⟨later, Nat.le_of_succ_le hlater, heq⟩

/-- Each attribute in a namespace binds a prefix of its own. -/
theorem nodup_prefixes_attributeDeclarations (index : Nat) (attributes : List Attribute) :
    ((bindingsIn (attributeDeclarations index attributes)).filterMap Prod.fst).Nodup := by
  induction attributes generalizing index with
  | nil => simp [attributeDeclarations, bindingsIn]
  | cons first rest ih =>
    obtain ⟨uri | uri, name, value⟩ := first
    · exact ih index
    · refine List.nodup_cons.mpr ⟨fun hmem => ?_, ih (index + 1)⟩
      obtain ⟨binding, hbinding, heq⟩ := List.mem_filterMap.mp hmem
      obtain ⟨later, hlater, heq'⟩ := mem_bindingsIn_attributeDeclarations hbinding
      rw [heq', Option.some.injEq] at heq
      have := numberedPrefix_inj heq
      omega

/-- The attributes among the declarations, with their names as they are written. -/
def plainIn (declarations : List Declared) : List (QName × String) :=
  declarations.filterMap fun
    | .plain name value => some (name, value)
    | _ => none

/-- The attribute that a name and a value make in the scope. -/
def resolvePlain (scope : List Binding) (plain : QName × String) : Option Attribute := do
  let uri ← attributeNamespace scope plain.1
  some ⟨uri, String.ofList plain.1.localPart, plain.2⟩

/-- Attributes are read of a tag if each is resolved and no two have the same key. -/
theorem attributesOf_eq_some {scope : List Binding} {declarations : List Declared}
    {attributes : List Attribute}
    (h : (plainIn declarations).mapM (resolvePlain scope) = some attributes)
    (hkeys : (attributes.map attributeKey).Nodup) :
    attributesOf scope declarations = some attributes := by
  have hunfold : attributesOf scope declarations =
      (plainIn declarations).mapM (resolvePlain scope) >>= fun resolved =>
        if (resolved.map attributeKey).Nodup then some resolved else none := rfl
  rw [hunfold, h]
  exact if_pos hkeys

/-- Every attribute is resolved to what it was written for, if its binding is in scope. -/
theorem mapM_resolvePlain {scope : List Binding} {attributes : List Attribute} {index : Nat}
    (hscope : ∀ binding ∈ bindingsIn (attributeDeclarations index attributes),
      lookUp scope binding.1 = some binding.2) :
    (plainIn (attributeDeclarations index attributes)).mapM (resolvePlain scope) =
      some attributes := by
  induction attributes generalizing index with
  | nil => rfl
  | cons first rest ih =>
    obtain ⟨uri | uri, name, value⟩ := first
    · have hfirst : resolvePlain scope (⟨[], name.toList⟩, value) = some ⟨none, name, value⟩ := by
        simp [resolvePlain, attributeNamespace]
      have hrest := ih hscope
      change ((⟨[], name.toList⟩, value) :: plainIn (attributeDeclarations index rest)).mapM _ = _
      simp [hfirst, hrest]
    · obtain ⟨hbinding, hlater⟩ := List.forall_mem_cons.mp hscope
      have hfirst : resolvePlain scope (⟨numberedPrefix index, name.toList⟩, value) =
          some ⟨some uri, name, value⟩ := by
        have hxml : numberedPrefix index ≠ "xml".toList := by simp [numberedPrefix_eq]
        have hne : (numberedPrefix index).isEmpty = false := by simp [numberedPrefix_eq]
        simp [resolvePlain, attributeNamespace, hne, hxml, hbinding, -String.reduceToList]
      have hrest := ih hlater
      change ((⟨numberedPrefix index, name.toList⟩, value) ::
        plainIn (attributeDeclarations (index + 1) rest)).mapM _ = _
      simp [hfirst, hrest]

/-! ## Tags -/

/-- What can be written below a parent in the namespace `outer`, and is read as it is there.
An element without a namespace cannot leave the one that its parent is in. -/
structure IsPortableIn (outer : Option String) (element : Element) : Prop where
  name : isNamePart element.localName.toList = true
  namespaceUri : element.namespaceUri = outer ∨
    ∃ uri, element.namespaceUri = some uri ∧ IsBindable uri
  attributes : ∀ candidate ∈ element.attributes, IsPortableAttribute candidate
  attributeKeys : (element.attributes.map attributeKey).Nodup
  textLegal : ∀ text ∈ element.text, isXmlText text = true
  textKept : keptText element.children element.text = element.text

/-- An element with one attribute, both without namespace. -/
theorem isPortableIn_mk {name key value : String} {children : List Element}
    {text : Option String} (hname : isNamePart name.toList = true)
    (hkey : isNamePart key.toList = true) (hne : key ≠ "xmlns") (hvalue : isXmlText value = true)
    (htext : ∀ content ∈ text, isXmlText content = true) (hkept : keptText children text = text) :
    IsPortableIn none (.mk name none [⟨none, key, value⟩] children text) where
  name := hname
  namespaceUri := .inl rfl
  attributes := by
    intro candidate hcandidate
    obtain rfl := List.mem_singleton.mp hcandidate
    exact ⟨hkey, hne, by simp, hvalue⟩
  attributeKeys := by simp [attributes]
  textLegal := htext
  textKept := hkept

variable {outer : Option String} {element : Element}

/-- What the tag of an element declares is proper, also where it leaves the namespace of its
parent for none. -/
theorem isProper_declarations
    (huri : element.namespaceUri ≠ outer → ∀ uri ∈ element.namespaceUri, IsBindable uri)
    (hattributes : ∀ candidate ∈ element.attributes, IsPortableAttribute candidate) :
    ∀ declaration ∈ declarations outer element.namespaceUri element.attributes,
      declaration.IsProper := by
  intro declaration hmem
  rcases List.mem_append.mp hmem with hmem | hmem
  · split at hmem
    · cases hmem
    · next hne =>
      obtain rfl := List.mem_singleton.mp hmem
      refine .default ?_
      cases hcase : element.namespaceUri with
      | none => exact ⟨by decide, by decide, rfl⟩
      | some uri => exact huri hne uri hcase
  · exact isProper_attributeDeclarations hattributes 0 declaration hmem

/-- All that the tag of such an element declares is proper to declare. -/
theorem IsPortableIn.isProper (h : IsPortableIn outer element) :
    ∀ declaration ∈ declarations outer element.namespaceUri element.attributes,
      declaration.IsProper := by
  refine isProper_declarations (fun hne => ?_) h.attributes
  obtain ⟨uri, huri, hbindable⟩ := h.namespaceUri.resolve_left hne
  simpa [huri] using hbindable

/-- The tag of such an element can be written. -/
theorem IsPortableIn.isWritable_tagIn (h : IsPortableIn outer element) :
    (tagIn outer element).IsWritable := by
  refine ⟨⟨rfl, h.name⟩, fun raw hraw => ?_⟩
  obtain ⟨declaration, hmem, rfl⟩ := List.mem_map.mp hraw
  exact (h.isProper declaration hmem).isWritable

/-- A tag binds the default namespace where it changes, and then the prefixes of its attributes. -/
theorem bindingsIn_declarations (outer uri : Option String) (attributes : List Attribute) :
    bindingsIn (declarations outer uri attributes) =
      (if uri = outer then [] else [(none, uri.getD "")]) ++
        bindingsIn (attributeDeclarations 0 attributes) := by
  rw [declarations, bindingsIn, List.filterMap_append]
  congr 1
  split <;> rfl

/-- The declaration of the default namespace is no attribute of the element. -/
theorem plainIn_declarations (outer uri : Option String) (attributes : List Attribute) :
    plainIn (declarations outer uri attributes) = plainIn (attributeDeclarations 0 attributes) := by
  rw [declarations, plainIn, List.filterMap_append]
  split <;> rfl

/-- The bindings in scope between the tags of an element. -/
def scopeIn (outer : Option String) (element : Element) (scope : List Binding) : List Binding :=
  bindingsIn (declarations outer element.namespaceUri element.attributes) ++ scope

/-- No prefix is bound twice in a tag. -/
theorem nodup_prefixes_declarations (outer uri : Option String) (attributes : List Attribute) :
    ((bindingsIn (declarations outer uri attributes)).filterMap Prod.fst).Nodup := by
  have hprefixes := nodup_prefixes_attributeDeclarations 0 attributes
  rw [bindingsIn_declarations, List.filterMap_append]
  split <;> exact hprefixes

/-- Between the tags of an element that leaves the namespace of its parent for none, the default
namespace is the empty one. -/
theorem lookUp_scopeIn_eq {scope : List Binding} (hscope : lookUp scope none = outer) :
    lookUp (scopeIn outer element scope) none =
      if element.namespaceUri = outer then outer else some (element.namespaceUri.getD "") := by
  rw [scopeIn, bindingsIn_declarations]
  split
  · have hne : ∀ binding ∈ bindingsIn (attributeDeclarations 0 element.attributes),
        binding.1 ≠ none := by
      intro binding hbinding
      obtain ⟨later, -, heq⟩ := mem_bindingsIn_attributeDeclarations hbinding
      simp [heq]
    rw [List.nil_append, lookUp_append_of_forall_ne hne, hscope]
  · rw [List.append_assoc, List.singleton_append, lookUp_cons, if_pos rfl]

/-- Between the tags of an element its namespace is the default one. -/
theorem IsPortableIn.lookUp_scopeIn (h : IsPortableIn outer element) {scope : List Binding}
    (hscope : lookUp scope none = outer) :
    lookUp (scopeIn outer element scope) none = element.namespaceUri := by
  rw [lookUp_scopeIn_eq hscope]
  split
  · next heq => exact heq.symm
  · next hne =>
    obtain ⟨uri, huri, -⟩ := h.namespaceUri.resolve_left hne
    rw [huri]
    rfl

/-- In the scope that its tag makes, an element is read with its own attributes. -/
theorem IsPortableIn.attributesOf_scopeIn (h : IsPortableIn outer element)
    (scope : List Binding) :
    attributesOf (scopeIn outer element scope)
      (declarations outer element.namespaceUri element.attributes) = some element.attributes := by
  refine attributesOf_eq_some ?_ h.attributeKeys
  rw [plainIn_declarations]
  refine mapM_resolvePlain fun binding hbinding => ?_
  obtain ⟨later, -, heq⟩ := mem_bindingsIn_attributeDeclarations hbinding
  have hmem : (some (numberedPrefix later), binding.2) ∈
      bindingsIn (declarations outer element.namespaceUri element.attributes) := by
    rw [bindingsIn_declarations, ← heq]
    exact List.mem_append_right _ hbinding
  rw [heq]
  exact lookUp_append_of_mem hmem (nodup_prefixes_declarations ..)

/-- Below a parent in the namespace `outer`, the tag of an element is resolved to its name and
attributes, around whatever is resolved between the tags. -/
theorem IsPortableIn.resolve_tagIn (h : IsPortableIn outer element) {scope : List Binding}
    (hscope : lookUp scope none = outer) {content : List Tree} {nodes : List Node}
    (hnodes : resolveAll (scopeIn outer element scope) content = some nodes)
    (opening closing : List Char) :
    resolve scope (.element (tagIn outer element) opening content closing) =
      some (.element element.namespaceUri element.localName element.attributes
        (mergeText nodes) opening closing) := by
  have huri : elementNamespace (scopeIn outer element scope) (tagIn outer element).name =
      some element.namespaceUri := by
    simp [elementNamespace, tagIn, h.lookUp_scopeIn hscope]
  refine resolve_element_eq_some_iff.mpr ⟨declarations outer element.namespaceUri
    element.attributes, _, element.namespaceUri, element.attributes, nodes,
    mapM_declared_raw h.isProper, if_pos (nodup_prefixes_declarations ..), huri,
    h.attributesOf_scopeIn scope, hnodes, ?_⟩
  simp [tagIn]

/-- A tag without namespaces leaves the scope as it is. -/
theorem scopeIn_eq_self (huri : element.namespaceUri = outer)
    (hattributes : ∀ candidate ∈ element.attributes, candidate.namespaceUri = none)
    (scope : List Binding) : scopeIn outer element scope = scope := by
  have hnone (attributes : List Attribute)
      (h : ∀ candidate ∈ attributes, candidate.namespaceUri = none) :
      bindingsIn (attributeDeclarations 0 attributes) = [] := by
    induction attributes with
    | nil => rfl
    | cons first rest ih =>
      obtain ⟨hfirst, hrest⟩ := List.forall_mem_cons.mp h
      obtain ⟨uri | uri, name, value⟩ := first
      · exact ih hrest
      · cases hfirst
  rw [scopeIn, bindingsIn_declarations, if_pos huri, hnone _ hattributes]
  rfl

end RemoteCall.Element
