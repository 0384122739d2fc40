import RemoteCall.Element.Basic

/-!
# Elements that can be built

Elements are made by naming them, setting attributes and text, and adding children. What
can be made in this way is told by an invariant of the nodes of the tree: the name is not
empty, no two attributes have the same key, and the text is one that is kept.
-/

namespace RemoteCall.Element

open Xml (Attribute)

/-- The elements that can be made. -/
inductive Built : Element → Prop
  | make {name : String} {uri : Option String} {element : Element}
      (h : Element.make name uri = .ok element) : Built element
  | setAttributeNs {element : Element} (uri : Option String) (name value : String)
      (h : Built element) : Built (element.setAttributeNs uri name value)
  | setText {element : Element} (text : Option String) (h : Built element) :
      Built (element.setText text)
  | addChild {element child : Element} (h : Built element) (hchild : Built child) :
      Built (element.addChild child)

/-- Every node of the tree passes the test. -/
inductive Every (test : Element → Prop) : Element → Prop
  | node {element : Element} (h : test element)
      (hchildren : ∀ child ∈ element.children, Every test child) : Every test element

/-- What holds of every node holds of the root. -/
theorem Every.test {test : Element → Prop} {element : Element} (h : Every test element) :
    test element := by
  cases h with
  | node h => exact h

/-- What holds of every node holds of every node of a child. -/
theorem Every.children {test : Element → Prop} {element : Element} (h : Every test element) :
    ∀ child ∈ element.children, Every test child := by
  cases h with
  | node _ hchildren => exact hchildren

/-- What follows from something that holds of every node holds of every node. -/
theorem Every.mono {test test' : Element → Prop} {element : Element} (h : Every test element)
    (himp : ∀ node, test node → test' node) : Every test' element := by
  induction h with
  | node h _ ih => exact .node (himp _ h) ih

/-- Every node is the root or a node of a child. -/
theorem every_iff {test : Element → Prop} {element : Element} :
    element.Every test ↔ test element ∧ ∀ child ∈ element.children, child.Every test :=
  ⟨fun h => ⟨h.test, h.children⟩, fun h => .node h.1 h.2⟩

/-- What an attribute is found by. -/
def attributeKey (candidate : Attribute) : Option String × String :=
  (candidate.namespaceUri, candidate.localName)

/-- What holds of an element itself, whatever its children are. -/
structure IsRegular (element : Element) : Prop where
  name : element.localName ≠ ""
  namespaceUri : element.namespaceUri ≠ some ""
  attributeUri : ∀ candidate ∈ element.attributes, candidate.namespaceUri ≠ some ""
  attributeKeys : (element.attributes.map attributeKey).Nodup
  text : keptText element.children element.text = element.text

/-! ## Texts and attributes -/

/-- Only the empty text is taken for none. -/
theorem nonEmpty_eq_self {value : Option String} (h : value ≠ some "") :
    nonEmpty value = value := by
  cases value <;> simp_all [nonEmpty, Option.filter]

/-- No empty text is left. -/
theorem nonEmpty_ne_some_empty (value : Option String) : nonEmpty value ≠ some "" := by
  simp [nonEmpty, Option.filter_eq_some_iff]

/-- The text that is kept is kept again. -/
theorem keptText_idem (children : List Element) (text : Option String) :
    keptText children (keptText children text) = keptText children text := by
  simp only [keptText, nonEmpty, Option.filter_filter]
  congr 1
  funext t
  grind

/-- The empty text is not kept. -/
theorem ne_some_empty_of_keptText {children : List Element} {text : Option String}
    (h : keptText children text = text) : text ≠ some "" := by
  rintro rfl
  cases h

/-- An attribute is found under a namespace and a name if these are its key. -/
theorem hasKey_eq_true_iff {uri : Option String} {name : String} {candidate : Attribute} :
    hasKey uri name candidate = true ↔ attributeKey candidate = (uri, name) := by
  simp [hasKey, attributeKey, and_comm]

/-- Setting an attribute keeps the keys that are there, and adds its own if it is new. -/
theorem map_attributeKey_putAttribute (uri : Option String) (name value : String)
    (attributes : List Attribute) :
    (putAttribute uri name value attributes).map attributeKey =
      if (uri, name) ∈ attributes.map attributeKey then attributes.map attributeKey
      else attributes.map attributeKey ++ [(uri, name)] := by
  induction attributes with
  | nil => rfl
  | cons first rest ih =>
    by_cases hkey : attributeKey first = (uri, name)
    · have hfirst := hasKey_eq_true_iff.mpr hkey
      simp [putAttribute, hfirst, ← hkey, attributeKey]
    · have hfirst : hasKey uri name first = false :=
        Bool.eq_false_iff.mpr fun h => hkey (hasKey_eq_true_iff.mp h)
      simp only [putAttribute, hfirst, Bool.false_eq_true, if_false, List.map_cons, ih,
        List.mem_cons, Ne.symm hkey, false_or]
      split <;> simp

/-- After an attribute has been put in, each has the key of that one or was there before. -/
theorem mem_putAttribute {uri : Option String} {name value : String} {candidate : Attribute}
    {attributes : List Attribute} (h : candidate ∈ putAttribute uri name value attributes) :
    attributeKey candidate = (uri, name) ∨ candidate ∈ attributes := by
  induction attributes with
  | nil => simp_all [putAttribute, attributeKey]
  | cons first rest ih =>
    simp only [putAttribute] at h
    split at h
    · next hfirst =>
      rcases List.mem_cons.mp h with rfl | h
      · exact .inl (hasKey_eq_true_iff.mp hfirst)
      · exact .inr (List.mem_cons_of_mem _ h)
    · rcases List.mem_cons.mp h with rfl | h
      · exact .inr List.mem_cons_self
      · exact (ih h).imp_right (List.mem_cons_of_mem _)

/-- An attribute with a new key is put at the end. -/
theorem putAttribute_of_not_mem {uri : Option String} {name : String}
    {attributes : List Attribute} (h : (uri, name) ∉ attributes.map attributeKey)
    (value : String) :
    putAttribute uri name value attributes = attributes ++ [⟨uri, name, value⟩] := by
  induction attributes with
  | nil => rfl
  | cons first rest ih =>
    simp only [List.map_cons, List.mem_cons, not_or] at h
    have hfirst : hasKey uri name first = false :=
      Bool.eq_false_iff.mpr fun hkey => h.1 (hasKey_eq_true_iff.mp hkey).symm
    simp [putAttribute, hfirst, ih h.2]

/-- Putting in an attribute keeps the keys apart. -/
theorem nodup_putAttribute {attributes : List Attribute} {uri : Option String} {name : String}
    (h : (attributes.map attributeKey).Nodup) (value : String) :
    ((putAttribute uri name value attributes).map attributeKey).Nodup := by
  rw [map_attributeKey_putAttribute]
  split
  · exact h
  · next hnew =>
    rw [List.nodup_append]
    refine ⟨h, by simp, ?_⟩
    rintro key hkey other hother rfl
    exact hnew (List.mem_singleton.mp hother ▸ hkey)

/-! ## What is built -/

/-- Building keeps the invariant at every node. -/
theorem Built.every_isRegular {element : Element} (h : element.Built) :
    element.Every IsRegular := by
  induction h with
  | @make name uri element h =>
    unfold Element.make at h
    split at h
    · cases h
    · next hname =>
      cases h
      exact .node ⟨hname, nonEmpty_ne_some_empty uri, by simp [attributes],
        by simp [attributes], rfl⟩ (by simp [Element.children])
  | @setAttributeNs element uri name value h ih =>
    obtain ⟨localName, elementUri, attributes, children, text⟩ := element
    obtain ⟨hname, huri, hattributeUri, hkeys, htext⟩ := ih.test
    refine .node ⟨hname, huri, fun candidate hcandidate => ?_, nodup_putAttribute hkeys value,
      htext⟩ ih.children
    rcases mem_putAttribute hcandidate with hkey | hold
    · obtain ⟨heq, -⟩ := Prod.mk.inj hkey
      rw [heq]
      exact nonEmpty_ne_some_empty uri
    · exact hattributeUri candidate hold
  | @setText element text h ih =>
    obtain ⟨localName, uri, attributes, children, _⟩ := element
    obtain ⟨hname, huri, hattributeUri, hkeys, -⟩ := ih.test
    exact .node ⟨hname, huri, hattributeUri, hkeys, keptText_idem children text⟩ ih.children
  | @addChild element child h hchild ih ihchild =>
    obtain ⟨localName, uri, attributes, children, text⟩ := element
    obtain ⟨hname, huri, hattributeUri, hkeys, -⟩ := ih.test
    refine .node ⟨hname, huri, hattributeUri, hkeys, keptText_idem _ text⟩ fun other hother => ?_
    rcases List.mem_append.mp hother with hother | hother
    · exact ih.children other hother
    · obtain rfl := List.mem_singleton.mp hother
      exact ihchild

/-- Attributes with keys of their own can be put one after the other behind those that there are. -/
theorem Built.append_attributes {localName : String} {uri : Option String}
    {attributes more : List Attribute} {children : List Element} {text : Option String}
    (h : Built (.mk localName uri attributes children text))
    (hkeys : ((attributes ++ more).map attributeKey).Nodup)
    (huris : ∀ candidate ∈ more, candidate.namespaceUri ≠ some "") :
    Built (.mk localName uri (attributes ++ more) children text) := by
  induction more generalizing attributes with
  | nil => simpa using h
  | cons first more ih =>
    obtain ⟨hfirst, hmore⟩ := List.forall_mem_cons.mp huris
    have hnew : attributeKey first ∉ attributes.map attributeKey := by
      rw [List.map_append, List.nodup_append] at hkeys
      exact fun hmem => hkeys.2.2 _ hmem _ (by simp) rfl
    have hset := h.setAttributeNs first.namespaceUri first.localName first.value
    rw [Element.setAttributeNs, nonEmpty_eq_self hfirst, putAttribute_of_not_mem hnew] at hset
    simpa using ih hset (by simpa using hkeys) hmore

/-- Children that are built can be added one after the other. -/
theorem Built.append_children {localName : String} {uri : Option String}
    {attributes : List Attribute} {children more : List Element}
    (h : Built (.mk localName uri attributes children none)) (hmore : ∀ child ∈ more, Built child) :
    Built (.mk localName uri attributes (children ++ more) none) := by
  induction more generalizing children with
  | nil => simpa using h
  | cons first more ih =>
    obtain ⟨hfirst, hmore⟩ := List.forall_mem_cons.mp hmore
    simpa using ih (h.addChild hfirst) hmore

/-- The elements that can be built are those that keep the invariant at every node. -/
theorem built_iff_every_isRegular {element : Element} :
    element.Built ↔ element.Every IsRegular := by
  refine ⟨Built.every_isRegular, fun h => ?_⟩
  induction h with
  | @node element h hchildren ih =>
    obtain ⟨localName, uri, attributes, children, text⟩ := element
    obtain ⟨hname, huri, huris, hkeys, htext⟩ := h
    dsimp only [Element.localName, Element.namespaceUri, Element.attributes, Element.children,
      Element.text] at *
    have hmake : Element.make localName uri = .ok (.mk localName uri [] [] none) := by
      rw [Element.make, if_neg hname, nonEmpty_eq_self huri]
    have hattributes : Built (.mk localName uri ([] ++ attributes) [] none) :=
      (Built.make hmake).append_attributes hkeys huris
    have hchildren : Built (.mk localName uri attributes ([] ++ children) none) :=
      Built.append_children hattributes ih
    have hset := hchildren.setText text
    rwa [setText, List.nil_append, htext] at hset

end RemoteCall.Element
