import RemoteCall.Proofs.Element.Stability
import RemoteCall.Proofs.Json.Sections

/-!
# Elements that can be come by

An element is made by name, read from a document or read from a JSON object, and then changed:
attributes and text are set, children added. However it was come by, every node of it is named,
has no two attributes of one key, and has no text but one that is kept. The values of its
attributes are those that were set last, and its children stand in the order they were added.
-/

namespace RemoteCall.Element

open Xml (Attribute)

/-- The elements that can be come by. -/
inductive Obtained : Element → Prop
  | make {name : String} {uri : Option String} {element : Element}
      (h : Element.make name uri = .ok element) : Obtained element
  | parse {xml : String} {element : Element} (h : Element.parse xml = .ok element) :
      Obtained element
  | data {json : String} {element : Element} (h : Json.readDataSection json = .ok element) :
      Obtained element
  | setAttributeNs {element : Element} (uri : Option String) (name value : String)
      (h : Obtained element) : Obtained (element.setAttributeNs uri name value)
  | setText {element : Element} (text : Option String) (h : Obtained element) :
      Obtained (element.setText text)
  | addChild {element child : Element} (h : Obtained element) (hchild : Obtained child) :
      Obtained (element.addChild child)
  | child {element child : Element} (h : Obtained element) (hchild : child ∈ element.children) :
      Obtained child

/-- What holds of every element that can be come by. -/
structure IsWellFormed (element : Element) : Prop where
  name : element.localName ≠ ""
  attributeKeys : (element.attributes.map attributeKey).Nodup
  text : element.text ≠ some ""
  layout : element.children ≠ [] → ∀ text ∈ element.text, ∃ c ∈ text.toList, ¬ Text.isBlank c

/-! ## Nodes -/

/-- The texts that are kept as they are. -/
theorem keptText_eq_self_iff {children : List Element} {text : Option String} :
    keptText children text = text ↔
      text ≠ some "" ∧ (children ≠ [] → ∀ t ∈ text, ∃ c ∈ t.toList, ¬ Text.isBlank c) := by
  cases text with
  | none => simp [keptText, nonEmpty]
  | some t =>
    simp only [keptText, nonEmpty, Option.filter_eq_some_iff, Text.isBlankText, Option.mem_def]
    by_cases hchildren : children = [] <;> simp [hchildren, and_comm]

/-- The text of a well-formed element is what would be kept of it: nothing that is blank beside
children, and no empty text. -/
theorem isWellFormed_iff_keptText {element : Element} :
    element.IsWellFormed ↔ element.localName ≠ "" ∧
      (element.attributes.map attributeKey).Nodup ∧
      keptText element.children element.text = element.text := by
  rw [keptText_eq_self_iff]
  exact ⟨fun ⟨hname, hkeys, htext, hlayout⟩ => ⟨hname, hkeys, htext, hlayout⟩,
    fun ⟨hname, hkeys, htext, hlayout⟩ => ⟨hname, hkeys, htext, hlayout⟩⟩

/-- An element that has been read from a document is well-formed. -/
theorem IsNamed.isWellFormed {element : Element} (h : element.IsNamed) : element.IsWellFormed := by
  refine isWellFormed_iff_keptText.mpr ⟨fun hempty => ?_, h.attributeKeys, h.text⟩
  have hname := h.name
  rw [hempty] at hname
  exact absurd hname (by decide)

/-- An element that has been made of a JSON value is well-formed at every depth. -/
theorem every_isWellFormed_of_toElement {name : String} {value : Json} {element : Element}
    (h : value.toElement name = .ok element) : element.Every IsWellFormed := by
  have hne : ∀ {name : String}, Json.IsElementName name → name ≠ "" := by
    rintro _ ⟨first, rest, hname, -⟩ rfl
    cases hname
  refine Json.toElement_induction (P := fun _ _ element => element.Every IsWellFormed) ?_ ?_ h
  · intro name value hname _ _
    have hkept : keptText [] (nonEmpty (Json.scalarText value)) =
        nonEmpty (Json.scalarText value) :=
      keptText_eq_self_iff.mpr ⟨nonEmpty_ne_some_empty _, absurd rfl⟩
    exact .node (isWellFormed_iff_keptText.mpr ⟨hne hname, .nil, hkept⟩) (by simp [children])
  · intro name members children hname hchildren
    refine .node (isWellFormed_iff_keptText.mpr ⟨hne hname, .nil, rfl⟩) fun child hchild => ?_
    obtain ⟨index, hindex, rfl⟩ := List.mem_iff_getElem.mp hchild
    exact (hchildren.get (hchildren.length_eq ▸ hindex) hindex).2

/-- Every node of an element that can be come by is well formed. -/
theorem Obtained.every_isWellFormed {element : Element} (h : element.Obtained) :
    element.Every IsWellFormed := by
  induction h with
  | make h =>
    exact (Built.make h).every_isRegular.mono fun node hnode =>
      isWellFormed_iff_keptText.mpr ⟨hnode.name, hnode.attributeKeys, hnode.text⟩
  | parse h => exact (every_isNamed_of_parse h).mono fun node hnode => hnode.isWellFormed
  | data h =>
    unfold Json.readDataSection at h
    split at h
    · cases h
    · split at h
      · exact every_isWellFormed_of_toElement h
      · cases h
  | @setAttributeNs element uri name value h ih =>
    obtain ⟨localName, elementUri, attributes, children, text⟩ := element
    obtain ⟨hname, hkeys, htext, hlayout⟩ := ih.test
    exact .node ⟨hname, nodup_putAttribute hkeys value, htext, hlayout⟩ ih.children
  | @setText element text h ih =>
    obtain ⟨localName, uri, attributes, children, _⟩ := element
    obtain ⟨hname, hkeys, -, -⟩ := ih.test
    exact .node (isWellFormed_iff_keptText.mpr ⟨hname, hkeys, keptText_idem children text⟩)
      ih.children
  | @addChild element child h hchild ih ihchild =>
    obtain ⟨localName, uri, attributes, children, text⟩ := element
    obtain ⟨hname, hkeys, -, -⟩ := ih.test
    refine .node (isWellFormed_iff_keptText.mpr ⟨hname, hkeys, keptText_idem _ text⟩)
      fun other hother => ?_
    rcases List.mem_append.mp hother with hother | hother
    · exact ih.children other hother
    · obtain rfl := List.mem_singleton.mp hother
      exact ihchild
  | child h hchild ih => exact ih.children _ hchild

/-! ## Changes -/

/-- One step of changing an element. -/
inductive Change where
  | setAttributeNs (uri : Option String) (name value : String)
  | setText (text : Option String)
  | addChild (child : Element)

namespace Change

/-- The element after the step. -/
def apply (element : Element) : Change → Element
  | .setAttributeNs uri name value => element.setAttributeNs uri name value
  | .setText text => element.setText text
  | .addChild child => element.addChild child

/-- The value that the step sets for a key. -/
def value? (key : Option String × String) : Change → Option String
  | .setAttributeNs uri name value => if (nonEmpty uri, name) = key then some value else none
  | _ => none

/-- The child that the step adds. -/
def child? : Change → Option Element
  | .addChild child => some child
  | _ => none

end Change

/-- The element after the steps. -/
def after (element : Element) (changes : List Change) : Element :=
  changes.foldl Change.apply element

/-- The value that is set last for a key. -/
def lastValue? (key : Option String × String) (changes : List Change) : Option String :=
  changes.reverse.findSome? (Change.value? key)

variable {element : Element} {changes : List Change}

/-- Setting an attribute of a key that is there changes its value in place. -/
theorem putAttribute_of_mem {uri : Option String} {name : String} {attributes : List Attribute}
    (h : (uri, name) ∈ attributes.map attributeKey) (hkeys : (attributes.map attributeKey).Nodup)
    (value : String) : putAttribute uri name value attributes = attributes.map fun candidate =>
      if attributeKey candidate = (uri, name) then { candidate with value := value }
      else candidate := by
  induction attributes with
  | nil => cases h
  | cons first rest ih =>
    obtain ⟨hfirst, hrest⟩ := List.nodup_cons.mp hkeys
    by_cases hkey : attributeKey first = (uri, name)
    · have hothers : ∀ candidate ∈ rest, attributeKey candidate ≠ (uri, name) := by
        intro candidate hcandidate heq
        exact hfirst (hkey ▸ heq ▸ List.mem_map_of_mem hcandidate)
      have hsame : rest.map (fun candidate => if attributeKey candidate = (uri, name)
          then { candidate with value := value } else candidate) = rest := by
        conv_rhs => rw [← List.map_id rest]
        exact List.map_congr_left fun candidate hcandidate => if_neg (hothers candidate hcandidate)
      rw [putAttribute, if_pos (hasKey_eq_true_iff.mpr hkey), List.map_cons, if_pos hkey, hsame]
    · have hmem : (uri, name) ∈ rest.map attributeKey :=
        (List.mem_cons.mp h).resolve_left (Ne.symm hkey)
      rw [putAttribute, if_neg (mt hasKey_eq_true_iff.mp hkey), List.map_cons, if_neg hkey,
        ih hmem hrest]

/-- Setting an attribute replaces the first one of its key, and leaves those of other keys. -/
theorem filter_putAttribute (uri uri' : Option String) (name name' value : String)
    (attributes : List Attribute) :
    (putAttribute uri name value attributes).filter (hasKey uri' name') =
      if (uri, name) = (uri', name') then
        ⟨uri, name, value⟩ :: (attributes.filter (hasKey uri' name')).tail
      else attributes.filter (hasKey uri' name') := by
  induction attributes with
  | nil => by_cases hkey : (uri, name) = (uri', name') <;>
      simp [putAttribute, hasKey_eq_true_iff, attributeKey, hkey]
  | cons first rest ih =>
    by_cases hset : attributeKey first = (uri, name)
    · have hput : putAttribute uri name value (first :: rest) = ⟨uri, name, value⟩ :: rest := by
        rw [putAttribute, if_pos (hasKey_eq_true_iff.mpr hset), (Prod.mk.inj hset).1,
          (Prod.mk.inj hset).2]
      have hfirst : attributeKey ⟨uri, name, value⟩ = attributeKey first := hset.symm
      rw [hput, List.filter_cons, List.filter_cons]
      simp only [hasKey_eq_true_iff, hfirst, hset]
      split <;> rfl
    · rw [putAttribute, if_neg (mt hasKey_eq_true_iff.mp hset), List.filter_cons, ih,
        List.filter_cons]
      split
      · next hfirst =>
        have hkey : (uri, name) ≠ (uri', name') :=
          fun heq => hset ((hasKey_eq_true_iff.mp hfirst).trans heq.symm)
        rw [if_neg hkey, if_neg hkey]
      · rfl

/-- Setting an attribute changes the answer for its own key, and for no other. -/
theorem attributeNs?_setAttributeNs (uri uri' : Option String) (name name' value : String) :
    (element.setAttributeNs uri name value).attributeNs? uri' name' =
      if (nonEmpty uri, name) = (uri', name') then some value
      else element.attributeNs? uri' name' := by
  obtain ⟨localName, elementUri, attributes, children, text⟩ := element
  simp only [attributeNs?, Element.setAttributeNs, Element.attributes, ← List.head?_filter,
    filter_putAttribute]
  split <;> rfl

/-- After a change, a key has the value that the change sets, or else what it had. -/
theorem attributeNs?_apply (change : Change) (uri : Option String) (name : String) :
    (change.apply element).attributeNs? uri name =
      (change.value? (uri, name)).or (element.attributeNs? uri name) := by
  obtain ⟨localName, elementUri, attributes, children, text⟩ := element
  cases change with
  | setAttributeNs =>
    rw [Change.apply, attributeNs?_setAttributeNs, Change.value?]
    split <;> rfl
  | setText | addChild => rfl

/-- After any changes, a key has the value that was set last, or else what it had. -/
theorem attributeNs?_after (element : Element) (changes : List Change) (uri : Option String)
    (name : String) : (element.after changes).attributeNs? uri name =
      (lastValue? (uri, name) changes).or (element.attributeNs? uri name) := by
  -- from the end, where the change stands that decides
  induction changes using List.reverseRecOn with
  | nil => simp [after, lastValue?]
  | append_singleton before last ih =>
    have hstep : element.after (before ++ [last]) = last.apply (element.after before) := by
      simp [after]
    have hlast : lastValue? (uri, name) (before ++ [last]) =
        (last.value? (uri, name)).or (lastValue? (uri, name) before) := by
      rw [lastValue?, List.reverse_append, List.findSome?_append, List.reverse_singleton,
        List.findSome?_singleton, lastValue?]
    rw [hstep, attributeNs?_apply, ih, hlast, Option.or_assoc]

/-- A change adds a child at the end, or none. -/
theorem children_apply (change : Change) :
    (change.apply element).children = element.children ++ change.child?.toList := by
  obtain ⟨localName, uri, attributes, children, text⟩ := element
  cases change <;> simp [Change.apply, Change.child?, Element.setAttributeNs, Element.setText,
    Element.addChild, Element.children]

/-- After any changes, the children that were added stand behind those that there were, in order. -/
theorem children_after (element : Element) (changes : List Change) :
    (element.after changes).children = element.children ++ changes.filterMap Change.child? := by
  induction changes generalizing element with
  | nil => simp [after]
  | cons first rest ih =>
    have hrest : (element.after (first :: rest)).children =
        (first.apply element).children ++ rest.filterMap Change.child? := ih _
    rw [hrest, children_apply, List.append_assoc, List.filterMap_cons]
    cases first.child? <;> rfl

/-- An element that has been come by and changed has been come by, if the added children have. -/
theorem Obtained.after (h : element.Obtained)
    (hadded : ∀ child ∈ changes.filterMap Change.child?, child.Obtained) :
    (element.after changes).Obtained := by
  induction changes generalizing element with
  | nil => exact h
  | cons first rest ih =>
    have hrest : ∀ child ∈ rest.filterMap Change.child?, child.Obtained := fun child hchild => by
      obtain ⟨change, hchange, hadds⟩ := List.mem_filterMap.mp hchild
      exact hadded child (List.mem_filterMap.mpr ⟨change, List.mem_cons_of_mem _ hchange, hadds⟩)
    refine ih ?_ hrest
    cases first with
    | setAttributeNs uri name value => exact h.setAttributeNs uri name value
    | setText text => exact h.setText text
    | addChild child => exact h.addChild (hadded child List.mem_cons_self)

/-- **Every node of an element that is come by and changed is well formed**, if what is added is
come by as well. An attribute has the value that was set for its key last, and setting one leaves
the others as they are, and keeps its place if it was there. Children are only added after the
others. -/
theorem Obtained.isWellFormed_after (h : element.Obtained)
    (hadded : ∀ child ∈ changes.filterMap Change.child?, child.Obtained) :
    (element.after changes).Every IsWellFormed ∧
      (∀ uri name, (element.after changes).attributeNs? uri name =
        (lastValue? (uri, name) changes).or (element.attributeNs? uri name)) ∧
      (∀ uri name value, (element.setAttributeNs uri name value).attributes =
        if (nonEmpty uri, name) ∈ element.attributes.map attributeKey then
          element.attributes.map fun candidate =>
            if attributeKey candidate = (nonEmpty uri, name) then { candidate with value := value }
            else candidate
        else element.attributes ++ [⟨nonEmpty uri, name, value⟩]) ∧
      (∀ uri name value uri' name', (uri', name') ≠ (nonEmpty uri, name) →
        (element.setAttributeNs uri name value).attributeNs? uri' name' =
          element.attributeNs? uri' name') ∧
      (element.after changes).children =
        element.children ++ changes.filterMap Change.child? := by
  refine ⟨(h.after hadded).every_isWellFormed, attributeNs?_after element changes, ?_, ?_,
    children_after element changes⟩
  · intro uri name value
    have hkeys := h.every_isWellFormed.test.attributeKeys
    have hset : (element.setAttributeNs uri name value).attributes =
        putAttribute (nonEmpty uri) name value element.attributes := by
      cases element
      rfl
    rw [hset]
    split
    · next hmem => exact putAttribute_of_mem hmem hkeys value
    · next hnew => exact putAttribute_of_not_mem hnew value
  · intro uri name value uri' name' hne
    rw [attributeNs?_setAttributeNs, if_neg (Ne.symm hne)]

/-- A child is added to an element that has been read, its attribute set again and its text
blanked. -/
theorem isWellFormed_after_mixed : mixed.Obtained ∧
    (mixed.after [.setText (some " "), .addChild (named "c"),
      .setAttributeNs (some "u") "k" "1", .setAttributeNs none "k" "2"]).Every IsWellFormed ∧
    (mixed.after [.setText (some " "), .addChild (named "c"),
      .setAttributeNs (some "u") "k" "1", .setAttributeNs none "k" "2"]).attributeNs?
        (some "u") "k" = some "1" := by
  have hadded : ∀ child ∈ [Change.setText (some " "), .addChild (named "c"),
      .setAttributeNs (some "u") "k" "1", .setAttributeNs none "k" "2"].filterMap Change.child?,
      child.Obtained := by
    intro child hchild
    obtain rfl := List.mem_singleton.mp hchild
    have hmake : Element.make "c" none = .ok (named "c") := rfl
    exact .make hmake
  obtain ⟨hformed, hvalue, -⟩ := Obtained.isWellFormed_after (.parse parse_mixed) hadded
  refine ⟨.parse parse_mixed, hformed, ?_⟩
  rw [hvalue]
  rfl

end RemoteCall.Element
