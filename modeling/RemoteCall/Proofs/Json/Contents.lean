import Mathlib.Data.Multiset.OrderedMonoid
import RemoteCall.Proofs.Element.Built
import RemoteCall.Proofs.Json.Grouping

/-!
# What is left of a data section

The attributes, children and text of an element become members of one object. A child joins
whatever has its name already, but an attribute takes the place of an earlier one, and the text
takes the place of all that is called `content`. The texts that are found in the object are among
those of the element, and they are all of them just if no name is taken twice in this way, in the
element and in all below it.
-/

namespace RemoteCall

open Xml (Attribute)

namespace Element

mutual

/-- The texts that an element holds: the values of its attributes, what its children hold, and its
text. An element without attributes and children holds one text, which may be empty. -/
def contents : Element → Multiset String
  | .mk _ _ attributes children text =>
    if attributes.isEmpty && children.isEmpty then {text.getD ""}
    else (attributes.map Attribute.value : List String) + contentsOfAll children + text.toList

/-- The texts that elements hold. -/
def contentsOfAll : List Element → Multiset String
  | [] => 0
  | element :: rest => contents element + contentsOfAll rest

end

/-- The texts that a data section holds. Unlike other elements, it may hold none. -/
def dataContents (data : Element) : Multiset String :=
  (data.attributes.map Attribute.value : List String) + contentsOfAll data.children +
    data.text.toList

/-- The attributes have different local names, and beside text nothing is called `content`. -/
structure KeepsApart (element : Element) : Prop where
  attributes : (element.attributes.map Attribute.localName).Nodup
  text : element.text ≠ none → "content" ∉ element.attributes.map Attribute.localName ∧
    "content" ∉ element.children.map localName

end Element

namespace Json

open Element (contents contentsOfAll dataContents KeepsApart)

mutual

/-- The texts at the leaves of a value. -/
def leaves : Json → Multiset String
  | .string text => {text}
  | .array items => leavesOfItems items
  | .object members => leavesOfMembers members
  | _ => 0

/-- The texts at the leaves of items. -/
def leavesOfItems : List Json → Multiset String
  | [] => 0
  | item :: rest => leaves item + leavesOfItems rest

/-- The texts at the leaves of members. -/
def leavesOfMembers : List (String × Json) → Multiset String
  | [] => 0
  | (_, value) :: rest => leaves value + leavesOfMembers rest

end

/-- The leaves of an array are those of its items. -/
theorem leaves_array (items : List Json) : leaves (.array items) = (items.map leaves).sum := by
  rw [leaves]
  induction items with
  | nil => rfl
  | cons item items ih => rw [leavesOfItems, ih, List.map_cons, List.sum_cons]

/-- The leaves of members are those of their values, under whatever names. -/
theorem leavesOfMembers_eq_sum (members : List (String × Json)) :
    leavesOfMembers members = (members.map fun member => leaves member.2).sum := by
  induction members with
  | nil => rfl
  | cons member members ih => rw [leavesOfMembers, ih, List.map_cons, List.sum_cons]

/-- The values that a member stands for have its leaves. -/
theorem leaves_spread (value : Json) : ((spread value).map leaves).sum = leaves value := by
  cases value with
  | array items => exact (leaves_array items).symm
  | null | bool | number | string | object => simp [spread]

/-! ## Losses -/

/-- What is found is part of what is expected, and all of it under just this condition. -/
structure FoundIff (found expected : Multiset String) (condition : Prop) : Prop where
  le : found ≤ expected
  eq_iff : found = expected ↔ condition

section

variable {found found' expected expected' : Multiset String} {condition condition' : Prop}

/-- All is found where it has to be. -/
theorem FoundIff.of_eq (h : found = expected) (hcondition : condition) :
    FoundIff found expected condition :=
  ⟨h.le, iff_of_true h hcondition⟩

/-- The condition may be said in another way. -/
theorem FoundIff.congr (h : FoundIff found expected condition) (hiff : condition ↔ condition') :
    FoundIff found expected condition' :=
  ⟨h.le, h.eq_iff.trans hiff⟩

/-- Of two parts, all is found just if all is found of each, since neither makes up for the other.
-/
theorem FoundIff.add (h : FoundIff found expected condition)
    (h' : FoundIff found' expected' condition') :
    FoundIff (found + found') (expected + expected') (condition ∧ condition') where
  le := add_le_add h.le h'.le
  eq_iff := by rw [add_eq_add_iff_eq_and_eq h.le h'.le, h.eq_iff, h'.eq_iff]

end

/-! ## Members -/

/-- Members in their order, each with some text in it. -/
structure IsFilled (members : List (String × Json)) : Prop where
  sorted : Entries.Sorted members
  values : ∀ member ∈ members, leaves member.2 ≠ 0

variable {name : String} {value : Json} {members : List (String × Json)}

/-- No members are filled. -/
theorem IsFilled.nil : IsFilled [] :=
  ⟨List.Pairwise.nil, List.forall_mem_nil _⟩

/-- Entering a value with some text in it keeps the members filled. -/
theorem IsFilled.insert (h : IsFilled members) (hvalue : leaves value ≠ 0) :
    IsFilled (Entries.insert name value members) where
  sorted := Entries.sorted_insert h.sorted
  values member hmember := by
    rcases Entries.mem_insert hmember with rfl | hmember
    · exact hvalue
    · exact h.values member hmember

/-- A value that is found among filled members has some text in it. -/
theorem IsFilled.leaves_of_find? (h : IsFilled members)
    (hfind : Entries.find? name members = some value) : leaves value ≠ 0 :=
  h.values _ ((Entries.find?_eq_some_iff h.sorted).mp hfind)

/-- Filled members have some text in them if there are any. -/
theorem IsFilled.leavesOfMembers_ne_zero (h : IsFilled members) (hne : members ≠ []) :
    leavesOfMembers members ≠ 0 := by
  obtain ⟨member, rest, rfl⟩ := List.exists_cons_of_ne_nil hne
  intro hzero
  rw [leavesOfMembers, add_eq_zero] at hzero
  exact h.values member (List.mem_cons_self ..) hzero.1

/-- The leaves of members among which a value is put: those of the value that it replaces go. -/
theorem leavesOfMembers_insert (hsorted : Entries.Sorted members) (name : String) (value : Json) :
    leavesOfMembers (Entries.insert name value members) +
        ((Entries.find? name members).map leaves).getD 0 =
      leavesOfMembers members + leaves value := by
  rw [leavesOfMembers_eq_sum, leavesOfMembers_eq_sum]
  exact Entries.sum_insert leaves hsorted

/-- A value that is put among members is lost for none of them just if its name is new. -/
theorem foundIff_insert {expected : Multiset String} {condition : Prop} (hfilled : IsFilled members)
    (h : FoundIff (leavesOfMembers members) expected condition) (name : String) (value : Json) :
    FoundIff (leavesOfMembers (Entries.insert name value members)) (expected + leaves value)
      (condition ∧ Entries.find? name members = none) := by
  have hsum := leavesOfMembers_insert hfilled.sorted name value
  cases hfind : Entries.find? name members with
  | none =>
    rw [hfind, Option.map_none, Option.getD_none, add_zero] at hsum
    rw [hsum]
    exact (h.add (.of_eq rfl trivial)).congr (by simp)
  | some old =>
    rw [hfind, Option.map_some, Option.getD_some] at hsum
    have hlt : leavesOfMembers (Entries.insert name value members) <
        leavesOfMembers members + leaves value := by
      rw [← hsum]
      exact lt_add_of_pos_right _ (pos_of_ne_zero (hfilled.leaves_of_find? hfind))
    -- What has been replaced held some text, and that is missing now.
    have hlt' := hlt.trans_le (add_le_add_left h.le (leaves value))
    exact ⟨hlt'.le, by simp [hlt'.ne]⟩

/-! ## Children -/

/-- Adding a child enters a value that has its leaves and those of what has been there. -/
theorem exists_addMember_eq (members : List (String × Json)) (child : String × Json) :
    ∃ joined, addMember members child = Entries.insert child.1 joined members ∧
      leaves joined =
        ((Entries.find? child.1 members).map leaves).getD 0 + leaves child.2 := by
  cases hfind : Entries.find? child.1 members with
  | none => exact ⟨child.2, addMember_of_none hfind child.2, by simp⟩
  | some existing =>
    refine ⟨_, addMember_of_some hfind child.2, ?_⟩
    rw [leaves_array, List.map_append, List.sum_append, leaves_spread]
    simp

/-- Adding a child adds its leaves, and takes none away. -/
theorem leavesOfMembers_addMember (hsorted : Entries.Sorted members) (child : String × Json) :
    leavesOfMembers (addMember members child) = leavesOfMembers members + leaves child.2 := by
  obtain ⟨joined, hadd, hleaves⟩ := exists_addMember_eq members child
  have hsum := leavesOfMembers_insert hsorted child.1 joined
  rw [hleaves, add_comm (Option.getD _ _), ← add_assoc] at hsum
  rw [hadd]
  exact add_right_cancel hsum

/-- Adding a child with some text in it keeps the members filled. -/
theorem IsFilled.addMember (h : IsFilled members) {child : String × Json}
    (hchild : leaves child.2 ≠ 0) : IsFilled (addMember members child) := by
  obtain ⟨joined, hadd, hleaves⟩ := exists_addMember_eq members child
  rw [hadd]
  refine h.insert fun hzero => hchild ?_
  rw [hleaves, add_eq_zero] at hzero
  exact hzero.2

/-- A name is still free if it is not that of the child. -/
theorem find?_addMember_eq_none_iff {child : String × Json} :
    Entries.find? name (addMember members child) = none ↔
      child.1 ≠ name ∧ Entries.find? name members = none := by
  obtain ⟨joined, hadd, -⟩ := exists_addMember_eq members child
  rw [hadd, Entries.find?_insert_eq_none_iff]

variable {values : List (String × Json)}

/-- Adding children with some text in each keeps the members filled. -/
theorem IsFilled.foldl_addMember (h : IsFilled members)
    (hvalues : ∀ child ∈ values, leaves child.2 ≠ 0) :
    IsFilled (values.foldl Json.addMember members) := by
  induction values generalizing members with
  | nil => exact h
  | cons child values ih =>
    obtain ⟨hchild, hrest⟩ := List.forall_mem_cons.mp hvalues
    exact ih (h.addMember hchild) hrest

/-- Children are grouped without loss. -/
theorem leavesOfMembers_foldl_addMember (h : IsFilled members)
    (hvalues : ∀ child ∈ values, leaves child.2 ≠ 0) :
    leavesOfMembers (values.foldl addMember members) =
      leavesOfMembers members + leavesOfMembers values := by
  induction values generalizing members with
  | nil => rw [List.foldl_nil, leavesOfMembers, add_zero]
  | cons child values ih =>
    obtain ⟨hchild, hrest⟩ := List.forall_mem_cons.mp hvalues
    rw [List.foldl_cons, ih (h.addMember hchild) hrest, leavesOfMembers_addMember h.sorted child,
      leavesOfMembers, add_assoc]

/-- A name is free in the end if no child has it and it was free before. -/
theorem find?_foldl_addMember_eq_none_iff :
    Entries.find? name (values.foldl addMember members) = none ↔
      name ∉ values.map Prod.fst ∧ Entries.find? name members = none := by
  induction values generalizing members with
  | nil => simp
  | cons child values ih =>
    rw [List.foldl_cons, ih, find?_addMember_eq_none_iff, List.map_cons, List.mem_cons, not_or,
      ne_comm]
    tauto

/-! ## Attributes -/

variable {attributes : List Attribute}

/-- The last of the attributes is entered last, in place of an earlier one of its name. -/
theorem attributeMembers_concat (attributes : List Attribute) (last : Attribute) :
    attributeMembers (attributes ++ [last]) =
      Entries.insert last.localName (.string last.value) (attributeMembers attributes) := by
  simp only [attributeMembers, List.map_append, List.map_singleton, Entries.ofList_concat]

/-- The members of attributes are filled: each value is a text of its own. -/
theorem isFilled_attributeMembers (attributes : List Attribute) :
    IsFilled (attributeMembers attributes) := by
  induction attributes using List.reverseRecOn with
  | nil => exact .nil
  | append_singleton attributes last ih =>
    rw [attributeMembers_concat]
    exact ih.insert (by simp [leaves])

/-- A name is free just if no attribute has it for its local name. -/
theorem find?_attributeMembers_eq_none_iff :
    Entries.find? name (attributeMembers attributes) = none ↔
      name ∉ attributes.map Attribute.localName := by
  induction attributes using List.reverseRecOn with
  | nil => simp [attributeMembers, Entries.ofList, Entries.find?]
  | append_singleton attributes last ih =>
    rw [attributeMembers_concat, Entries.find?_insert_eq_none_iff, ih]
    simp only [List.map_append, List.map_singleton, List.mem_append, List.mem_singleton]
    tauto

/-- No value of an attribute is lost just if the attributes have different local names. -/
theorem foundIff_attributeMembers (attributes : List Attribute) :
    FoundIff (leavesOfMembers (attributeMembers attributes))
      (attributes.map Attribute.value : List String)
      (attributes.map Attribute.localName).Nodup := by
  induction attributes using List.reverseRecOn with
  | nil => exact .of_eq rfl List.nodup_nil
  | append_singleton attributes last ih =>
    have hinsert := foundIff_insert (isFilled_attributeMembers attributes) ih last.localName
      (.string last.value)
    rw [attributeMembers_concat, List.map_append, ← Multiset.coe_add]
    refine hinsert.congr ?_
    rw [find?_attributeMembers_eq_none_iff, List.map_append, List.nodup_append]
    simp

/-! ## Elements -/

/-- The members of an element are filled if its children have some text in each. -/
theorem isFilled_gatherMembers (attributes : List Attribute) (text : Option String)
    (hvalues : ∀ child ∈ values, leaves child.2 ≠ 0) :
    IsFilled (gatherMembers attributes values text) := by
  have hfilled := (isFilled_attributeMembers attributes).foldl_addMember hvalues
  cases text with
  | none => exact hfilled
  | some text => exact hfilled.insert (by simp [leaves])

/-- The members are called as the attributes and the children are, and `content` if there is
text. -/
theorem find?_gatherMembers_eq_none_iff {text : Option String} :
    Entries.find? name (gatherMembers attributes values text) = none ↔
      name ∉ attributes.map Attribute.localName ∧ name ∉ values.map Prod.fst ∧
        (text ≠ none → name ≠ "content") := by
  cases text with
  | none =>
    simp only [gatherMembers, find?_foldl_addMember_eq_none_iff,
      find?_attributeMembers_eq_none_iff]
    tauto
  | some text =>
    simp only [gatherMembers, Entries.find?_insert_eq_none_iff, find?_foldl_addMember_eq_none_iff,
      find?_attributeMembers_eq_none_iff]
    tauto

/-- What is lost of an element by the names of its attributes and children, beside what is lost of
its children. -/
theorem foundIff_gatherMembers {expected : Multiset String} {condition : Prop}
    (attributes : List Attribute) (text : Option String)
    (hvalues : ∀ child ∈ values, leaves child.2 ≠ 0)
    (h : FoundIff (leavesOfMembers values) expected condition) :
    FoundIff (leavesOfMembers (gatherMembers attributes values text))
      ((attributes.map Attribute.value : List String) + expected + text.toList)
      (((attributes.map Attribute.localName).Nodup ∧
        (text ≠ none → "content" ∉ attributes.map Attribute.localName ∧
          "content" ∉ values.map Prod.fst)) ∧ condition) := by
  have hfilled := isFilled_attributeMembers attributes
  have hjoined : FoundIff (leavesOfMembers (values.foldl addMember (attributeMembers attributes)))
      ((attributes.map Attribute.value : List String) + expected)
      ((attributes.map Attribute.localName).Nodup ∧ condition) := by
    rw [leavesOfMembers_foldl_addMember hfilled hvalues]
    exact (foundIff_attributeMembers attributes).add h
  -- The text is entered last, so it takes the place of whatever is called as it is.
  cases text with
  | none =>
    have hnone : ((none : Option String).toList : Multiset String) = 0 := rfl
    rw [hnone, add_zero]
    exact hjoined.congr (by simp)
  | some text =>
    have hinsert := foundIff_insert (hfilled.foldl_addMember hvalues) hjoined "content" (.string text)
    refine hinsert.congr ?_
    rw [find?_foldl_addMember_eq_none_iff, find?_attributeMembers_eq_none_iff]
    simp only [ne_eq, reduceCtorEq, not_false_eq_true, forall_const]
    tauto

/-- Children are entered under their local names. -/
theorem map_fst_ofChildren (children : List Element) :
    (ofChildren children).map Prod.fst = children.map Element.localName := by
  rw [ofChildren_eq_map, List.map_map]
  rfl

/-- Whether nothing is lost is told by the names of the attributes and of the children. -/
theorem keepsApart_iff {localName : String} {uri : Option String} {children : List Element}
    {text : Option String} :
    KeepsApart (.mk localName uri attributes children text) ↔
      (attributes.map Attribute.localName).Nodup ∧
        (text ≠ none → "content" ∉ attributes.map Attribute.localName ∧
          "content" ∉ (ofChildren children).map Prod.fst) := by
  rw [map_fst_ofChildren]
  exact ⟨fun h => ⟨h.attributes, h.text⟩, fun h => ⟨h.1, h.2⟩⟩

mutual

/-- Every element becomes a value with some text in it, be it the empty one. -/
theorem leaves_ofElement_ne_zero : (element : Element) → leaves (ofElement element) ≠ 0
  | .mk _ _ attributes children text => by
    rw [ofElement]
    split
    · simp [leaves]
    · next hsome =>
      -- An object without members would have neither attributes nor children to name them.
      have hfilled := isFilled_gatherMembers attributes text (leaves_ofChildren_ne_zero children)
      refine hfilled.leavesOfMembers_ne_zero fun hnil => hsome ?_
      have hfind (name : String) :
          Entries.find? name (gatherMembers attributes (ofChildren children) text) = none := by
        rw [hnil, Entries.find?]
      have hnone (name : String) := find?_gatherMembers_eq_none_iff.mp (hfind name)
      have hattributes : attributes = [] := List.map_eq_nil_iff.mp
        (List.eq_nil_iff_forall_not_mem.mpr fun name => (hnone name).1)
      have hchildren : children = [] := by
        have hempty := List.eq_nil_iff_forall_not_mem.mpr fun name => (hnone name).2.1
        rw [map_fst_ofChildren] at hempty
        exact List.map_eq_nil_iff.mp hempty
      rw [hattributes, hchildren]
      rfl

/-- Every child becomes a value with some text in it. -/
theorem leaves_ofChildren_ne_zero :
    (children : List Element) → ∀ child ∈ ofChildren children, leaves child.2 ≠ 0
  | [] => List.forall_mem_nil _
  | child :: children => by
    rw [ofChildren]
    exact List.forall_mem_cons.mpr
      ⟨leaves_ofElement_ne_zero child, leaves_ofChildren_ne_zero children⟩

end

mutual

/-- What is lost of an element. -/
theorem foundIff_ofElement : (element : Element) →
    FoundIff (leaves (ofElement element)) (contents element) (element.Every KeepsApart)
  | .mk localName uri attributes children text => by
    rw [Element.every_iff, keepsApart_iff, ofElement, contents]
    split
    · next hempty =>
      obtain ⟨hattributes, hchildren⟩ := Bool.and_eq_true_iff.mp hempty
      obtain rfl := List.isEmpty_iff.mp hattributes
      obtain rfl := List.isEmpty_iff.mp hchildren
      exact .of_eq rfl (by simp [ofChildren, Element.children])
    · exact foundIff_gatherMembers attributes text (leaves_ofChildren_ne_zero children)
        (foundIff_ofChildren children)

/-- What is lost of the children of an element. -/
theorem foundIff_ofChildren : (children : List Element) →
    FoundIff (leavesOfMembers (ofChildren children)) (contentsOfAll children)
      (∀ child ∈ children, child.Every KeepsApart)
  | [] => .of_eq rfl (List.forall_mem_nil _)
  | child :: children => by
    rw [ofChildren, leavesOfMembers, contentsOfAll]
    exact ((foundIff_ofElement child).add (foundIff_ofChildren children)).congr
      List.forall_mem_cons.symm

end

/-- What is lost of a data section is lost in one of its elements. -/
theorem foundIff_ofDataSection (data : Element) :
    FoundIff (leaves (ofDataSection data)) data.dataContents (data.Every KeepsApart) := by
  obtain ⟨localName, uri, attributes, children, text⟩ := data
  rw [Element.every_iff, keepsApart_iff]
  exact foundIff_gatherMembers attributes text (leaves_ofChildren_ne_zero children)
    (foundIff_ofChildren children)

/-- **What the data section of a result holds is found in the object that the result becomes,**
and nothing else is. All of it is found just if in every element the attributes have different
local names, and none of them and no child is called `content` beside text. -/
theorem leaves_ofResult_data_eq_iff (result : CallResult) (data : Element) :
    ∃ value, (ofResult (result.withData data)).member? dataMember = some value ∧
      value.leaves ≤ data.dataContents ∧
      (value.leaves = data.dataContents ↔ data.Every KeepsApart) :=
  have hfound := foundIff_ofDataSection data
  ⟨ofDataSection data, member?_ofResult result data, hfound.le, hfound.eq_iff⟩

/-- A child joins the attribute whose name it has. -/
example : ofDataSection (.mk "data" none [⟨none, "a", "1"⟩] [.mk "a" none [] [] (some "2")] none) =
    .object [("a", .array [.string "1", .string "2"])] := rfl

/-- An element with two attributes that differ in the namespace alone. -/
def namesakes : Element :=
  ((Element.named "data").setAttribute "a" "1").setAttributeNs (some "u") "a" "2"

/-- An element with an attribute called as the member for text, and text. -/
def captioned : Element :=
  ((Element.named "data").setAttribute "content" "x").setText (some "y")

/-- The earlier namesake is lost, and so is what is called `content` beside text. -/
theorem leaves_ne_dataContents_namesakes :
    (namesakes.Built ∧ ∃ value,
      (ofResult (CallResult.success.withData namesakes)).member? dataMember = some value ∧
        value.leaves = {"2"} ∧ value.leaves ≠ namesakes.dataContents) ∧
    (captioned.Built ∧ ∃ value,
      (ofResult (CallResult.success.withData captioned)).member? dataMember = some value ∧
        value.leaves = {"y"} ∧ value.leaves ≠ captioned.dataContents) := by
  have hdata : (Element.named "data").Built := .make (rfl : Element.make "data" none = .ok _)
  have hnamesakes : ofDataSection namesakes = .object [("a", .string "2")] := rfl
  have hcaptioned : ofDataSection captioned = .object [("content", .string "y")] := rfl
  refine ⟨⟨.setAttributeNs _ _ _ (.setAttributeNs _ _ _ hdata), _, member?_ofResult _ _, ?_⟩,
    ⟨.setText _ (.setAttributeNs _ _ _ hdata), _, member?_ofResult _ _, ?_⟩⟩
  · rw [hnamesakes]
    exact ⟨rfl, by decide⟩
  · rw [hcaptioned]
    exact ⟨rfl, by decide⟩

end Json

end RemoteCall
