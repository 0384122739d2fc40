import RemoteCall.Proofs.Json.Grouping
import RemoteCall.Proofs.Json.Ordered

/-!
# Data sections in normal form

Elements know neither numbers nor nulls, and an array of one item looks like its item. A value in
normal form avoids all that: texts, and objects whose members have names for elements, with arrays
of several items in them. Such an object is read as a data section, and the data section is
written as the same object.
-/

namespace RemoteCall.Json

/-- A value that is a text or an object with members. Each member has a name for an element, and is
in normal form itself or an array of several values that are. -/
inductive IsNormal : Json → Prop
  | string (text : String) : IsNormal (.string text)
  | object {members : List (String × Json)} (hne : members ≠ [])
      (hnames : ∀ member ∈ members, isName member.1 = true)
      (hseveral : ∀ member ∈ members, ∀ items, member.2 = .array items → 2 ≤ items.length)
      (hitems : ∀ member ∈ members, ∀ item ∈ spread member.2, IsNormal item) :
      IsNormal (.object members)

/-- A value in normal form that is no array stands for itself alone. -/
theorem IsNormal.spread_eq {value : Json} (h : IsNormal value) : spread value = [value] := by
  cases h <;> rfl

/-- What an ordered value stands for is ordered. -/
theorem IsOrdered.of_mem_spread {value item : Json} (h : value.IsOrdered)
    (hitem : item ∈ spread value) : item.IsOrdered := by
  cases value with
  | array items => exact h.items item hitem
  | null | bool | number | string | object =>
    rw [List.mem_singleton.mp hitem]
    exact h

variable {name : String} {members : List (String × Json)}

/-! ## Reading -/

/-- Members are read one after the other, each as the elements of its values. -/
theorem toChildren_cons (name : String) (value : Json) (rest : List (String × Json)) :
    toChildren ((name, value) :: rest) =
      match toElements name (spread value) with
      | .error fault => .error fault
      | .ok elements =>
        match toChildren rest with
        | .error fault => .error fault
        | .ok others => .ok (elements ++ others) := by
  have hone (single : Json) : toElements name [single] =
      (toElement name single).map ([·]) := by
    rw [toElements, toElements]
    cases toElement name single <;> rfl
  cases value with
  | array items => rfl
  | null | bool | number | string | object =>
    simp only [toChildren, spread, hone]
    cases toElement name _ <;> rfl

/-- A value becomes an element that becomes the value again. -/
def Returns (name : String) (value : Json) : Prop :=
  ∃ element, toElement name value = .ok element ∧ element.localName = name ∧
    ofElement element = value

/-- The members of the first children stand before those of the others. -/
theorem ofChildren_append (first second : List Element) :
    ofChildren (first ++ second) = ofChildren first ++ ofChildren second := by
  simp only [ofChildren_eq_map, List.map_append]

/-- Items that return make elements of one name that return. -/
theorem exists_toElements {items : List Json} (h : ∀ item ∈ items, Returns name item) :
    ∃ elements, toElements name items = .ok elements ∧
      ofChildren elements = items.map (name, ·) := by
  induction items with
  | nil => exact ⟨[], rfl, rfl⟩
  | cons item items ih =>
    obtain ⟨⟨element, helement, hname, hvalue⟩, hrest⟩ := List.forall_mem_cons.mp h
    obtain ⟨elements, helements, hvalues⟩ := ih hrest
    refine ⟨element :: elements, ?_, ?_⟩
    · simp only [toElements, helement, helements]
    · rw [ofChildren, hname, hvalue, hvalues, List.map_cons]

/-- Members whose values return become children that become these values one by one. -/
theorem exists_toChildren
    (h : ∀ member ∈ members, ∀ item ∈ spread member.2, Returns member.1 item) :
    ∃ children, toChildren members = .ok children ∧ ofChildren children = flatten members := by
  induction members with
  | nil => exact ⟨[], rfl, rfl⟩
  | cons member members ih =>
    obtain ⟨hfirst, hrest⟩ := List.forall_mem_cons.mp h
    obtain ⟨elements, helements, hvalues⟩ := exists_toElements hfirst
    obtain ⟨others, hothers, hflat⟩ := ih hrest
    refine ⟨elements ++ others, ?_, ?_⟩
    · rw [toChildren_cons, helements, hothers]
    · rw [ofChildren_append, hvalues, hflat, flatten, flatten, List.flatMap_cons]

/-- An object whose values return becomes children that are grouped to the same members. -/
theorem exists_gatherMembers (hsorted : Entries.Sorted members)
    (hgrouped : ∀ member ∈ members, member.2.IsGrouped)
    (h : ∀ member ∈ members, ∀ item ∈ spread member.2, Returns member.1 item) :
    ∃ children, toChildren members = .ok children ∧ ofChildren children = flatten members ∧
      gatherMembers [] (ofChildren children) none = members := by
  obtain ⟨children, hchildren, hflat⟩ := exists_toChildren h
  refine ⟨children, hchildren, hflat, ?_⟩
  rw [hflat]
  exact (foldl_addMember_flatten hsorted hgrouped :
    (flatten members).foldl addMember [] = [] ++ members)

/-- Members that are grouped stand for something if there are any. -/
theorem flatten_ne_nil (hne : members ≠ []) (hgrouped : ∀ member ∈ members, member.2.IsGrouped) :
    flatten members ≠ [] := by
  obtain ⟨member, rest, rfl⟩ := List.exists_cons_of_ne_nil hne
  have hspread : spread member.2 ≠ [] := by
    intro hnil
    cases hvalue : member.2 with
    | array items =>
      have hlength := (hgrouped member (List.mem_cons_self ..)).several items hvalue
      rw [hvalue, spread] at hnil
      rw [hnil] at hlength
      simp at hlength
    | null | bool | number | string | object =>
      rw [hvalue] at hnil
      cases hnil
  simp [flatten, hspread]

/-- A value in normal form returns. -/
theorem IsNormal.returns {value : Json} (h : value.IsNormal) (hordered : value.IsOrdered)
    (hname : isName name = true) : Returns name value := by
  induction h generalizing name with
  | string text =>
    refine ⟨leafOrNode name [] (some text), ?_, rfl, ?_⟩
    · simp [toElement, hname, scalarText]
    · by_cases hempty : text = ""
      · subst hempty
        rfl
      · simp [leafOrNode, ofElement, Element.keptText, Element.nonEmpty, Option.filter, hempty]
  | object hne hnames hseveral hitems ih =>
    next members =>
    -- No item is an array, so what children of one name are gathered in is not mistaken for one.
    have hgrouped : ∀ member ∈ members, member.2.IsGrouped := fun member hmember =>
      ⟨fun item hitem => (hitems member hmember item hitem).spread_eq, hseveral member hmember⟩
    have hreturns : ∀ member ∈ members, ∀ item ∈ spread member.2, Returns member.1 item :=
      fun member hmember item hitem => ih member hmember item hitem
        ((hordered.members member hmember).of_mem_spread hitem) (hnames member hmember)
    obtain ⟨children, hchildren, hflat, hgathered⟩ :=
      exists_gatherMembers hordered.sorted hgrouped hreturns
    have hsome : children ≠ [] := by
      rintro rfl
      exact flatten_ne_nil hne hgrouped hflat.symm
    refine ⟨leafOrNode name children none, ?_, rfl, ?_⟩
    · simp [toElement, hname, hchildren]
    · have hempty : children.isEmpty = false := List.isEmpty_eq_false_iff.mpr hsome
      simp only [leafOrNode, ofElement, hempty, Bool.and_false, Bool.false_eq_true, if_false]
      exact congrArg Json.object hgathered

/-- Where an element becomes an object, it becomes the same as a data section. -/
theorem ofDataSection_of_ofElement {element : Element} (h : ofElement element = .object members) :
    ofDataSection element = .object members := by
  obtain ⟨name, uri, attributes, children, text⟩ := element
  rw [ofElement] at h
  split at h
  · cases h
  · exact h

/-- **Objects in normal form survive being a data section.** A text that spells an object in normal
form, or the empty object, is read as a data section, and the result that bears this data section
is written with the same object, whatever the names of its members. -/
theorem exists_readDataSection_of_isNormal {text : String}
    (hparse : parse? text = some (.object members))
    (hnormal : members = [] ∨ IsNormal (.object members)) :
    ∃ data, readDataSection text = .ok data ∧
      (ofResult (CallResult.success.withData data)).member? dataMember = some (.object members) := by
  have hname : isName "data" = true := by decide
  rw [readDataSection, hparse]
  rcases hnormal with rfl | hnormal
  · exact ⟨leafOrNode "data" [] none, by simp [isObject, toElement, toChildren, hname],
      member?_ofResult _ _⟩
  · obtain ⟨data, hread, -, hwritten⟩ := hnormal.returns (isOrdered_of_parse? hparse) hname
    refine ⟨data, hread, ?_⟩
    rw [member?_ofResult, ofDataSection_of_ofElement hwritten]

/-- Members called as those of the framework, an array of different values, and an empty text. -/
def petsText : String :=
  "\x7b\"pet\": [\x7b\"content\": \"Rex\", \"data\": \x7b\"errorCode\": \" \"\x7d\x7d, \"\", \"Tom\"]\x7d"

/-- The members of the first of the pets. -/
def firstPet : List (String × Json) :=
  [("content", .string "Rex"), ("data", .object [("errorCode", .string " ")])]

/-- Of three pets, an object, an empty text and a text, none is lost, and their order is kept. -/
theorem exists_readDataSection_of_isNormal_pets :
    ∃ data, readDataSection petsText = .ok data ∧
      (ofResult (CallResult.success.withData data)).member? dataMember =
        some (.object [("pet", .array [.object firstPet, .string "", .string "Tom"])]) := by
  have hparse : parse? petsText =
      some (.object [("pet", .array [.object firstPet, .string "", .string "Tom"])]) := by
    with_unfolding_all rfl
  have hinner : IsNormal (.object [("errorCode", .string " ")]) := by
    refine .object (by simp) (by decide) (by simp) ?_
    simp [spread, IsNormal.string]
  have hfirst : IsNormal (.object firstPet) := by
    refine .object (by simp [firstPet]) (by decide) (by simp [firstPet]) ?_
    simp [firstPet, spread, IsNormal.string, hinner]
  refine exists_readDataSection_of_isNormal hparse (Or.inr (.object (by simp) (by decide) ?_ ?_))
  · simp
  · simp [spread, IsNormal.string, hfirst]

end RemoteCall.Json
