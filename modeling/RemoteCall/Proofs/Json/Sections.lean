import Mathlib.Data.List.Forall2
import RemoteCall.Convention.Script
import RemoteCall.Proofs.Element.Built
import RemoteCall.Proofs.Json.NormalForm
import RemoteCall.Proofs.Text.ByteOrder

/-!
# Objects that are data sections

An object can be a data section if elements can picture it: an array stands for elements of one
name, so none is right inside another, and a member has a name for elements wherever it makes some.
Exactly such objects are read as data sections. What is read has an element for every member and
for every item of one, in order, and holds nothing else.
-/

namespace RemoteCall.Json

/-- A letter, and then letters, digits, underscores, dots and hyphens, all ASCII. -/
def IsElementName (name : String) : Prop :=
  ∃ first rest, name.toList = first :: rest ∧ IsAsciiLetter first ∧
    ∀ c ∈ rest, IsAsciiLetter c ∨ ('0' ≤ c ∧ c ≤ '9') ∨ c = '_' ∨ c = '.' ∨ c = '-'
where
  /-- Whether the character is an upper or lower case letter. -/
  IsAsciiLetter (c : Char) : Prop := ('a' ≤ c ∧ c ≤ 'z') ∨ ('A' ≤ c ∧ c ≤ 'Z')

/-- The names that are checked for are those of elements. -/
theorem isName_iff_isElementName {name : String} : isName name = true ↔ IsElementName name := by
  cases hchars : name.toList with
  | nil => simp [isName, IsElementName, hchars]
  | cons first rest =>
    simp [isName, isNameCharacter, isLetter, Text.isDigit, IsElementName,
      IsElementName.IsAsciiLetter, hchars, or_assoc]

/-- The value stands somewhere in another one, or is that one itself. -/
inductive IsWithin (inner : Json) : Json → Prop
  | self : IsWithin inner inner
  | item {items : List Json} {item : Json} (hitem : item ∈ items) (h : IsWithin inner item) :
      IsWithin inner (.array items)
  | member {members : List (String × Json)} {member : String × Json} (hmember : member ∈ members)
      (h : IsWithin inner member.2) : IsWithin inner (.object members)

/-- At no depth there is an array right inside an array, or a member that makes elements under a
name that is none for them. An empty array makes no elements. -/
structure IsPicturable (value : Json) : Prop where
  items : ∀ items, IsWithin (.array items) value → ∀ inner, .array inner ∉ items
  names : ∀ members, IsWithin (.object members) value → ∀ member ∈ members,
    member.2 ≠ .array [] → IsElementName member.1

/-- The element pictures the value under the name: a text as its text, unless that is empty, and an
object by one child for each member that is no array and for each item of one that is, in order.
It has no attributes and no namespace. -/
inductive Pictures : String → Json → Element → Prop
  | null (name : String) : Pictures name .null (.mk name none [] [] none)
  | bool (name : String) (value : Bool) :
      Pictures name (.bool value) (.mk name none [] [] (some (if value then "true" else "false")))
  | number (name : String) (value : JsonNumber) :
      Pictures name (.number value) (.mk name none [] [] (some (String.ofList value.render)))
  | empty (name : String) : Pictures name (.string "") (.mk name none [] [] none)
  | text (name : String) {text : String} (h : text ≠ "") :
      Pictures name (.string text) (.mk name none [] [] (some text))
  | object (name : String) {members : List (String × Json)} {children : List Element}
      (hcount : (flatten members).length = children.length)
      (hchildren : ∀ pair ∈ (flatten members).zip children, Pictures pair.1.1 pair.1.2 pair.2) :
      Pictures name (.object members) (.mk name none [] children none)

/-- The element has a plain name, and neither attributes nor a namespace. -/
structure IsBare (element : Element) : Prop where
  name : IsElementName element.localName
  attributes : element.attributes = []
  namespaceUri : element.namespaceUri = none

/-! ## What is within a value -/

/-- What holds of all that members stand for holds of what each of them stands for. -/
theorem forall_mem_flatten_iff {members : List (String × Json)} {P : String × Json → Prop} :
    (∀ entry ∈ flatten members, P entry) ↔
      ∀ member ∈ members, ∀ item ∈ spread member.2, P (member.1, item) := by
  simp only [flatten, List.mem_flatMap, List.mem_map]
  constructor
  · intro h member hmember item hitem
    exact h _ ⟨member, hmember, item, hitem, rfl⟩
  · rintro h entry ⟨member, hmember, item, hitem, rfl⟩
    exact h member hmember item hitem

/-- What a value stands for is no larger than the value. -/
theorem sizeOf_le_of_mem_spread {value item : Json} (h : item ∈ spread value) :
    sizeOf item ≤ sizeOf value := by
  cases value with
  | array items =>
    have hlt := List.sizeOf_lt_of_mem (show item ∈ items from h)
    rw [array.sizeOf_spec]
    omega
  | null | bool | number | string | object =>
    exact Nat.le_of_eq (congrArg sizeOf (List.mem_singleton.mp h))

/-- What the members of an object stand for is smaller than the object. -/
theorem sizeOf_lt_of_mem_flatten {members : List (String × Json)} :
    ∀ entry ∈ flatten members, sizeOf entry.2 < sizeOf (Json.object members) := by
  rw [forall_mem_flatten_iff]
  intro member hmember item hitem
  have hle : sizeOf item ≤ sizeOf member.2 := sizeOf_le_of_mem_spread hitem
  have hlt := List.sizeOf_lt_of_mem hmember
  show sizeOf item < _
  rw [object.sizeOf_spec]
  rw [Prod.mk.sizeOf_spec] at hlt
  omega

/-- Objects are taken apart into what their members stand for, as reading does. -/
theorem flatten_induction {P : Json → Prop}
    (h : ∀ value, (∀ members, value = .object members → ∀ entry ∈ flatten members, P entry.2) →
      P value) (value : Json) : P value := by
  refine h value fun members hvalue entry hentry => ?_
  have hlt : sizeOf entry.2 < sizeOf value := hvalue ▸ sizeOf_lt_of_mem_flatten entry hentry
  exact flatten_induction h entry.2
termination_by sizeOf value

variable {name : String} {value : Json} {members : List (String × Json)}

/-- Nothing but the value itself is within a value that is neither an array nor an object. -/
theorem isPicturable_of_ne (hitems : ∀ items, value ≠ .array items)
    (hmembers : ∀ members, value ≠ .object members) : IsPicturable value where
  items items h := by
    cases h with
    | self => exact absurd rfl (hitems items)
    | item => exact absurd rfl (hitems _)
    | member => exact absurd rfl (hmembers _)
  names members h := by
    cases h with
    | self => exact absurd rfl (hmembers members)
    | item => exact absurd rfl (hitems _)
    | member => exact absurd rfl (hmembers _)

/-- An array can be pictured if its items can and none is an array. -/
theorem isPicturable_array_iff {items : List Json} : IsPicturable (.array items) ↔
    ∀ item ∈ items, (∀ inner, item ≠ .array inner) ∧ IsPicturable item := by
  constructor
  · intro h item hitem
    refine ⟨fun inner heq => h.items items .self inner (heq ▸ hitem), ?_, ?_⟩
    · exact fun inner hinner => h.items inner (.item hitem hinner)
    · exact fun members hmembers => h.names members (.item hitem hmembers)
  · intro h
    constructor
    · intro inner hinner deeper hdeeper
      cases hinner with
      | self => exact (h _ hdeeper).1 deeper rfl
      | item hitem hinner => exact (h _ hitem).2.items inner hinner deeper hdeeper
    · intro members hmembers
      cases hmembers with
      | item hitem hmembers => exact (h _ hitem).2.names members hmembers

/-- An object can be pictured if its members can, under names for elements wherever they make
elements. -/
theorem isPicturable_object_iff : IsPicturable (.object members) ↔
    ∀ member ∈ members, (member.2 ≠ .array [] → IsElementName member.1) ∧
      IsPicturable member.2 := by
  constructor
  · intro h member hmember
    refine ⟨h.names members .self member hmember, ?_, ?_⟩
    · exact fun inner hinner => h.items inner (.member hmember hinner)
    · exact fun members hmembers => h.names members (.member hmember hmembers)
  · intro h
    constructor
    · intro inner hinner
      cases hinner with
      | member hmember hinner => exact (h _ hmember).2.items inner hinner
    · intro inner hinner
      cases hinner with
      | self => exact fun member hmember => (h member hmember).1
      | member hmember hinner => exact (h _ hmember).2.names inner hinner

/-- What a member stands for can be pictured one by one if the member can. -/
theorem forall_mem_spread_iff : (∀ item ∈ spread value, IsElementName name ∧
      (∀ items, item ≠ .array items) ∧ IsPicturable item) ↔
    (value ≠ .array [] → IsElementName name) ∧ IsPicturable value := by
  cases value with
  | array items =>
    rw [isPicturable_array_iff]
    cases items with
    | nil => simp [spread]
    | cons item items =>
      have hne : Json.array (item :: items) ≠ .array [] := by simp
      simp only [spread, forall_and, List.forall_mem_cons, forall_const, ne_eq, hne,
        not_false_eq_true]
      tauto
  | null | bool | number | string | object => simp [spread]

/-- An object can be pictured if all can that its members stand for. -/
theorem isPicturable_object_iff_flatten : IsPicturable (.object members) ↔
    ∀ entry ∈ flatten members, IsElementName entry.1 ∧ (∀ items, entry.2 ≠ .array items) ∧
      IsPicturable entry.2 := by
  rw [isPicturable_object_iff, forall_mem_flatten_iff]
  simp only [forall_mem_spread_iff]

/-! ## Reading -/

section

variable {α β ε : Type} {f : α → Except ε β}

/-- A step succeeds at all items just if it succeeds at each of them. -/
theorem mapM_eq_ok_iff {inputs : List α} {outputs : List β} : inputs.mapM f = .ok outputs ↔
    List.Forall₂ (fun input output => f input = .ok output) inputs outputs := by
  induction inputs generalizing outputs with
  | nil => simp [pure, Except.pure, eq_comm]
  | cons input inputs ih =>
    rw [List.mapM_cons]
    cases hinput : f input with
    | error e => simp [bind, Except.bind, List.forall₂_cons_left_iff, hinput]
    | ok output =>
      cases hinputs : inputs.mapM f with
      | error e =>
        simp [bind, Except.bind, List.forall₂_cons_left_iff, ← ih, hinputs]
      | ok rest =>
        simp [bind, Except.bind, pure, Except.pure, List.forall₂_cons_left_iff, ← ih, hinput,
          hinputs, eq_comm]

/-- A step that fails at some items fails with the error of one of them. -/
theorem exists_mem_of_mapM {inputs : List α} {e : ε} (h : inputs.mapM f = .error e) :
    ∃ input ∈ inputs, f input = .error e := by
  induction inputs with
  | nil => cases h
  | cons input inputs ih =>
    rw [List.mapM_cons] at h
    cases hinput : f input with
    | error e' =>
      rw [hinput] at h
      cases h
      exact ⟨input, List.mem_cons_self, hinput⟩
    | ok output =>
      cases hinputs : inputs.mapM f <;> rw [hinput, hinputs] at h <;> cases h
      exact (ih hinputs).imp fun _ => And.imp_left (List.mem_cons_of_mem _)

/-- Outputs can be chosen for all inputs just if there is one for each. -/
theorem exists_forall₂_iff {R : α → β → Prop} {inputs : List α} :
    (∃ outputs, List.Forall₂ R inputs outputs) ↔ ∀ input ∈ inputs, ∃ output, R input output := by
  induction inputs with
  | nil => simp
  | cons input inputs ih =>
    rw [List.forall_mem_cons, ← ih]
    constructor
    · rintro ⟨_, h⟩
      cases h with
      | cons hfirst hrest => exact ⟨⟨_, hfirst⟩, _, hrest⟩
    · rintro ⟨⟨output, hfirst⟩, outputs, hrest⟩
      exact ⟨output :: outputs, .cons hfirst hrest⟩

end

/-- Items become elements one by one. -/
theorem toElements_eq_mapM (name : String) (items : List Json) :
    toElements name items = items.mapM (toElement name) := by
  induction items with
  | nil => rfl
  | cons item items ih =>
    rw [toElements, List.mapM_cons, ← ih]
    cases toElement name item with
    | error fault => rfl
    | ok element => cases toElements name items <;> rfl

/-- Members become the elements that they stand for one by one. -/
theorem toChildren_eq_mapM (members : List (String × Json)) :
    toChildren members = (flatten members).mapM fun entry => toElement entry.1 entry.2 := by
  induction members with
  | nil => rfl
  | cons member members ih =>
    obtain ⟨name, value⟩ := member
    have hflat : flatten ((name, value) :: members) =
        (spread value).map (name, ·) ++ flatten members := by
      rw [flatten, List.flatMap_cons, ← flatten]
    have hitems : ((spread value).map (name, ·)).mapM (fun entry => toElement entry.1 entry.2) =
        (spread value).mapM (toElement name) := List.mapM_map
    rw [toChildren_cons, toElements_eq_mapM, ih, hflat, List.mapM_append, hitems]
    cases (spread value).mapM (toElement name) with
    | error fault => rfl
    | ok elements =>
      cases (flatten members).mapM fun entry => toElement entry.1 entry.2 <;> rfl

/-- An object is read with a child for everything that its members stand for. -/
theorem toElement_object_eq_ok_iff {element : Element} :
    toElement name (.object members) = .ok element ↔ IsElementName name ∧ ∃ children,
      List.Forall₂ (fun entry child => toElement entry.1 entry.2 = .ok child)
        (flatten members) children ∧ element = .mk name none [] children none := by
  simp only [← isName_iff_isElementName, ← mapM_eq_ok_iff, ← toChildren_eq_mapM, toElement]
  by_cases hname : isName name = true
  · cases toChildren members with
    | error fault => simp [hname]
    | ok children => simp [hname, leafOrNode, Element.keptText, Element.nonEmpty, eq_comm]
  · simp [hname]

/-- A scalar is read as its text. -/
theorem toElement_of_ne (hitems : ∀ items, value ≠ .array items)
    (hmembers : ∀ members, value ≠ .object members) : toElement name value =
      if isName name then .ok (.mk name none [] [] (Element.nonEmpty (scalarText value)))
      else .error (.elementName name) := by
  have hleaf (text : Option String) :
      leafOrNode name [] text = .mk name none [] [] (Element.nonEmpty text) := by
    cases htext : Element.nonEmpty text <;> simp [leafOrNode, Element.keptText, htext]
  cases value with
  | array items => exact absurd rfl (hitems items)
  | object members => exact absurd rfl (hmembers members)
  | null | bool | number | string =>
    rw [toElement, hleaf]
    · cases isName name <;> rfl
    · simp
    · simp

/-- An array is read under no name: what has to be said depends on the name. -/
theorem toElement_array (items : List Json) : toElement name (.array items) =
    .error (if isName name then .nestedArray name else .elementName name) := by
  rw [toElement]
  cases isName name <;> rfl

/-- What holds of the elements of scalars, and of an element if it does of its children, holds of
all elements that are read. -/
theorem toElement_induction {P : String → Json → Element → Prop}
    (hscalar : ∀ name value, IsElementName name → (∀ items, value ≠ .array items) →
      (∀ members, value ≠ .object members) →
      P name value (.mk name none [] [] (Element.nonEmpty (scalarText value))))
    (hobject : ∀ name members children, IsElementName name →
      List.Forall₂ (fun entry child => toElement entry.1 entry.2 = .ok child ∧
        P entry.1 entry.2 child) (flatten members) children →
      P name (.object members) (.mk name none [] children none))
    {element : Element} (h : toElement name value = .ok element) : P name value element := by
  induction value using flatten_induction generalizing name element with
  | h value ih =>
  cases value with
  | object members =>
    obtain ⟨hname, children, hchildren, rfl⟩ := toElement_object_eq_ok_iff.mp h
    refine hobject name members children hname ?_
    rw [List.forall₂_iff_zip] at hchildren ⊢
    refine hchildren.imp_right fun hzip entry child hmem => ⟨hzip hmem, ?_⟩
    exact ih members rfl entry (List.of_mem_zip hmem).1 (hzip hmem)
  | array items =>
    rw [toElement_array] at h
    cases h
  | null | bool | number | string =>
    rw [toElement_of_ne (by simp) (by simp)] at h
    split at h
    · next hname =>
      cases h
      exact hscalar name _ (isName_iff_isElementName.mp hname) (by simp) (by simp)
    · cases h

/-! ## What is read -/

/-- A number is never written as the empty text. -/
theorem render_ne_nil (value : JsonNumber) : value.render ≠ [] := by
  cases value with
  | integer value =>
    by_cases hsign : value < 0 <;>
      simp [JsonNumber.render, Text.integerText, Text.naturalText, hsign]
  | binary negative magnitude =>
    cases negative with
    | true => simp [JsonNumber.render, Decimal.Binary64.render]
    | false =>
      simp only [JsonNumber.render, Decimal.Binary64.render, Decimal.Scientific.render]
      repeat' split
      all_goals simp

/-- An element that is read pictures the value that it is read from. -/
theorem pictures_of_toElement {element : Element} (h : toElement name value = .ok element) :
    Pictures name value element := by
  refine toElement_induction ?_ ?_ h
  · intro name value _ hitems hmembers
    cases value with
    | null => exact .null name
    | bool value => cases value <;> exact .bool name _
    | number value =>
      have htext : String.ofList value.render ≠ "" := by
        rw [ne_eq, String.ofList_eq_empty_iff]
        exact render_ne_nil value
      have hkept : Element.nonEmpty (scalarText (.number value)) =
          some (String.ofList value.render) :=
        Element.nonEmpty_eq_self (mt Option.some.inj htext)
      rw [hkept]
      exact .number name value
    | string text =>
      by_cases htext : text = ""
      · subst htext
        exact .empty name
      · have hkept : Element.nonEmpty (scalarText (.string text)) = some text :=
          Element.nonEmpty_eq_self (mt Option.some.inj htext)
        rw [hkept]
        exact .text name htext
    | array items => exact absurd rfl (hitems items)
    | object members => exact absurd rfl (hmembers members)
  · intro name members children _ hchildren
    exact .object name hchildren.length_eq fun pair hpair => (List.forall₂_zip hchildren hpair).2

/-- An element that is read has plain names, and no attributes and namespaces, at every depth. -/
theorem every_isBare_of_toElement {element : Element} (h : toElement name value = .ok element) :
    element.Every IsBare := by
  refine toElement_induction (P := fun _ _ element => element.Every IsBare) ?_ ?_ h
  · intro name value hname _ _
    exact .node ⟨hname, rfl, rfl⟩ (by simp [Element.children])
  · intro name members children hname hchildren
    have hflipped : List.Forall₂ (fun child entry => child.Every IsBare ∧
        toElement entry.1 entry.2 = .ok child) children (flatten members) :=
      (hchildren.imp fun _ _ => And.symm).flip
    exact .node ⟨hname, rfl, rfl⟩ ((List.forall₂_and_left _ _).mp hflipped).1

/-- A value is read under a name for elements if it can be pictured and is no array. -/
theorem exists_toElement_iff : (∃ element, toElement name value = .ok element) ↔
    IsElementName name ∧ (∀ items, value ≠ .array items) ∧ IsPicturable value := by
  induction value using flatten_induction generalizing name with
  | h value ih =>
  cases value with
  | object members =>
    have hentries : (∃ children, List.Forall₂ (fun entry child => toElement entry.1 entry.2 =
        .ok child) (flatten members) children) ↔ IsPicturable (.object members) := by
      rw [exists_forall₂_iff, isPicturable_object_iff_flatten]
      exact forall₂_congr fun entry hentry => ih members rfl entry hentry
    simp [toElement_object_eq_ok_iff, ← hentries]
  | array items => simp [toElement_array]
  | null | bool | number | string =>
    rw [toElement_of_ne (by simp) (by simp), ← isName_iff_isElementName]
    cases isName name <;> simp [isPicturable_of_ne]

/-- A value that cannot be read has a name that is none for elements, or an array right inside an
array. -/
theorem fault_of_toElement {fault : RequestFault} (h : toElement name value = .error fault) :
    (∃ name, fault = .elementName name ∧ ¬ IsElementName name) ∨
      ∃ name, fault = .nestedArray name ∧ IsElementName name := by
  induction value using flatten_induction generalizing name with
  | h value ih =>
  cases value with
  | object members =>
    rw [toElement] at h
    split at h
    · next hname =>
      cases h
      exact .inl ⟨name, rfl, by simpa [← isName_iff_isElementName] using hname⟩
    · rw [toChildren_eq_mapM] at h
      cases hchildren : (flatten members).mapM fun entry => toElement entry.1 entry.2 with
      | ok children =>
        rw [hchildren] at h
        cases h
      | error fault' =>
        rw [hchildren] at h
        cases h
        obtain ⟨entry, hentry, hfault⟩ := exists_mem_of_mapM hchildren
        exact ih members rfl entry hentry hfault
  | array items =>
    rw [toElement_array] at h
    cases h
    by_cases hname : isName name = true
    · exact .inr ⟨name, by rw [if_pos hname], isName_iff_isElementName.mp hname⟩
    · exact .inl ⟨name, by rw [if_neg hname], mt isName_iff_isElementName.mpr hname⟩
  | null | bool | number | string =>
    rw [toElement_of_ne (by simp) (by simp)] at h
    split at h
    · cases h
    · next hname =>
      cases h
      exact .inl ⟨name, rfl, mt isName_iff_isElementName.mpr hname⟩

/-- Whatever is within an ordered value is ordered. -/
theorem IsOrdered.of_isWithin {inner : Json} (h : value.IsOrdered)
    (hwithin : IsWithin inner value) : inner.IsOrdered := by
  induction hwithin with
  | self => exact h
  | item hitem _ ih => exact ih (h.items _ hitem)
  | member hmember _ ih => exact ih (h.members _ hmember)

end RemoteCall.Json

namespace RemoteCall.Script

/-- The request gets as far as its data section, and sends the text as that. -/
structure SendsData (request : Http.Request) (text : String) : Prop where
  function : ∃ function, function? request = some function ∧ checkFunctionName function = .ok ()
  callback : ∃ callback, callback? request = .ok callback
  parameters : ∃ parameters, gatherParameters request = .ok parameters ∧
    parameters.get? Standard.dataParameter = some text

/-- A data section that cannot be read makes the request invalid. -/
theorem SendsData.convert_eq {request : Http.Request} {text : String} {fault : RequestFault}
    (h : SendsData request text) (hne : text ≠ "")
    (hfault : Json.readDataSection text = .error fault) :
    convert request = .error (.invalidRequest fault) := by
  obtain ⟨function, hfunction, hcheck⟩ := h.function
  obtain ⟨callback, hcallback⟩ := h.callback
  obtain ⟨parameters, hparameters, htext⟩ := h.parameters
  have hdata : dataSection parameters = .error fault := by
    simp [dataSection, Standard.sectionOf, htext, Option.filter_some, hne, hfault]
  simp only [convert, hfunction, callOf, hcheck, hcallback, hparameters, hdata]
  rfl

end RemoteCall.Script

namespace RemoteCall.Json

/-- **Exactly the objects that elements can picture are data sections.** A text is read as one if
its value is an object with no array right inside an array and no member that makes elements
under a name that is none for them. The section pictures the object as `data`, without attributes
and namespaces, its children in the byte order of the names of the members. Any other value makes
the request that sends the text invalid, as no object, or for a name or an array in it. -/
theorem exists_readDataSection_iff_isPicturable {text : String} {value : Json}
    (h : parse? text = some value) :
    ((∃ root, readDataSection text = .ok root) ↔ value.isObject = true ∧ IsPicturable value) ∧
    (∀ root, readDataSection text = .ok root →
      Pictures "data" value root ∧ root.Every IsBare) ∧
    (∀ members, IsWithin (.object members) value → members.Pairwise fun first second =>
      Http.bytesOf first.1.toUTF8 < Http.bytesOf second.1.toUTF8) ∧
    ∀ fault, readDataSection text = .error fault →
      (fault = .dataNotObject ∧ value.isObject = false ∨
        (∃ name, fault = .elementName name ∧ ¬ IsElementName name) ∨
        ∃ name, fault = .nestedArray name ∧ IsElementName name) ∧
      ∀ request, Script.SendsData request text →
        Script.convert request = .error (.invalidRequest fault) := by
  have hroot : IsElementName "data" := isName_iff_isElementName.mp (by decide)
  have hread : readDataSection text =
      if value.isObject then value.toElement "data" else .error .dataNotObject := by
    rw [readDataSection, h]
  have hne : text ≠ "" := by
    rintro rfl
    have hempty : parse? "" = none := by with_unfolding_all rfl
    rw [hempty] at h
    cases h
  refine ⟨?_, ?_, ?_, ?_⟩
  · rw [hread]
    cases value with
    | object members => simp [isObject, exists_toElement_iff, hroot]
    | null | bool | number | string | array => simp [isObject]
  · intro root hok
    rw [hread] at hok
    split at hok
    · exact ⟨pictures_of_toElement hok, every_isBare_of_toElement hok⟩
    · cases hok
  · intro members hmembers
    have hsorted : Entries.Sorted members :=
      ((isOrdered_of_parse? h).of_isWithin hmembers).sorted
    exact hsorted.imp Text.Utf8.bytesOf_lt_bytesOf
  · intro fault hfault
    refine ⟨?_, fun request hsends => hsends.convert_eq hne hfault⟩
    rw [hread] at hfault
    split at hfault
    · exact .inr (fault_of_toElement hfault)
    · next hobject =>
      cases hfault
      exact .inl ⟨rfl, Bool.eq_false_iff.mpr hobject⟩

/-- An array of an empty object, a null and a number, and no items under a name that is none for
elements. -/
def toysText : String :=
  "\x7b\"toys\": [\x7b\x7d, null, 2], \"_lost\": []\x7d"

/-- What the text spells. -/
def toys : Json :=
  .object [("_lost", .array []), ("toys", .array [.object [], .null, .number (.integer 2)])]

/-- The toys are read as three elements, and the empty array is none. -/
theorem exists_readDataSection_iff_isPicturable_toys :
    ∃ root, readDataSection toysText = .ok root ∧ Pictures "data" toys root := by
  have hparse : parse? toysText = some toys := by with_unfolding_all rfl
  have hname : IsElementName "toys" := isName_iff_isElementName.mp (by decide)
  have hpicturable : IsPicturable toys := by
    simp [toys, isPicturable_object_iff, isPicturable_array_iff, isPicturable_of_ne, hname]
  have hmain := exists_readDataSection_iff_isPicturable hparse
  obtain ⟨root, hroot⟩ := hmain.1.mpr ⟨rfl, hpicturable⟩
  exact ⟨root, hroot, (hmain.2.1 root hroot).1⟩

end RemoteCall.Json
