import Mathlib.Data.Prod.Lex
import Mathlib.Data.String.Basic
import Mathlib.Logic.Relation
import RemoteCall.Proofs.Element.Obtained

/-!
# Elements that are the same

Two elements are the same if they agree in everything but the order of the attributes, at the
root and at all nodes below. So one is got from the other by putting attributes in another order,
node by node. Since no key is there twice in an element that can be come by, nothing that is asked
of an element tells it from one that is the same.
-/

namespace RemoteCall.Element

open Xml (Attribute)
open Relation (ReflTransGen)

/-! ## Attributes in order -/

/-- What attributes are sorted by: the namespace, none being the least, the name and the value. -/
def sortKey (candidate : Attribute) : List String ×ₗ String ×ₗ String :=
  toLex (candidate.namespaceUri.toList, toLex (candidate.localName, candidate.value))

/-- No namespace comes before every namespace, as the empty list before every other. -/
theorem optionalBefore_iff {first second : Option String} :
    optionalBefore first second = true ↔ first.toList < second.toList := by
  cases first with
  | none => cases second <;> simp [optionalBefore]
  | some first =>
    cases second with
    | none => simp [optionalBefore]
    | some second =>
      simp only [optionalBefore, decide_eq_true_eq, Option.toList_some, List.cons_lt_cons_iff,
        List.not_lt_nil, and_false, or_false]

/-- A namespace that may be missing is told by the list of it. -/
theorem toList_injective : Function.Injective (Option.toList (α := String)) := by
  rintro (_ | first) (_ | second) h <;> simp_all

/-- Attributes are sorted by their keys, and by their values where these agree. -/
theorem attributeLe_iff {a b : Attribute} : attributeLe a b = true ↔ sortKey a ≤ sortKey b := by
  rw [sortKey, sortKey, Prod.Lex.toLex_le_toLex, Prod.Lex.toLex_le_toLex]
  simp only [← optionalBefore_iff, toList_injective.eq_iff, attributeLe]
  by_cases huri : a.namespaceUri = b.namespaceUri
  · have hself : ¬ optionalBefore b.namespaceUri b.namespaceUri = true := by
      rw [optionalBefore_iff]
      exact lt_irrefl _
    by_cases hname : a.localName = b.localName
    · simp only [huri, hname, hself, ne_eq, not_true, if_false, decide_eq_true_eq, lt_irrefl,
        true_and, Bool.false_eq_true, false_or]
    · simp only [huri, hname, hself, ne_eq, not_true, not_false_eq_true, if_true, if_false,
        decide_eq_true_eq, true_and, false_and, Bool.false_eq_true, false_or, or_false]
  · simp only [huri, ne_eq, not_false_eq_true, if_true, false_and, or_false]

/-- Attributes that are sorted alike are equal. -/
theorem sortKey_injective : Function.Injective sortKey := by
  intro a b h
  obtain ⟨huri, hrest⟩ := Prod.mk.inj (toLex.injective h)
  obtain ⟨hname, hvalue⟩ := Prod.mk.inj (toLex.injective hrest)
  cases a
  cases b
  congr
  exact toList_injective huri

/-- Sorting tells attributes apart only if one list is no reordering of the other. -/
theorem sortedAttributes_eq_iff {attributes attributes' : List Attribute} :
    sortedAttributes attributes = sortedAttributes attributes' ↔
      attributes.Perm attributes' := by
  refine ⟨perm_of_sortedAttributes_eq, fun h => ?_⟩
  have hsorted (list : List Attribute) :
      (sortedAttributes list).Pairwise (fun a b => attributeLe a b = true) := by
    refine List.pairwise_mergeSort (fun a b c hab hbc => ?_) (fun a b => ?_) list
    · rw [attributeLe_iff] at *
      exact hab.trans hbc
    · rw [Bool.or_eq_true, attributeLe_iff, attributeLe_iff]
      exact le_total _ _
  refine List.Perm.eq_of_pairwise (fun a b _ _ hab hba => ?_) (hsorted attributes)
    (hsorted attributes') ?_
  · rw [attributeLe_iff] at hab hba
    exact sortKey_injective (le_antisymm hab hba)
  · exact ((List.mergeSort_perm attributes attributeLe).trans h).trans
      (List.mergeSort_perm attributes' attributeLe).symm

/-! ## One node -/

/-- Elements in a row are the same if each is the same as its counterpart. -/
theorem sameAll_iff {elements elements' : List Element} :
    sameAll elements elements' = true ↔
      List.Forall₂ (fun a b : Element => (a == b) = true) elements elements' := by
  induction elements generalizing elements' with
  | nil => cases elements' <;> simp [sameAll]
  | cons first rest ih =>
    cases elements' with
    | nil => simp [sameAll]
    | cons first' rest' =>
      rw [sameAll, Bool.and_eq_true, ih, List.forall₂_cons]
      rfl

/-- Elements are the same if they agree in all parts, the attributes in any order. -/
theorem beq_iff {a b : Element} : (a == b) = true ↔
    a.localName = b.localName ∧ a.namespaceUri = b.namespaceUri ∧ a.text = b.text ∧
      a.attributes.Perm b.attributes ∧
      List.Forall₂ (fun x y : Element => (x == y) = true) a.children b.children := by
  obtain ⟨name, uri, attributes, children, text⟩ := a
  obtain ⟨name', uri', attributes', children', text'⟩ := b
  rw [← sameAll_iff, ← sortedAttributes_eq_iff]
  show same _ _ = true ↔ _
  simp [same, Element.localName, Element.namespaceUri, Element.text, Element.attributes,
    Element.children, and_assoc]

/-- Every element is the same as itself. -/
theorem beq_self (element : Element) : (element == element) = true :=
  same_self element

/-! ## Putting attributes in another order -/

/-- The attributes of one node, the root or one below, are put in another order. -/
inductive Reorders : Element → Element → Prop
  | here {localName : String} {uri text : Option String} {attributes attributes' : List Attribute}
      {children : List Element} (h : attributes.Perm attributes') :
      Reorders (.mk localName uri attributes children text)
        (.mk localName uri attributes' children text)
  | inside {localName : String} {uri text : Option String} {attributes : List Attribute}
      {before after : List Element} {child child' : Element} (h : Reorders child child') :
      Reorders (.mk localName uri attributes (before ++ child :: after) text)
        (.mk localName uri attributes (before ++ child' :: after) text)

/-- A reordering can be undone. -/
theorem Reorders.symm {a b : Element} (h : Reorders a b) : Reorders b a := by
  induction h with
  | here h => exact .here h.symm
  | inside _ ih => exact .inside ih

/-- What holds of two lists item by item holds of an item in the first and its counterpart, and of
those before and behind them. -/
theorem forall₂_append_cons_iff {α β : Type} {R : α → β → Prop} {before after : List α}
    {middle : α} {list : List β} : List.Forall₂ R (before ++ middle :: after) list ↔
      ∃ before' middle' after', list = before' ++ middle' :: after' ∧
        List.Forall₂ R before before' ∧ R middle middle' ∧ List.Forall₂ R after after' := by
  constructor
  · intro h
    induction before generalizing list with
    | nil =>
      obtain ⟨middle', after', hmiddle, hafter, rfl⟩ := List.forall₂_cons_left_iff.mp h
      exact ⟨[], middle', after', rfl, .nil, hmiddle, hafter⟩
    | cons first rest ih =>
      obtain ⟨first', list', hfirst, hlist, rfl⟩ := List.forall₂_cons_left_iff.mp h
      obtain ⟨rest', middle', after', rfl, hrest, hmiddle, hafter⟩ := ih hlist
      exact ⟨first' :: rest', middle', after', rfl, .cons hfirst hrest, hmiddle, hafter⟩
  · rintro ⟨before', middle', after', rfl, hbefore, hmiddle, hafter⟩
    exact List.rel_append hbefore (.cons hmiddle hafter)

/-- Putting attributes in another order makes no difference to what an element is the same as. -/
theorem Reorders.beq_trans {a b c : Element} (h : Reorders a b) (hsame : (b == c) = true) :
    (a == c) = true := by
  induction h generalizing c with
  | here h =>
    obtain ⟨hname, huri, htext, hattributes, hchildren⟩ := beq_iff.mp hsame
    exact beq_iff.mpr ⟨hname, huri, htext, h.trans hattributes, hchildren⟩
  | @inside _ _ _ _ before after child child' h ih =>
    obtain ⟨hname, huri, htext, hattributes, hchildren⟩ := beq_iff.mp hsame
    refine beq_iff.mpr ⟨hname, huri, htext, hattributes, ?_⟩
    rw [Element.children, forall₂_append_cons_iff] at hchildren
    obtain ⟨before', other, after', heq, hbefore, hother, hafter⟩ := hchildren
    exact forall₂_append_cons_iff.mpr ⟨before', other, after', heq, hbefore, ih hother, hafter⟩

/-- Reordering children, one after the other, reorders the element that they are in. -/
theorem reflTransGen_children {localName : String} {uri text : Option String}
    {attributes : List Attribute} {children children' : List Element}
    (h : List.Forall₂ (ReflTransGen Reorders) children children') (before : List Element) :
    ReflTransGen Reorders (.mk localName uri attributes (before ++ children) text)
      (.mk localName uri attributes (before ++ children') text) := by
  induction h generalizing before with
  | nil => exact .refl
  | @cons child child' rest rest' hchild _ ih =>
    have hfirst : ReflTransGen Reorders
        (.mk localName uri attributes (before ++ child :: rest) text)
        (.mk localName uri attributes (before ++ child' :: rest) text) :=
      ReflTransGen.lift
        (fun child => Element.mk localName uri attributes (before ++ child :: rest) text)
        (fun _ _ h => Reorders.inside h) _ _ hchild
    have hrest := ih (before ++ [child'])
    simp only [List.append_assoc, List.singleton_append] at hrest
    exact hfirst.trans hrest

/-- A child is smaller than its parent. -/
theorem sizeOf_lt_of_mem_children {element child : Element} (h : child ∈ element.children) :
    sizeOf child < sizeOf element := by
  obtain ⟨localName, uri, attributes, children, text⟩ := element
  have hlt : sizeOf child < sizeOf children := List.sizeOf_lt_of_mem h
  rw [mk.sizeOf_spec]
  omega

/-- What holds of an element if it does of its children holds of all elements. -/
theorem children_induction {P : Element → Prop}
    (h : ∀ element, (∀ child ∈ element.children, P child) → P element) (element : Element) :
    P element :=
  h element fun child _ => children_induction h child
termination_by sizeOf element
decreasing_by exact sizeOf_lt_of_mem_children ‹_›

/-- Elements are the same if one is got from the other by putting attributes in another order. -/
theorem beq_iff_reflTransGen {a b : Element} :
    (a == b) = true ↔ ReflTransGen Reorders a b := by
  constructor
  · intro h
    induction a using children_induction generalizing b with
    | h a ih =>
    obtain ⟨hname, huri, htext, hattributes, hchildren⟩ := beq_iff.mp h
    obtain ⟨localName, uri, attributes, children, text⟩ := a
    obtain ⟨_, _, attributes', children', _⟩ := b
    obtain ⟨rfl, rfl, rfl⟩ : _ ∧ _ ∧ _ := ⟨hname, huri, htext⟩
    have hbelow : List.Forall₂ (ReflTransGen Reorders) children children' := by
      rw [List.forall₂_iff_zip] at hchildren ⊢
      refine hchildren.imp_right fun hzip child child' hmem => ?_
      exact ih child (List.of_mem_zip hmem).1 (hzip hmem)
    -- the root first, then what is below it, child by child
    exact .head (.here hattributes) (reflTransGen_children hbelow [])
  · intro h
    induction h using ReflTransGen.head_induction_on with
    | refl => exact beq_self b
    | head hstep _ ih => exact hstep.beq_trans ih

/-- Being the same is an equivalence. -/
theorem equivalence_beq : Equivalence fun a b : Element => (a == b) = true := by
  have hsymm : Std.Symm Reorders := ⟨fun _ _ => Reorders.symm⟩
  have hback : Std.Symm (ReflTransGen Reorders) := ReflTransGen.stdSymm
  simp only [beq_iff_reflTransGen]
  exact ⟨fun _ => .refl, fun h => hback.symm _ _ h, ReflTransGen.trans⟩

/-! ## Attributes that are set -/

/-- The attributes agree for every key, in the order of those that have it. -/
def AgreeByKey (attributes attributes' : List Attribute) : Prop :=
  ∀ uri name, attributes.filter (hasKey uri name) = attributes'.filter (hasKey uri name)

/-- Attributes that agree by key are the same but for their order. -/
theorem AgreeByKey.perm {attributes attributes' : List Attribute}
    (h : AgreeByKey attributes attributes') : attributes.Perm attributes' := by
  rw [List.perm_iff_count]
  intro candidate
  have hkey : hasKey candidate.namespaceUri candidate.localName candidate = true := by
    simp [hasKey]
  rw [← List.count_filter hkey, h, List.count_filter hkey]

/-- Under each key, the same attribute is found in both. -/
theorem AgreeByKey.find? {attributes attributes' : List Attribute}
    (h : AgreeByKey attributes attributes') (uri : Option String) (name : String) :
    attributes.find? (hasKey uri name) = attributes'.find? (hasKey uri name) := by
  rw [← List.head?_filter, h, List.head?_filter]

/-- Without repeated keys, the order of the attributes does not matter. -/
theorem agreeByKey_of_perm {attributes attributes' : List Attribute}
    (h : attributes.Perm attributes') (hkeys : (attributes.map attributeKey).Nodup) :
    AgreeByKey attributes attributes' := by
  intro uri name
  have hperm := h.filter (hasKey uri name)
  have hdistinct := (List.pairwise_map.mp hkeys).filter (hasKey uri name)
  match hlist : attributes.filter (hasKey uri name) with
  | [] =>
    rw [hlist] at hperm
    exact hperm.nil_eq
  | [only] =>
    rw [hlist] at hperm
    exact List.singleton_perm.mp hperm
  | first :: second :: rest =>
    -- both have the key that is looked for
    have hall : ∀ candidate ∈ first :: second :: rest, attributeKey candidate = (uri, name) :=
      fun candidate hmem => hasKey_eq_true_iff.mp (List.of_mem_filter (hlist ▸ hmem))
    rw [hlist] at hdistinct
    have hne := (List.pairwise_cons.mp hdistinct).1 second (by simp)
    exact absurd ((hall first (by simp)).trans (hall second (by simp)).symm) hne

/-- Sets attributes, one by one. -/
def putAttributes (more attributes : List Attribute) : List Attribute :=
  more.foldl (fun attributes candidate =>
    putAttribute candidate.namespaceUri candidate.localName candidate.value attributes) attributes

/-- Putting the same attribute into both keeps them in agreement, wherever it comes to stand. -/
theorem AgreeByKey.putAttribute {attributes attributes' : List Attribute}
    (h : AgreeByKey attributes attributes') (uri : Option String) (name value : String) :
    AgreeByKey (putAttribute uri name value attributes)
      (putAttribute uri name value attributes') := by
  intro uri' name'
  rw [filter_putAttribute, filter_putAttribute, h]

/-- Putting the same attributes into both, one after the other, keeps them in agreement. -/
theorem AgreeByKey.putAttributes {attributes attributes' : List Attribute}
    (h : AgreeByKey attributes attributes') (more : List Attribute) :
    AgreeByKey (putAttributes more attributes) (putAttributes more attributes') := by
  induction more generalizing attributes attributes' with
  | nil => exact h
  | cons first rest ih =>
    exact ih (h.putAttribute first.namespaceUri first.localName first.value)

/-- Attributes of different keys can be set in any order. -/
theorem agreeByKey_putAttributes {more more' : List Attribute} (h : more.Perm more')
    (hkeys : (more.map attributeKey).Nodup) (attributes : List Attribute) :
    AgreeByKey (putAttributes more attributes) (putAttributes more' attributes) := by
  induction h generalizing attributes with
  | nil => exact fun _ _ => rfl
  | cons first _ ih => exact ih (List.nodup_cons.mp hkeys).2 _
  | swap first second rest =>
    have hne : (second.namespaceUri, second.localName) ≠ (first.namespaceUri, first.localName) := by
      rintro heq
      simp [attributeKey, heq] at hkeys
    refine AgreeByKey.putAttributes (fun uri name => ?_) rest
    simp only [filter_putAttribute]
    by_cases hfirst : (first.namespaceUri, first.localName) = (uri, name)
    · rw [if_pos hfirst, if_neg (hfirst ▸ hne), if_neg (hfirst ▸ hne), if_pos hfirst]
    · rw [if_neg hfirst, if_neg hfirst]
  | trans h _ ih ih' =>
    intro uri name
    rw [ih hkeys, ih' ((h.map attributeKey).nodup_iff.mp hkeys)]

/-- The step that sets an attribute. -/
def Change.ofAttribute (candidate : Attribute) : Change :=
  .setAttributeNs candidate.namespaceUri candidate.localName candidate.value

/-- Setting attributes one after the other puts them in, and changes nothing else of the element. -/
theorem after_ofAttribute (localName : String) (uri text : Option String)
    (attributes more : List Attribute) (children : List Element) :
    (Element.mk localName uri attributes children text).after (more.map Change.ofAttribute) =
      .mk localName uri (putAttributes (more.map fun candidate =>
        { candidate with namespaceUri := nonEmpty candidate.namespaceUri }) attributes)
        children text := by
  induction more generalizing attributes with
  | nil => rfl
  | cons first rest ih => exact ih _

/-- The order in which attributes of different keys are set makes no difference. -/
theorem beq_after_ofAttribute (element : Element) {more more' : List Attribute}
    (h : more.Perm more')
    (hkeys : (more.map fun candidate =>
      (nonEmpty candidate.namespaceUri, candidate.localName)).Nodup) :
    (element.after (more.map Change.ofAttribute) ==
      element.after (more'.map Change.ofAttribute)) = true := by
  obtain ⟨localName, uri, attributes, children, text⟩ := element
  rw [after_ofAttribute, after_ofAttribute]
  refine beq_iff_reflTransGen.mpr (.single (.here ?_))
  refine (agreeByKey_putAttributes (h.map _) ?_ attributes).perm
  rwa [List.map_map]

/-! ## What is asked of an element -/

/-- Both are found and are the same, or neither is found, for the same reason. -/
inductive FoundAlike : Except ElementError Element → Except ElementError Element → Prop
  | ok {a b : Element} (h : (a == b) = true) : FoundAlike (.ok a) (.ok b)
  | error (e : ElementError) : FoundAlike (.error e) (.error e)

/-- Whatever is asked of the elements, the answers are the same. -/
structure AnswerAlike (a b : Element) : Prop where
  attributeNs : ∀ uri name, a.attributeNs? uri name = b.attributeNs? uri name
  childrenNamed : ∀ name, List.Forall₂ (fun x y : Element => (x == y) = true)
    (a.childrenNamed name) (b.childrenNamed name)
  uniqueChild : ∀ name, FoundAlike (a.uniqueChild name) (b.uniqueChild name)
  text : a.text = b.text
  isEmpty : a.isEmpty = b.isEmpty

/-- The children of a name are the same one by one in elements that are the same. -/
theorem forall₂_childrenNamed {a b : Element} (h : (a == b) = true) (name : String) :
    List.Forall₂ (fun x y : Element => (x == y) = true) (a.childrenNamed name)
      (b.childrenNamed name) := by
  obtain ⟨-, -, -, -, hchildren⟩ := beq_iff.mp h
  refine List.rel_filter (fun x y hsame => ?_) hchildren
  have hname : x.localName = y.localName := (beq_iff.mp hsame).1
  simp only [hname]

/-- The search for an only child ends alike in elements that are the same. -/
theorem foundAlike_uniqueChild {a b : Element} (h : (a == b) = true) (name : String) :
    FoundAlike (a.uniqueChild name) (b.uniqueChild name) := by
  have hname : a.localName = b.localName := (beq_iff.mp h).1
  have hnamed := forall₂_childrenNamed h name
  unfold uniqueChild
  rw [hname]
  generalize a.childrenNamed name = found, b.childrenNamed name = found' at hnamed ⊢
  cases hnamed with
  | nil => exact .error _
  | cons hfirst hrest =>
    cases hrest with
    | nil => exact .ok hfirst
    | cons _ hmore =>
      simp only [List.length_cons, hmore.length_eq]
      exact .error _

/-- Elements that can be come by are not told apart if they are the same. -/
theorem answerAlike_of_beq {a b : Element} (ha : a.Obtained) (h : (a == b) = true) :
    AnswerAlike a b := by
  obtain ⟨hname, huri, htext, hattributes, hchildren⟩ := beq_iff.mp h
  refine ⟨fun uri name => ?_, forall₂_childrenNamed h, foundAlike_uniqueChild h, htext, ?_⟩
  · have hkeys := ha.every_isWellFormed.test.attributeKeys
    rw [attributeNs?, (agreeByKey_of_perm hattributes hkeys).find?, attributeNs?]
  · have hnone : a.children.isEmpty = b.children.isEmpty := by
      rw [Bool.eq_iff_iff, List.isEmpty_iff_length_eq_zero, hchildren.length_eq,
        List.isEmpty_iff_length_eq_zero]
    rw [isEmpty, hattributes.isEmpty_eq, hnone, htext, isEmpty]

/-- Children at two places that are not the same cannot change places. -/
theorem beq_swap {localName : String} {uri text : Option String} {attributes : List Attribute}
    {before middle after : List Element} {x y : Element} (h : (x == y) = false) :
    (Element.mk localName uri attributes (before ++ x :: (middle ++ y :: after)) text ==
      .mk localName uri attributes (before ++ y :: (middle ++ x :: after)) text) = false := by
  rw [Bool.eq_false_iff] at h ⊢
  intro hsame
  obtain ⟨-, -, -, -, hchildren⟩ := beq_iff.mp hsame
  have hlater := List.forall₂_drop_append _ before _ hchildren
  rw [Element.children, List.drop_left, List.forall₂_cons] at hlater
  exact h hlater.1

/-- **Elements are the same if they agree in all parts, the attributes in any order.** This is an
equivalence, and elements are the same whatever order attributes are put in at any nodes, or
attributes of different keys are set in. Elements that can be come by are not told apart if they
are the same. Children that are not the same cannot change places. -/
theorem beq_structural (a b : Element) :
    ((a == b) = true ↔
      a.localName = b.localName ∧ a.namespaceUri = b.namespaceUri ∧ a.text = b.text ∧
        a.attributes.Perm b.attributes ∧
        List.Forall₂ (fun x y : Element => (x == y) = true) a.children b.children) ∧
      (Equivalence fun a b : Element => (a == b) = true) ∧
      ((a == b) = true ↔ ReflTransGen Reorders a b) ∧
      (∀ more more' : List Attribute, more.Perm more' →
        (more.map fun candidate =>
          (nonEmpty candidate.namespaceUri, candidate.localName)).Nodup →
        (a.after (more.map Change.ofAttribute) ==
          a.after (more'.map Change.ofAttribute)) = true) ∧
      (a.Obtained → b.Obtained → (a == b) = true → AnswerAlike a b) ∧
      ∀ localName uri attributes before x middle y after text, (x == y) = false →
        (Element.mk localName uri attributes (before ++ x :: (middle ++ y :: after)) text ==
          .mk localName uri attributes (before ++ y :: (middle ++ x :: after)) text) = false := by
  refine ⟨beq_iff, equivalence_beq, beq_iff_reflTransGen, ?_, ?_, ?_⟩
  · exact fun more more' hperm hkeys => beq_after_ofAttribute a hperm hkeys
  · exact fun ha _ hsame => answerAlike_of_beq ha hsame
  · exact fun _ _ _ _ _ _ _ _ _ hne => beq_swap hne

/-- Attributes are set in both orders, and children change places. -/
theorem beq_structural_box :
    ((named "box").after [.setAttributeNs none "a" "1", .setAttributeNs none "b" "2"] ==
        (named "box").after [.setAttributeNs none "b" "2", .setAttributeNs none "a" "1"]) = true ∧
      AnswerAlike
        ((named "box").after [.setAttributeNs none "a" "1", .setAttributeNs none "b" "2"])
        ((named "box").after [.setAttributeNs none "b" "2", .setAttributeNs none "a" "1"]) ∧
      (Element.mk "box" none [] [named "a", named "b"] none ==
        .mk "box" none [] [named "b", named "a"] none) = false := by
  have hmake : Element.make "box" none = .ok (named "box") := rfl
  have hbox : (named "box").Obtained := .make hmake
  obtain ⟨-, -, -, hset, -, hswap⟩ := beq_structural (named "box") (named "box")
  have hsame := hset [⟨none, "a", "1"⟩, ⟨none, "b", "2"⟩] [⟨none, "b", "2"⟩, ⟨none, "a", "1"⟩]
    (List.Perm.swap _ _ _) (by decide)
  obtain ⟨-, -, -, -, hanswers, -⟩ := beq_structural
    ((named "box").after [.setAttributeNs none "a" "1", .setAttributeNs none "b" "2"])
    ((named "box").after [.setAttributeNs none "b" "2", .setAttributeNs none "a" "1"])
  refine ⟨hsame, hanswers (hbox.after (by simp [Change.child?])) ?_ hsame, ?_⟩
  · exact hbox.after (by simp [Change.child?])
  · exact hswap "box" none [] [] (named "a") [] (named "b") [] none (by decide +kernel)

end RemoteCall.Element
