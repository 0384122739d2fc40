import RemoteCall.Json.DataSection
import RemoteCall.Proofs.Dictionary

/-!
# Members that children become

Written as JSON, the children of an element are entered one by one: the first of a name stands by
itself, and an array is made as soon as there is another. So the members of an object whose arrays
have several items, none of them an array, are those that the children from these members are
grouped to.
-/

namespace RemoteCall.Json

/-- The member of an object with the name. -/
def member? (name : String) : Json → Option Json
  | .object members => Entries.find? name members
  | _ => none

/-- A result with a data section becomes an object that holds what the data section becomes. -/
theorem member?_ofResult (result : CallResult) (data : Element) :
    (ofResult (result.withData data)).member? dataMember = some (ofDataSection data) := by
  simp only [ofResult, CallResult.withData, Option.map_some, Option.toList_some, ofMembers, member?,
    Entries.ofList_concat, Entries.find?_insert, if_true]

/-- Each child becomes a value under its local name. -/
theorem ofChildren_eq_map (children : List Element) :
    ofChildren children = children.map fun child => (child.localName, ofElement child) := by
  induction children with
  | nil => rfl
  | cons child children ih => rw [ofChildren, ih, List.map_cons]

/-- The values that a member stands for: the items of an array, and any other value itself. -/
def spread : Json → List Json
  | .array items => items
  | value => [value]

/-- The members with the items of arrays one by one. -/
def flatten (members : List (String × Json)) : List (String × Json) :=
  members.flatMap fun member => (spread member.2).map (member.1, ·)

variable {name : String} {members before : List (String × Json)}

/-- A child whose name is new stands by itself. -/
theorem addMember_of_none (h : Entries.find? name members = none) (value : Json) :
    addMember members (name, value) = Entries.insert name value members := by
  simp only [addMember, h]

/-- A child whose name is known joins the values under that name. -/
theorem addMember_of_some {existing : Json} (h : Entries.find? name members = some existing)
    (value : Json) :
    addMember members (name, value) =
      Entries.insert name (.array (spread existing ++ [value])) members := by
  simp only [addMember, h]
  cases existing <;> rfl

/-- Children that share the last name are gathered in an array. -/
theorem foldl_addMember_concat (hbefore : ∀ member ∈ before, member.1 < name)
    (first value : Json) (values : List Json) :
    ((value :: values).map (name, ·)).foldl addMember (before ++ [(name, first)]) =
      before ++ [(name, .array (spread first ++ value :: values))] := by
  induction values generalizing first value with
  | nil =>
    rw [List.map_singleton, List.foldl_cons, List.foldl_nil,
      addMember_of_some (Entries.find?_concat_self hbefore first),
      Entries.insert_concat_self hbefore]
  | cons next values ih =>
    rw [List.map_cons, List.foldl_cons,
      addMember_of_some (Entries.find?_concat_self hbefore first),
      Entries.insert_concat_self hbefore, ih]
    simp only [spread, List.append_assoc, List.singleton_append]

/-- A member can be put together from its values again: an array has several of them, none an
array. -/
structure IsGrouped (value : Json) : Prop where
  items : ∀ item ∈ spread value, spread item = [item]
  several : ∀ items, value = .array items → 2 ≤ items.length

/-- Entering the values of a new last member one by one enters the member. -/
theorem IsGrouped.foldl_addMember {value : Json} (h : value.IsGrouped)
    (hbefore : ∀ member ∈ before, member.1 < name) :
    ((spread value).map (name, ·)).foldl addMember before = before ++ [(name, value)] := by
  have hfirst (first : Json) : addMember before (name, first) = before ++ [(name, first)] := by
    rw [addMember_of_none (Entries.find?_eq_none_of_forall_ne fun member hmember =>
        String.ne_of_lt (hbefore member hmember)),
      Entries.insert_of_forall_lt hbefore]
  cases value with
  | array items =>
    have hlength := h.several items rfl
    match items, hlength with
    | first :: second :: rest, _ =>
      have hsingle : spread first = [first] := h.items first (by simp [spread])
      rw [spread, List.map_cons, List.foldl_cons, hfirst, foldl_addMember_concat hbefore, hsingle]
      rfl
  | null | bool | number | string | object => exact hfirst _

/-- Members in their order, all of them grouped, are what their values are grouped to. -/
theorem foldl_addMember_flatten (hsorted : Entries.Sorted (before ++ members))
    (hgrouped : ∀ member ∈ members, member.2.IsGrouped) :
    (flatten members).foldl addMember before = before ++ members := by
  -- The members that have been entered all come before the next, which is put at the end.
  induction members generalizing before with
  | nil => rw [flatten, List.flatMap_nil, List.foldl_nil, List.append_nil]
  | cons member members ih =>
    obtain ⟨hfirst, hrest⟩ := List.forall_mem_cons.mp hgrouped
    have hbefore : ∀ other ∈ before, other.1 < member.1 := fun other hother =>
      (List.pairwise_append.mp hsorted).2.2 other hother member (List.mem_cons_self ..)
    have hsplit : before ++ member :: members = before ++ [member] ++ members := by simp
    rw [hsplit] at hsorted ⊢
    rw [flatten, List.flatMap_cons, List.foldl_append, hfirst.foldl_addMember hbefore, ← flatten]
    exact ih hsorted hrest

end RemoteCall.Json
