import RemoteCall.Json.Reader
import RemoteCall.Proofs.Dictionary

/-!
# Values that have been read

The reader enters the members of every object by name. So whatever text is read, at every depth
the members of an object are listed in the order of their names, each name once.
-/

namespace RemoteCall.Json

/-- Every object in the value lists its members by strictly increasing name. -/
inductive IsOrdered : Json → Prop
  | null : IsOrdered .null
  | bool (value : Bool) : IsOrdered (.bool value)
  | number (value : JsonNumber) : IsOrdered (.number value)
  | string (text : String) : IsOrdered (.string text)
  | array {items : List Json} (hitems : ∀ item ∈ items, IsOrdered item) : IsOrdered (.array items)
  | object {members : List (String × Json)} (hsorted : Entries.Sorted members)
      (hmembers : ∀ member ∈ members, IsOrdered member.2) : IsOrdered (.object members)

/-- The members of an ordered object are sorted by name. -/
theorem IsOrdered.sorted {members : List (String × Json)} (h : IsOrdered (.object members)) :
    Entries.Sorted members := by
  cases h
  assumption

/-- The members of an ordered object are ordered. -/
theorem IsOrdered.members {members : List (String × Json)} (h : IsOrdered (.object members)) :
    ∀ member ∈ members, IsOrdered member.2 := by
  cases h
  assumption

/-- The items of an ordered array are ordered. -/
theorem IsOrdered.items {items : List Json} (h : IsOrdered (.array items)) :
    ∀ item ∈ items, IsOrdered item := by
  cases h
  assumption

/-- Members in any order are an ordered object once they are entered. -/
theorem isOrdered_ofMembers {members : List (String × Json)}
    (h : ∀ member ∈ members, IsOrdered member.2) : IsOrdered (ofMembers members) :=
  .object (Entries.sorted_ofList members) fun member hmember =>
    h member (Entries.mem_of_mem_ofList hmember)

/-! ## Reading -/

section

variable {read : List Char → Option (Json × List Char)} {P : Json → Prop}
  (hread : ∀ chars value rest, read chars = some (value, rest) → P value)

include hread

/-- What holds of every value that is read holds of the items of an array. -/
theorem forall_of_readItems {chars rest : List Char} {items : List Json}
    (h : readItems read chars = some (items, rest)) : ∀ item ∈ items, P item := by
  induction hlength : chars.length using Nat.strongRecOn generalizing chars rest items with
  | ind length ih =>
    subst hlength
    rw [readItems] at h
    obtain ⟨⟨item, after⟩, hitem, h⟩ := Option.bind_eq_some_iff.mp h
    have hfirst : P item := hread _ _ _ hitem
    simp only at h
    split at h
    · cases h
      exact List.forall_mem_singleton.mpr hfirst
    · split at h
      · next hlt =>
        obtain ⟨⟨others, left⟩, hothers, h⟩ := Option.bind_eq_some_iff.mp h
        cases h
        exact List.forall_mem_cons.mpr ⟨hfirst, ih _ hlt hothers rfl⟩
      · cases h
    · cases h

/-- What holds of every value that is read holds of the members of an object. -/
theorem forall_of_readMembers {chars rest : List Char} {members : List (String × Json)}
    (h : readMembers read chars = some (members, rest)) : ∀ member ∈ members, P member.2 := by
  induction hlength : chars.length using Nat.strongRecOn generalizing chars rest members with
  | ind length ih =>
    subst hlength
    rw [readMembers] at h
    split at h
    case h_2 => cases h
    obtain ⟨⟨name, named⟩, -, h⟩ := Option.bind_eq_some_iff.mp h
    simp only at h
    split at h
    case h_2 => cases h
    obtain ⟨⟨value, after⟩, hvalue, h⟩ := Option.bind_eq_some_iff.mp h
    have hfirst : P value := hread _ _ _ hvalue
    simp only at h
    split at h
    · cases h
      exact List.forall_mem_singleton.mpr hfirst
    · split at h
      · next hlt =>
        obtain ⟨⟨others, left⟩, hothers, h⟩ := Option.bind_eq_some_iff.mp h
        cases h
        exact List.forall_mem_cons.mpr ⟨hfirst, ih _ hlt hothers rfl⟩
      · cases h
    · cases h

end

/-- Whatever value is read, it is ordered, at any depth. -/
theorem isOrdered_of_readValue {depth : Nat} {chars rest : List Char} {value : Json}
    (h : readValue depth chars = some (value, rest)) : IsOrdered value := by
  -- Items and members are read with less depth, so the induction is on what is left of it.
  induction depth using Nat.strongRecOn generalizing chars rest value with
  | ind depth ih =>
    rw [readValue.eq_def] at h
    split at h
    case h_1 =>
      cases h
      exact .null
    case h_2 | h_3 =>
      cases h
      exact .bool _
    case h_4 =>
      obtain ⟨⟨text, after⟩, -, h⟩ := Option.map_eq_some_iff.mp h
      cases h
      exact .string _
    case h_5 =>
      split at h
      · cases h
      next depth =>
      split at h
      · cases h
        exact .array (List.forall_mem_nil _)
      · obtain ⟨⟨items, after⟩, hitems, h⟩ := Option.map_eq_some_iff.mp h
        cases h
        exact .array (forall_of_readItems (fun _ _ _ => ih depth (Nat.lt_succ_self depth)) hitems)
    case h_6 =>
      split at h
      · cases h
      next depth =>
      split at h
      · cases h
        exact .object List.Pairwise.nil (List.forall_mem_nil _)
      · obtain ⟨⟨members, after⟩, hmembers, h⟩ := Option.map_eq_some_iff.mp h
        cases h
        exact isOrdered_ofMembers
          (forall_of_readMembers (fun _ _ _ => ih depth (Nat.lt_succ_self depth)) hmembers)
    case h_7 =>
      obtain ⟨⟨number, after⟩, -, h⟩ := Option.map_eq_some_iff.mp h
      cases h
      exact .number _

/-- Whatever text is read, the value is ordered. -/
theorem isOrdered_of_parse? {text : String} {value : Json} (h : parse? text = some value) :
    IsOrdered value := by
  obtain ⟨⟨read, rest⟩, hread, h⟩ := Option.bind_eq_some_iff.mp h
  simp only at h
  split at h
  · cases h
    exact isOrdered_of_readValue hread
  · cases h

end RemoteCall.Json
