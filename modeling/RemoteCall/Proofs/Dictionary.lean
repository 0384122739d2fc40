import Mathlib.Algebra.Group.Basic
import Mathlib.Data.List.Induction
import RemoteCall.Dictionary

/-!
# Entries that are put in

Putting a value under a name adds it, or takes the place of what was there. So whatever the values
weigh, the weight of all entries grows by that of the value and shrinks by that of its
predecessor. A name that comes after all others is put at the end.
-/

namespace RemoteCall.Entries

variable {α : Type} {name : String} {value : α} {entries : List (String × α)}

/-! ## Looking up -/

/-- Nothing is found exactly under the names that no entry has. -/
theorem find?_eq_none_iff : find? name entries = none ↔ name ∉ entries.map Prod.fst := by
  induction entries with
  | nil => simp [find?]
  | cons entry entries ih =>
    rw [find?, List.map_cons, List.mem_cons, not_or, ← ih]
    split
    · next heq => simp [heq]
    · next hne => simp [Ne.symm hne]

/-- Nothing is found under a name that no entry has. -/
theorem find?_eq_none_of_forall_ne (h : ∀ entry ∈ entries, entry.1 ≠ name) :
    find? name entries = none := by
  rw [find?_eq_none_iff]
  intro hmem
  obtain ⟨entry, hentry, hname⟩ := List.mem_map.mp hmem
  exact h entry hentry hname

/-! ## Putting in -/

/-- The names are those that there were, and the new one. -/
theorem find?_insert_eq_none_iff {other : String} :
    find? other (insert name value entries) = none ↔ name ≠ other ∧ find? other entries = none := by
  rw [find?_insert]
  by_cases h : name = other <;> simp [h]

/-- A name that comes after all others is put at the end. -/
theorem insert_of_forall_lt (h : ∀ entry ∈ entries, entry.1 < name) :
    insert name value entries = entries ++ [(name, value)] := by
  induction entries with
  | nil => rfl
  | cons entry entries ih =>
    obtain ⟨hentry, hentries⟩ := List.forall_mem_cons.mp h
    have hne : name ≠ entry.1 := fun heq => String.lt_irrefl _ (heq ▸ hentry)
    rw [insert, if_neg (String.lt_asymm hentry), if_neg hne, ih hentries, List.cons_append]

/-- A value takes the place of the one under the last name. -/
theorem insert_concat_self (h : ∀ entry ∈ entries, entry.1 < name) (old : α) :
    insert name value (entries ++ [(name, old)]) = entries ++ [(name, value)] := by
  induction entries with
  | nil => simp [insert]
  | cons entry entries ih =>
    obtain ⟨hentry, hentries⟩ := List.forall_mem_cons.mp h
    have hne : name ≠ entry.1 := fun heq => String.lt_irrefl _ (heq ▸ hentry)
    rw [List.cons_append, insert, if_neg (String.lt_asymm hentry), if_neg hne, ih hentries,
      List.cons_append]

/-- A value that has been put at the end is found under its name. -/
theorem find?_concat_self (h : ∀ entry ∈ entries, entry.1 < name) (value : α) :
    find? name (entries ++ [(name, value)]) = some value := by
  rw [← insert_of_forall_lt h, find?_insert, if_pos rfl]

/-- The last pair is entered last, so its value is the one that stays. -/
theorem ofList_concat (pairs : List (String × α)) (pair : String × α) :
    ofList (pairs ++ [pair]) = insert pair.1 pair.2 (ofList pairs) := by
  rw [ofList, List.foldl_append]
  rfl

/-- Pairs in any order are entered in the order of their names. -/
theorem sorted_ofList (pairs : List (String × α)) : Sorted (ofList pairs) := by
  induction pairs using List.reverseRecOn with
  | nil => exact List.Pairwise.nil
  | append_singleton pairs pair ih =>
    rw [ofList_concat]
    exact sorted_insert ih

/-- Nothing is entered that is not one of the pairs. -/
theorem mem_of_mem_ofList {pairs : List (String × α)} {pair : String × α}
    (h : pair ∈ ofList pairs) : pair ∈ pairs := by
  induction pairs using List.reverseRecOn with
  | nil => cases h
  | append_singleton pairs last ih =>
    rw [ofList_concat] at h
    rcases mem_insert h with rfl | hmem
    · simp
    · exact List.mem_append_left _ (ih hmem)

/-- Putting in a value adds what it weighs and takes away what its predecessor weighs. -/
theorem sum_insert {M : Type} [AddCommMonoid M] (weight : α → M) (hsorted : Sorted entries) :
    ((insert name value entries).map fun entry => weight entry.2).sum +
        ((find? name entries).map weight).getD 0 =
      (entries.map fun entry => weight entry.2).sum + weight value := by
  induction entries with
  | nil => simp [insert, find?]
  | cons first rest ih =>
    obtain ⟨n, v⟩ := first
    obtain ⟨hfirst, hrest⟩ := List.pairwise_cons.mp hsorted
    by_cases hlt : name < n
    · have hother : ∀ entry ∈ (n, v) :: rest, entry.1 ≠ name :=
        List.forall_mem_cons.mpr ⟨(String.ne_of_lt hlt).symm, fun entry hmem =>
          (String.ne_of_lt (String.lt_trans hlt (hfirst entry hmem))).symm⟩
      rw [find?_eq_none_of_forall_ne hother]
      simp only [insert, if_pos hlt, List.map_cons, List.sum_cons, Option.map_none,
        Option.getD_none, add_zero]
      exact add_comm _ _
    by_cases heq : name = n
    · subst heq
      simp only [insert, if_neg hlt, if_true, find?, List.map_cons, List.sum_cons,
        Option.map_some, Option.getD_some]
      rw [add_right_comm, add_comm (weight value), add_right_comm]
    · have hne : n ≠ name := fun h => heq h.symm
      simp only [insert, if_neg hlt, if_neg heq, find?, if_neg hne, List.map_cons, List.sum_cons,
        add_assoc, ih hrest]

end RemoteCall.Entries
