import Mathlib.Data.List.Nodup
import RemoteCall.Convention.Parameters

/-!
# Parameters that reach a function

Pairs are gathered exactly if no name comes with two values; pairs with distinct names are all
gathered. What a function gets of them is told by the names: those of the framework begin with
an underscore, and no name of a parameter does.
-/

namespace RemoteCall

namespace Dictionary

variable {α : Type}

/-- Looking a name up in the entries is looking it up in the dictionary. -/
theorem lookup_entries (dictionary : Dictionary α) (name : String) :
    dictionary.entries.lookup name = dictionary.get? name := by
  have hfind : ∀ entries : List (String × α),
      entries.lookup name = Entries.find? name entries := by
    intro entries
    induction entries with
    | nil => rfl
    | cons entry entries ih =>
      rw [List.lookup_cons, Entries.find?, ih]
      by_cases heq : entry.1 = name
      · simp [heq]
      · have hne : (name == entry.1) = false := by simpa using fun h => heq h.symm
        simp only [hne, if_neg heq]
  exact hfind dictionary.entries

/-- No two entries have the same name. -/
theorem pairwise_entries (dictionary : Dictionary α) :
    dictionary.entries.Pairwise fun first second => first.1 ≠ second.1 := by
  refine dictionary.sorted.imp fun {a b} hlt heq => ?_
  rw [heq] at hlt
  exact String.lt_irrefl _ hlt

end Dictionary

/-- Parameters pass the check of their names exactly when each name passes it. -/
theorem checkParameterNames_eq_ok_iff {parameters : Parameters} :
    checkParameterNames parameters = .ok () ↔
      ∀ name value, parameters.get? name = some value → checkParameterName name = .ok () := by
  have hforM : ∀ names : List String, names.forM checkParameterName = .ok () ↔
      ∀ name ∈ names, checkParameterName name = .ok () := by
    intro names
    induction names with
    | nil => simp [pure, Except.pure]
    | cons name names ih =>
      have hcons : (name :: names).forM checkParameterName =
          (checkParameterName name >>= fun _ => names.forM checkParameterName) := rfl
      rw [hcons, List.forall_mem_cons, ← ih]
      cases checkParameterName name <;> simp [bind, Except.bind]
  rw [checkParameterNames, hforM]
  constructor
  · intro h name value hget
    exact h name (List.mem_map.mpr ⟨(name, value), Dictionary.mem_entries_iff.mpr hget, rfl⟩)
  · intro h name hmem
    obtain ⟨⟨name, value⟩, hentry, rfl⟩ := List.mem_map.mp hmem
    exact h name value (Dictionary.mem_entries_iff.mp hentry)

/-- The name of a function is not empty. -/
theorem checkFunctionName_ne_empty {name : String} (h : checkFunctionName name = .ok ()) :
    name ≠ "" := by
  rintro rfl
  cases h

/-- An acceptable name is neither empty nor reserved, and is no name of the framework. -/
theorem name_of_checkParameterName {name : String} (h : checkParameterName name = .ok ()) :
    name ≠ "" ∧ name ≠ reservedParameter ∧ name.toList.head? ≠ some '_' := by
  simp only [checkParameterName] at h
  split at h
  · cases h
  · next hempty =>
    split at h
    · cases h
    · next hreserved =>
      split at h
      · next hname =>
        refine ⟨hempty, hreserved, fun hhead => ?_⟩
        obtain ⟨rest, hchars⟩ := List.head?_eq_some_iff.mp hhead
        rw [isName, hchars] at hname
        cases hname
      · cases h

/-- An entry with an acceptable name reaches a function if it is not empty. -/
theorem reachesFunction_eq_true {name value : String} (hname : checkParameterName name = .ok ())
    (hvalue : value ≠ "") : reachesFunction name value = true := by
  obtain ⟨hempty, hreserved, hhead⟩ := name_of_checkParameterName hname
  simp [reachesFunction, hempty, hreserved, hhead, hvalue]

/-- Nothing of the framework reaches a function. -/
theorem reachesFunction_eq_false {name : String} (hname : name.toList.head? = some '_')
    (value : String) : reachesFunction name value = false := by
  simp [reachesFunction, hname]

/-! ## Gathering -/

/-- No name comes with two values. -/
def IsConsistent (pairs : List (String × String)) : Prop :=
  ∀ name value other, (name, value) ∈ pairs → (name, other) ∈ pairs → value = other

/-- Whether names come with two values depends on which pairs there are, not on their order or
number. -/
theorem IsConsistent.congr {first second : List (String × String)}
    (h : ∀ pair, pair ∈ first ↔ pair ∈ second) : IsConsistent first ↔ IsConsistent second := by
  simp only [IsConsistent, h]

/-- Where no name has two values, looking it up finds the one that it has. -/
theorem IsConsistent.lookup_eq_some_iff {pairs : List (String × String)} (h : IsConsistent pairs)
    {name value : String} : pairs.lookup name = some value ↔ (name, value) ∈ pairs := by
  have hmem {found : String} (hfound : pairs.lookup name = some found) : (name, found) ∈ pairs := by
    obtain ⟨before, after, heq, -⟩ := List.lookup_eq_some_iff.mp hfound
    simp [heq]
  refine ⟨hmem, fun hvalue => ?_⟩
  cases hfound : pairs.lookup name with
  | none =>
    have hother := List.lookup_eq_none_iff.mp hfound (name, value) hvalue
    simp at hother
  | some found => rw [h name found value (hmem hfound) hvalue]

/-- Where no name comes twice, none comes with two values. -/
theorem isConsistent_of_nodup {pairs : List (String × String)} (h : (pairs.map Prod.fst).Nodup) :
    IsConsistent pairs := by
  intro name value other hvalue hother
  exact congrArg Prod.snd (List.inj_on_of_nodup_map h hvalue hother rfl)

/-- In a dictionary no name has two values. -/
theorem Dictionary.isConsistent_entries (parameters : Parameters) :
    IsConsistent parameters.entries := by
  intro name value other hvalue hother
  rw [mem_entries_iff] at hvalue hother
  exact Option.some.inj (hvalue.symm.trans hother)

/-- A new name adds its entry and leaves the others alone. -/
theorem Dictionary.mem_entries_insert {α : Type} {dictionary : Dictionary α} {name : String}
    (hnew : dictionary.get? name = none) {value : α} {pair : String × α} :
    pair ∈ (dictionary.insert name value).entries ↔
      pair = (name, value) ∨ pair ∈ dictionary.entries := by
  obtain ⟨other, held⟩ := pair
  rw [mem_entries_iff, mem_entries_iff, get?_insert]
  by_cases heq : name = other
  · subst heq
    simp [hnew, eq_comm]
  · simp [heq, Ne.symm heq]

/-- All that can come of gathering: it succeeds if no name comes with two values among the pairs and
what has been entered before, and else it names one that does. -/
theorem gatherPairs_cases (parameters : Parameters) (pairs : List (String × String)) :
    (IsConsistent (parameters.entries ++ pairs) ∧
      ∃ gathered, gatherPairs parameters pairs = .ok gathered) ∨
    ∃ name value other, gatherPairs parameters pairs = .error (.severalValues name) ∧
      (name, value) ∈ parameters.entries ++ pairs ∧
      (name, other) ∈ parameters.entries ++ pairs ∧ value ≠ other := by
  induction pairs generalizing parameters with
  | nil =>
    left
    rw [List.append_nil]
    exact ⟨parameters.isConsistent_entries, parameters, rfl⟩
  | cons pair pairs ih =>
    obtain ⟨name, value⟩ := pair
    rw [gatherPairs]
    cases hget : parameters.get? name with
    | none =>
      -- the pair moves from those that are left to those that have been entered
      have hmem (pair : String × String) :
          pair ∈ (parameters.insert name value).entries ++ pairs ↔
            pair ∈ parameters.entries ++ (name, value) :: pairs := by
        rw [List.mem_append, List.mem_append, Dictionary.mem_entries_insert hget, List.mem_cons,
          or_assoc, or_left_comm]
      simpa only [hmem, IsConsistent.congr hmem] using ih (parameters.insert name value)
    | some existing =>
      have hentered : (name, existing) ∈ parameters.entries := Dictionary.mem_entries_iff.mpr hget
      by_cases heq : existing = value
      · subst heq
        have hmem (pair : String × String) : pair ∈ parameters.entries ++ pairs ↔
            pair ∈ parameters.entries ++ (name, existing) :: pairs := by
          rw [List.mem_append, List.mem_append, List.mem_cons]
          refine ⟨Or.imp_right Or.inr, ?_⟩
          rintro (hin | rfl | hin)
          · exact Or.inl hin
          · exact Or.inl hentered
          · exact Or.inr hin
        simpa only [hmem, IsConsistent.congr hmem, if_true] using ih parameters
      · right
        refine ⟨name, existing, value, ?_, List.mem_append_left _ hentered, by simp, heq⟩
        simp only [if_neg heq]

/-- Pairs can be added to parameters exactly when no name has two values among all of them. -/
theorem exists_gatherPairs_iff {parameters : Parameters} {pairs : List (String × String)} :
    (∃ gathered, gatherPairs parameters pairs = .ok gathered) ↔
      IsConsistent (parameters.entries ++ pairs) := by
  rcases gatherPairs_cases parameters pairs with
    ⟨hconsistent, hgathered⟩ | ⟨name, value, other, herror, hvalue, hother, hne⟩
  · exact iff_of_true hgathered hconsistent
  · refine iff_of_false ?_ fun hconsistent => hne (hconsistent name value other hvalue hother)
    rintro ⟨gathered, hgathered⟩
    rw [herror] at hgathered
    cases hgathered

/-- Pairs that can be gathered have the first value of every name. -/
theorem get?_of_gatherPairs {parameters gathered : Parameters} {pairs : List (String × String)}
    (h : gatherPairs parameters pairs = .ok gathered) (name : String) :
    gathered.get? name = (parameters.get? name).or (pairs.lookup name) := by
  induction pairs generalizing parameters with
  | nil =>
    cases h
    simp
  | cons pair pairs ih =>
    obtain ⟨first, value⟩ := pair
    rw [gatherPairs] at h
    by_cases hname : first = name
    · subst hname
      split at h
      · next hnone => simp [ih h, Dictionary.get?_insert, hnone]
      · next existing hsome =>
        split at h
        · simp [ih h, hsome]
        · cases h
    · have hother : (name == first) = false := by simpa using fun heq => hname heq.symm
      rw [List.lookup_cons, hother]
      split at h
      · rw [ih h, Dictionary.get?_insert, if_neg hname]
      · split at h
        · exact ih h
        · cases h

/-- Pairs whose names are distinct and new are all gathered. -/
theorem gatherPairs_of_nodup {parameters : Parameters} {pairs : List (String × String)}
    (hnodup : (pairs.map Prod.fst).Nodup)
    (hnew : ∀ pair ∈ pairs, parameters.get? pair.1 = none) :
    ∃ gathered, gatherPairs parameters pairs = .ok gathered ∧
      ∀ name, gathered.get? name = (pairs.lookup name).or (parameters.get? name) := by
  have hconsistent : IsConsistent (parameters.entries ++ pairs) := by
    intro name value other hvalue hother
    rw [List.mem_append, Dictionary.mem_entries_iff] at hvalue hother
    rcases hvalue with hvalue | hvalue <;> rcases hother with hother | hother
    · exact Option.some.inj (hvalue.symm.trans hother)
    · cases hvalue.symm.trans (hnew _ hother)
    · cases hother.symm.trans (hnew _ hvalue)
    · exact isConsistent_of_nodup hnodup name value other hvalue hother
  obtain ⟨gathered, hgathered⟩ := exists_gatherPairs_iff.mpr hconsistent
  refine ⟨gathered, hgathered, fun name => ?_⟩
  rw [get?_of_gatherPairs hgathered]
  cases hget : parameters.get? name with
  | none => rw [Option.none_or, Option.or_none]
  | some value =>
    have hnone : pairs.lookup name = none := by
      rw [List.lookup_eq_none_iff]
      intro pair hpair
      rw [bne_iff_ne]
      rintro rfl
      cases hget.symm.trans (hnew pair hpair)
    rw [hnone, Option.none_or, Option.some_or]

/-! ## Parameters for functions -/

/-- Acceptable parameters have none of the names of the framework. -/
theorem get?_eq_none_of_head? {accepted : Parameters}
    (haccepted : ∀ name value, accepted.get? name = some value →
      checkParameterName name = .ok () ∧ value ≠ "") {name : String}
    (hname : name.toList.head? = some '_') : accepted.get? name = none := by
  rw [Option.eq_none_iff_forall_ne_some]
  intro value hget
  exact (name_of_checkParameterName (haccepted name value hget).1).2.2 hname

/-- A function gets exactly the entries that are acceptable, if all others are of the
framework. -/
theorem functionParameters_eq_ok {parameters accepted : Parameters}
    (haccepted : ∀ name value, accepted.get? name = some value →
      checkParameterName name = .ok () ∧ value ≠ "")
    (hsame : ∀ name, name.toList.head? ≠ some '_' → parameters.get? name = accepted.get? name) :
    functionParameters parameters = .ok accepted := by
  have hclean : cleanUp parameters = accepted := by
    refine Dictionary.ext_get? fun name => ?_
    rw [cleanUp, Dictionary.get?_filter]
    by_cases hframework : name.toList.head? = some '_'
    · rw [get?_eq_none_of_head? haccepted hframework, Option.filter_eq_none_iff]
      intro value _
      simp [reachesFunction_eq_false hframework]
    · rw [hsame name hframework]
      cases hget : accepted.get? name with
      | none => rfl
      | some value =>
        obtain ⟨hname, hvalue⟩ := haccepted name value hget
        exact Option.filter_some_pos (reachesFunction_eq_true hname hvalue)
  have hnames : checkParameterNames accepted = .ok () :=
    checkParameterNames_eq_ok_iff.mpr fun name value hget => (haccepted name value hget).1
  rw [functionParameters, hclean, hnames]

end RemoteCall
