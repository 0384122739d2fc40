/-!
# Dictionaries

A dictionary maps names to values. It holds a name once and lists its entries by
name, in code point order, so two dictionaries that answer alike are equal
(`Dictionary.ext_get?`). The operations on plain lists of entries, in `Entries`,
also serve values that hold dictionaries of themselves.
-/

namespace RemoteCall

namespace Entries

variable {α : Type}

/-- The entries are listed by strictly increasing name. -/
def Sorted (entries : List (String × α)) : Prop :=
  entries.Pairwise (fun a b => a.1 < b.1)

/-- The value of the first entry with the name. -/
def find? (name : String) : List (String × α) → Option α
  | [] => none
  | (n, v) :: rest => if n = name then some v else find? name rest

/-- Puts a value under a name: in the name's place, or where the name belongs. -/
def insert (name : String) (value : α) : List (String × α) → List (String × α)
  | [] => [(name, value)]
  | (n, v) :: rest =>
    if name < n then (name, value) :: (n, v) :: rest
    else if name = n then (name, value) :: rest
    else (n, v) :: insert name value rest

/-- Enters the pairs one by one; of a repeated name the last value stays. -/
def ofList (pairs : List (String × α)) : List (String × α) :=
  pairs.foldl (fun entries pair => insert pair.1 pair.2 entries) []

/-- After a value has been put in, an entry is the new one or one of those before. -/
theorem mem_insert {name : String} {value : α} {entries : List (String × α)}
    {pair : String × α} (h : pair ∈ insert name value entries) :
    pair = (name, value) ∨ pair ∈ entries := by
  induction entries with
  | nil => simpa [insert] using h
  | cons head rest ih => grind [insert]

/-- Putting in keeps the entries in order. This is what makes a dictionary of the result. -/
theorem sorted_insert {name : String} {value : α} {entries : List (String × α)}
    (h : Sorted entries) : Sorted (insert name value entries) := by
  induction entries with
  | nil => simp [insert, Sorted]
  | cons head rest ih =>
    obtain ⟨hhead, hrest⟩ := List.pairwise_cons.mp h
    simp only [insert]
    split
    · next hlt =>
      refine List.pairwise_cons.mpr ⟨fun pair hpair => ?_, h⟩
      rcases List.mem_cons.mp hpair with rfl | hmem
      · exact hlt
      · exact String.lt_trans hlt (hhead pair hmem)
    · split
      · next heq =>
        subst heq
        exact List.pairwise_cons.mpr ⟨hhead, hrest⟩
      · next hlt hne =>
        refine List.pairwise_cons.mpr ⟨fun pair hpair => ?_, ih hrest⟩
        rcases mem_insert hpair with rfl | hmem
        · grind
        · exact hhead pair hmem

/-- The name has the new value, and every other name what it had. -/
theorem find?_insert {name other : String} {value : α} {entries : List (String × α)} :
    find? other (insert name value entries) =
      if name = other then some value else find? other entries := by
  induction entries with
  | nil => simp [insert, find?]
  | cons head rest ih => grind [insert, find?]

/-- As the names increase, only one entry can be found under a name: the one that is listed. -/
theorem find?_eq_some_iff {name : String} {value : α} {entries : List (String × α)}
    (h : Sorted entries) : find? name entries = some value ↔ (name, value) ∈ entries := by
  induction entries with
  | nil => simp [find?]
  | cons head rest ih =>
    obtain ⟨hhead, hrest⟩ := List.pairwise_cons.mp h
    obtain ⟨n, v⟩ := head
    by_cases hn : n = name
    · subst hn
      constructor
      · intro hfind
        simp_all [find?]
      · intro hmem
        rcases List.mem_cons.mp hmem with heq | hlater
        · simp_all [find?]
        · exact absurd (hhead _ hlater) (String.lt_irrefl _)
    · simp only [find?, if_neg hn, ih hrest, List.mem_cons, Prod.mk.injEq]
      exact ⟨Or.inr, fun hmem => hmem.resolve_left fun heq => hn heq.1.symm⟩

/-- Sorted entries are determined by what they hold. -/
theorem eq_of_forall_mem_iff {first second : List (String × α)} (hfirst : Sorted first)
    (hsecond : Sorted second) (h : ∀ pair, pair ∈ first ↔ pair ∈ second) :
    first = second := by
  induction first generalizing second with
  | nil =>
    cases second with
    | nil => rfl
    | cons head rest => exact absurd ((h head).mpr (by simp)) (by simp)
  | cons head rest ih =>
    cases second with
    | nil => exact absurd ((h head).mp (by simp)) (by simp)
    | cons head' rest' =>
      obtain ⟨hhead, hrest⟩ := List.pairwise_cons.mp hfirst
      obtain ⟨hhead', hrest'⟩ := List.pairwise_cons.mp hsecond
      have heq : head = head' := by
        rcases List.mem_cons.mp ((h head).mp (by simp)) with heq | hlater
        · exact heq
        · rcases List.mem_cons.mp ((h head').mpr (by simp)) with heq | hlater'
          · exact heq.symm
          · exact absurd (hhead _ hlater') (String.lt_asymm (hhead' _ hlater))
      subst heq
      congr 1
      refine ih hrest hrest' fun pair => ⟨fun hmem => ?_, fun hmem => ?_⟩
      · rcases List.mem_cons.mp ((h pair).mp (List.mem_cons_of_mem _ hmem)) with rfl | hin
        · exact absurd (hhead _ hmem) (String.lt_irrefl _)
        · exact hin
      · rcases List.mem_cons.mp ((h pair).mpr (List.mem_cons_of_mem _ hmem)) with rfl | hin
        · exact absurd (hhead' _ hmem) (String.lt_irrefl _)
        · exact hin

end Entries

/-- A map from names to values, listed by name in code point order. -/
structure Dictionary (α : Type) where
  entries : List (String × α)
  sorted : Entries.Sorted entries

namespace Dictionary

variable {α : Type}

/-- The dictionary without entries. -/
def empty : Dictionary α := ⟨[], List.Pairwise.nil⟩

instance : Inhabited (Dictionary α) := ⟨empty⟩

/-- The value under a name, if there is one. -/
def get? (dictionary : Dictionary α) (name : String) : Option α :=
  Entries.find? name dictionary.entries

/-- Whether there is a value under the name. -/
def contains (dictionary : Dictionary α) (name : String) : Bool :=
  (dictionary.get? name).isSome

/-- Puts a value under a name, in place of any other. -/
def insert (dictionary : Dictionary α) (name : String) (value : α) : Dictionary α :=
  ⟨Entries.insert name value dictionary.entries, Entries.sorted_insert dictionary.sorted⟩

/-- Keeps the entries that the test accepts. -/
def filter (keep : String → α → Bool) (dictionary : Dictionary α) : Dictionary α :=
  ⟨dictionary.entries.filter (fun entry => keep entry.1 entry.2),
    List.Pairwise.filter _ dictionary.sorted⟩

/-- Drops the entry under a name, if there is one. -/
def erase (dictionary : Dictionary α) (name : String) : Dictionary α :=
  dictionary.filter (fun n _ => n != name)

/-- The names in code point order. -/
def names (dictionary : Dictionary α) : List String :=
  dictionary.entries.map Prod.fst

/-- Enters the pairs one by one; of a repeated name the last value stays. -/
def ofList (pairs : List (String × α)) : Dictionary α :=
  pairs.foldl (fun dictionary pair => dictionary.insert pair.1 pair.2) empty

instance [DecidableEq α] : DecidableEq (Dictionary α) := fun a b =>
  decidable_of_iff (a.entries = b.entries)
    ⟨fun h => by cases a; cases b; cases h; rfl, fun h => by rw [h]⟩

/-- What is listed under a name is what is got for it. -/
theorem mem_entries_iff {dictionary : Dictionary α} {name : String} {value : α} :
    (name, value) ∈ dictionary.entries ↔ dictionary.get? name = some value :=
  (Entries.find?_eq_some_iff dictionary.sorted).symm

/-- Dictionaries that answer alike are equal. -/
theorem ext_get? {first second : Dictionary α} (h : ∀ name, first.get? name = second.get? name) :
    first = second := by
  obtain ⟨entries, hsorted⟩ := first
  obtain ⟨entries', hsorted'⟩ := second
  have heq : entries = entries' := by
    refine Entries.eq_of_forall_mem_iff hsorted hsorted' fun pair => ?_
    rw [← Entries.find?_eq_some_iff hsorted, ← Entries.find?_eq_some_iff hsorted']
    exact iff_of_eq (congrArg (· = some pair.2) (h pair.1))
  subst heq
  rfl

/-- The empty dictionary has no value under any name. -/
@[simp] theorem get?_empty (name : String) : (empty : Dictionary α).get? name = none := rfl

/-- A value is got under its own name, and nothing changes under another. -/
@[simp] theorem get?_insert (dictionary : Dictionary α) (name other : String) (value : α) :
    (dictionary.insert name value).get? other =
      if name = other then some value else dictionary.get? other :=
  Entries.find?_insert

/-- A value is got after filtering if it was there and is kept. -/
@[simp] theorem get?_filter (keep : String → α → Bool) (dictionary : Dictionary α)
    (name : String) :
    (dictionary.filter keep).get? name = (dictionary.get? name).filter (keep name) := by
  cases hget : dictionary.get? name with
  | none =>
    rw [Option.filter_none, Option.eq_none_iff_forall_ne_some]
    intro value hvalue
    have hmem := mem_entries_iff.mpr hvalue
    have hin := (List.mem_filter.mp hmem).1
    rw [mem_entries_iff, hget] at hin
    cases hin
  | some value =>
    have hmem := mem_entries_iff.mpr hget
    by_cases hkeep : keep name value
    · rw [Option.filter_some_pos hkeep, ← mem_entries_iff]
      exact List.mem_filter.mpr ⟨hmem, hkeep⟩
    · rw [Option.filter_some_neg (by simpa using hkeep), Option.eq_none_iff_forall_ne_some]
      intro value' hvalue'
      obtain ⟨hin, hkeep'⟩ := List.mem_filter.mp (mem_entries_iff.mpr hvalue')
      rw [mem_entries_iff, hget] at hin
      cases hin
      exact hkeep hkeep'

/-- Nothing is got under a name that has been dropped, and nothing changes under another. -/
@[simp] theorem get?_erase (dictionary : Dictionary α) (name other : String) :
    (dictionary.erase name).get? other =
      if name = other then none else dictionary.get? other := by
  rw [erase, get?_filter]
  by_cases h : name = other
  · subst h
    cases dictionary.get? name <;> simp [Option.filter]
  · have hne : (other != name) = true := by simpa using fun heq => h heq.symm
    cases dictionary.get? other <;> simp [Option.filter, hne, h]

/-- A name is there once a value has been put under it, or if it was there before. -/
@[simp] theorem contains_insert (dictionary : Dictionary α) (name other : String) (value : α) :
    (dictionary.insert name value).contains other =
      (decide (name = other) || dictionary.contains other) := by
  rw [contains, get?_insert]
  by_cases h : name = other <;> simp [h, contains]

/-- A name is gone once it has been dropped, and every other stays. -/
@[simp] theorem contains_erase (dictionary : Dictionary α) (name other : String) :
    (dictionary.erase name).contains other =
      (decide (name ≠ other) && dictionary.contains other) := by
  rw [contains, get?_erase]
  by_cases h : name = other <;> simp [h, contains]

/-- A name is missing exactly if nothing is got for it. -/
theorem contains_eq_false_iff {dictionary : Dictionary α} {name : String} :
    dictionary.contains name = false ↔ dictionary.get? name = none := by
  rw [contains, Option.isSome_eq_false_iff, Option.isNone_iff_eq_none]

/-- The names that are listed are those that there is a value under. -/
theorem mem_names_iff {dictionary : Dictionary α} {name : String} :
    name ∈ dictionary.names ↔ dictionary.contains name = true := by
  rw [names, List.mem_map, contains, Option.isSome_iff_exists]
  constructor
  · rintro ⟨⟨_, value⟩, hmem, rfl⟩
    exact ⟨value, mem_entries_iff.mp hmem⟩
  · rintro ⟨value, hget⟩
    exact ⟨(name, value), mem_entries_iff.mpr hget, rfl⟩

end Dictionary

/-- The parameters of a call or of a result: each name has one text. -/
abbrev Parameters := Dictionary String

end RemoteCall
