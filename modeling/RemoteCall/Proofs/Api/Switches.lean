import RemoteCall.Proofs.Api.Invocation
import RemoteCall.Proofs.Api.Legality
import RemoteCall.Proofs.Text.ByteOrder

/-!
# Functions and their switches

Adding a function never changes what is off, and moving a switch never changes the functions. So
the history of an API tells which functions there are and, apart from that, which names are off:
the last setting of a switch that was accepted counts. The list of functions shows as much,
whatever order they came in.
-/

namespace RemoteCall

/-- The names that a function can be added under are those of the ordinary form. -/
theorem isName_iff_checkFunctionName {name : String} :
    isName name = true ↔ checkFunctionName name = .ok () ∧ isMetaFunction name = false := by
  have hmeta : ∀ other ∈ [noOperation, getVersion, getFunctionList], isName other = false := by
    decide
  constructor
  · intro hname
    have hordinary : isMetaFunction name = false := by
      rw [Bool.eq_false_iff]
      intro h
      simp only [isMetaFunction, Bool.or_eq_true, decide_eq_true_eq, or_assoc] at h
      have hfalse := hmeta name (by simpa using h)
      rw [hname] at hfalse
      cases hfalse
    have hne : name ≠ "" := by
      rintro rfl
      cases hname
    exact ⟨by simp [checkFunctionName, hne, hname], hordinary⟩
  · rintro ⟨haccepted, hordinary⟩
    have hne : name ≠ "" := by
      rintro rfl
      cases haccepted
    cases hname : isName name with
    | true => rfl
    | false => simp [checkFunctionName, hne, hname, hordinary] at haccepted

namespace Api

variable {api : Api} {name : String}

/-- The names that are listed are those of the functions. -/
theorem mem_functionNames_iff : name ∈ api.functionNames ↔ api.functions.contains name = true :=
  Dictionary.mem_names_iff

/-- A function is on if it is there and its name is not among those that are off. -/
theorem isEnabled_eq_true_iff :
    api.isEnabled name = true ↔
      name ∈ api.functionNames ∧ api.disabled.contains name = false := by
  rw [mem_functionNames_iff, isEnabled, Bool.and_eq_true, Bool.not_eq_true']

/-- What is off is a function that is there, and is not on. -/
theorem IsSound.contains_disabled_iff (h : api.IsSound) :
    api.disabled.contains name = true ↔
      name ∈ api.functionNames ∧ api.isEnabled name = false := by
  rw [mem_functionNames_iff, isEnabled]
  constructor
  · intro hoff
    exact ⟨h.disabled name hoff, by rw [hoff, Bool.not_true, Bool.and_false]⟩
  · rintro ⟨hthere, hoff⟩
    rwa [hthere, Bool.true_and, Bool.not_eq_false'] at hoff

/-! ## Which functions there are -/

/-- A change adds a function only if it does so under an ordinary name, and takes none away. -/
theorem contains_functions_make (api : Api) (step : Change) (name : String) :
    (api.make step).functions.contains name = true ↔ api.functions.contains name = true ∨
      ∃ function, step = .register function ∧ function.spec.name = name ∧
        isName name = true := by
  cases step with
  | register function =>
    simp only [Change.register.injEq, exists_eq_left']
    rw [make, change]
    rcases register_cases api function with ⟨e, hrefused, hregister⟩ |
      ⟨hname, htaken, hregister⟩ | ⟨hname, hmeta, -, hregister⟩
    · have hnot : ¬ (function.spec.name = name ∧ isName name = true) := by
        rintro ⟨rfl, hordinary⟩
        rw [(isName_iff_checkFunctionName.mp hordinary).1] at hrefused
        cases hrefused
      rw [hregister, or_iff_left hnot]
    · rw [hregister]
      refine (or_iff_left_of_imp ?_).symm
      rintro ⟨rfl, hordinary⟩
      have hmeta := (isName_iff_checkFunctionName.mp hordinary).2
      exact htaken.resolve_left (by simp [hmeta])
    · have hordinary := isName_iff_checkFunctionName.mpr ⟨hname, hmeta⟩
      rw [hregister, Dictionary.contains_insert, Bool.or_eq_true, decide_eq_true_eq, or_comm]
      refine or_congr_right ⟨?_, And.left⟩
      rintro rfl
      exact ⟨rfl, hordinary⟩
  | setEnabled other enabled =>
    rw [make, change]
    rcases setEnabled_cases api other enabled with ⟨-, hset⟩ | ⟨-, hset⟩ <;> simp [hset]

/-- The functions that there are after changes are those that were there, and those that have been
added under an ordinary name. None is ever taken away. -/
theorem mem_functionNames_after_iff (api : Api) (steps : List Change) :
    name ∈ (api.after steps).functionNames ↔ name ∈ api.functionNames ∨
      ∃ function, Change.register function ∈ steps ∧ function.spec.name = name ∧
        isName name = true := by
  rw [mem_functionNames_iff, mem_functionNames_iff]
  induction steps generalizing api with
  | nil => simp [after]
  | cons step steps ih =>
    rw [after, List.foldl_cons, ← after, ih, contains_functions_make, or_assoc]
    refine or_congr_right ?_
    constructor
    · rintro (⟨function, rfl, hfunction⟩ | ⟨function, hmem, hfunction⟩)
      · exact ⟨function, List.mem_cons_self, hfunction⟩
      · exact ⟨function, List.mem_cons_of_mem _ hmem, hfunction⟩
    · rintro ⟨function, hmem, hfunction⟩
      rcases List.mem_cons.mp hmem with heq | hmem
      · exact Or.inl ⟨function, heq.symm, hfunction⟩
      · exact Or.inr ⟨function, hmem, hfunction⟩

/-! ## Which names are off -/

/-- The setting that a change makes to the switch of a function, unless it is refused. -/
def setting? (name : String) (api : Api) (step : Change) : Option Bool :=
  match step, (api.change step).1 with
  | .setEnabled other enabled, .ok _ => if other = name then some enabled else none
  | _, _ => none

/-- The last setting of the switch of a function along changes, those left out that are refused. -/
def lastSetting? (name : String) : Api → List Change → Option Bool
  | _, [] => none
  | api, step :: steps => (lastSetting? name (api.make step) steps).or (setting? name api step)

/-- Adding a function does not change what is off, refused or not. -/
theorem disabled_make_register (api : Api) (function : ApiFunction) :
    (api.make (.register function)).disabled = api.disabled := by
  rw [make, change]
  rcases register_cases api function with ⟨e, -, hregister⟩ | ⟨-, -, hregister⟩ |
    ⟨-, -, -, hregister⟩ <;> rw [hregister]

/-- A name is off as the setting says, or as it was if there is none. -/
theorem contains_disabled_make (api : Api) (step : Change) (name : String) :
    (api.make step).disabled.contains name =
      ((setting? name api step).map not).getD (api.disabled.contains name) := by
  cases step with
  | register function =>
    rw [disabled_make_register]
    simp [setting?]
  | setEnabled other enabled =>
    rcases setEnabled_cases api other enabled with ⟨-, hset⟩ | ⟨-, hset⟩
    · simp [make, change, setting?, hset]
    · simp only [make, change, setting?, hset]
      cases enabled <;> by_cases heq : other = name <;> simp [heq]

/-- A name is off as the last setting says, or as it was if there is none. -/
theorem contains_disabled_after (api : Api) (steps : List Change) (name : String) :
    (api.after steps).disabled.contains name =
      ((lastSetting? name api steps).map not).getD (api.disabled.contains name) := by
  induction steps generalizing api with
  | nil => rfl
  | cons step steps ih =>
    have hafter := ih (api.make step)
    rw [contains_disabled_make] at hafter
    rw [after, List.foldl_cons, ← after, hafter, lastSetting?]
    cases lastSetting? name (api.make step) steps <;> rfl

/-- A function that is there is on, unless the last setting of its switch was off. -/
theorem isEnabled_after_iff (api : Api) (steps : List Change)
    (hon : api.disabled.contains name = false) :
    (api.after steps).isEnabled name = true ↔
      name ∈ (api.after steps).functionNames ∧ lastSetting? name api steps ≠ some false := by
  rw [isEnabled_eq_true_iff, contains_disabled_after, hon]
  refine and_congr_right fun _ => ?_
  rcases lastSetting? name api steps with - | - | - <;> simp

/-! ## The list of functions -/

/-- The functions by name, with their switches. -/
def switches (api : Api) : List (String × Bool) :=
  api.functionNames.map fun name => (name, api.isEnabled name)

/-- The functions are listed by name in code point order. -/
theorem sorted_functionNames (api : Api) : api.functionNames.Pairwise (· < ·) :=
  List.pairwise_map.mpr api.functions.sorted

/-- The switches are listed by name, as the functions are. -/
theorem sorted_switches (api : Api) : Entries.Sorted api.switches :=
  List.pairwise_map.mpr api.sorted_functionNames

/-- A switch is shown for every function, and as it is. -/
theorem mem_switches_iff {enabled : Bool} :
    (name, enabled) ∈ api.switches ↔
      name ∈ api.functionNames ∧ api.isEnabled name = enabled := by
  rw [switches, List.mem_map]
  constructor
  · rintro ⟨other, hmem, heq⟩
    obtain ⟨rfl, henabled⟩ := Prod.mk.inj heq
    exact ⟨hmem, henabled⟩
  · rintro ⟨hmem, henabled⟩
    exact ⟨name, hmem, by rw [henabled]⟩

/-- The list of functions shows the switches. -/
theorem functionList_eq_switches (api : Api) :
    api.functionList = .mk "data" none [] (api.switches.map fun entry =>
      listEntry entry.1 entry.2) none := by
  rw [functionList_eq, switches, List.map_map]
  congr 1
  refine List.map_congr_left fun name hmem => ?_
  have hthere := mem_functionNames_iff.mp hmem
  rw [Function.comp_apply, isEnabled, hthere, Bool.true_and]

/-- The list is told by the functions that there are and by which of them are on. -/
theorem functionList_eq_functionList {first second : Api}
    (hnames : ∀ name, name ∈ first.functionNames ↔ name ∈ second.functionNames)
    (henabled : ∀ name, first.isEnabled name = second.isEnabled name) :
    first.functionList = second.functionList := by
  have hswitches : first.switches = second.switches := by
    refine Entries.eq_of_forall_mem_iff first.sorted_switches second.sorted_switches ?_
    rintro ⟨name, enabled⟩
    rw [mem_switches_iff, mem_switches_iff, hnames, henabled]
  rw [functionList_eq_switches, functionList_eq_switches, hswitches]

/-! ## Histories in another order -/

/-- Two APIs do not differ in the names of their functions, nor in what is off. -/
structure IsAlike (first second : Api) : Prop where
  functions : ∀ name, first.functions.contains name = second.functions.contains name
  disabled : first.disabled = second.disabled

/-- A change takes APIs that are alike to such, whatever the functions are. -/
theorem IsAlike.make {first second : Api} (h : first.IsAlike second) (step : Change) :
    (first.make step).IsAlike (second.make step) where
  functions name := by
    rw [Bool.eq_iff_iff, contains_functions_make, contains_functions_make, h.functions]
  disabled := by
    cases step with
    | register function => rw [disabled_make_register, disabled_make_register, h.disabled]
    | setEnabled name enabled =>
      simp only [Api.make, change, setEnabled, h.functions, h.disabled]
      split <;> simp [h.disabled]

/-- Changes take APIs that are alike to such. -/
theorem IsAlike.after {first second : Api} (h : first.IsAlike second) (steps : List Change) :
    (first.after steps).IsAlike (second.after steps) := by
  induction steps generalizing first second with
  | nil => exact h
  | cons step steps ih => exact ih (h.make step)

/-- Adding functions does not change what is off. -/
theorem disabled_after_register (api : Api) (functions : List ApiFunction) :
    (api.after (functions.map .register)).disabled = api.disabled := by
  induction functions generalizing api with
  | nil => rfl
  | cons function functions ih => exact (ih _).trans (disabled_make_register api function)

/-- Functions that are added one after another leave the API alike in any order, and so do later
changes. -/
theorem isAlike_after_perm {functions functions' : List ApiFunction}
    (hperm : functions.Perm functions') (api : Api) (later : List Change) :
    (api.after (functions.map .register ++ later)).IsAlike
      (api.after (functions'.map .register ++ later)) := by
  have hadded : (api.after (functions.map .register)).IsAlike
      (api.after (functions'.map .register)) := by
    refine ⟨fun name => ?_, ?_⟩
    · rw [Bool.eq_iff_iff, ← mem_functionNames_iff, ← mem_functionNames_iff,
        mem_functionNames_after_iff, mem_functionNames_after_iff]
      simp only [List.mem_map, Change.register.injEq, exists_eq_right, hperm.mem_iff]
    · rw [disabled_after_register, disabled_after_register]
  have hlater := hadded.after later
  rwa [after, after, ← List.foldl_append, after, after, ← List.foldl_append] at hlater

/-- APIs that are alike show the same list. -/
theorem IsAlike.functionList_eq {first second : Api} (h : first.IsAlike second) :
    first.functionList = second.functionList := by
  refine functionList_eq_functionList (fun name => ?_) fun name => ?_
  · rw [mem_functionNames_iff, mem_functionNames_iff, h.functions]
  · rw [isEnabled, isEnabled, h.functions, h.disabled]

end Api

end RemoteCall
