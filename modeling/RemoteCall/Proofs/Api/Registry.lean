import RemoteCall.Api

/-!
# The registry of an API

An API changes by adding functions and by switching them on and off. A change that is
refused leaves the API as it was. The functions and the names that are switched off are kept
apart, and adding a function does not look at what is off. Still, whatever the changes, every
function is listed under the name that it declares, which is a name that may be called and no
meta function, and only names of functions are off.
-/

namespace RemoteCall.Api

/-- A change of an API. -/
inductive Change where
  | register (function : ApiFunction)
  | setEnabled (name : String) (enabled : Bool)

/-- Tries a change. Gives the outcome, and the API as it is afterwards. -/
def change (api : Api) : Change → Except ApiError Unit × Api
  | .register function => api.register function
  | .setEnabled name enabled => api.setEnabled name enabled

/-- The API after a change has been tried. -/
def make (api : Api) (step : Change) : Api :=
  (api.change step).2

/-- The API after changes, one by one. -/
def after (api : Api) (steps : List Change) : Api :=
  steps.foldl make api

/-- What holds of the functions and of the names that are off. -/
structure IsSound (api : Api) : Prop where
  /-- A function is listed under the name that it declares, and that name is one to call it by. -/
  declared : ∀ name function, api.functions.get? name = some function →
    function.spec.name = name ∧ checkFunctionName name = .ok () ∧ isMetaFunction name = false
  /-- What is off is a function. -/
  disabled : ∀ name, api.disabled.contains name = true → api.functions.contains name = true

/-- What adding a function comes to: it is refused for its name, or as one of that name is there
already, and the API stays as it was; or it is there afterwards. -/
theorem register_cases (api : Api) (function : ApiFunction) :
    (∃ e, checkFunctionName function.spec.name = .error e ∧
        api.register function = (.error (.invalidName e), api)) ∨
      (checkFunctionName function.spec.name = .ok () ∧
        (isMetaFunction function.spec.name = true ∨
          api.functions.contains function.spec.name = true) ∧
        api.register function = (.error (.duplicateFunction function.spec.name), api)) ∨
      (checkFunctionName function.spec.name = .ok () ∧
        isMetaFunction function.spec.name = false ∧
        api.functions.get? function.spec.name = none ∧
        api.register function = (.ok (), { api with
          functions := api.functions.insert function.spec.name function })) := by
  cases hname : checkFunctionName function.spec.name with
  | error e =>
    left
    exact ⟨e, rfl, by simp only [register, hname]⟩
  | ok _ =>
    right
    by_cases htaken : (isMetaFunction function.spec.name ||
        api.functions.contains function.spec.name) = true
    · left
      exact ⟨rfl, by simpa using htaken, by simp only [register, hname, if_pos htaken]⟩
    · right
      have hfree := htaken
      simp only [Bool.or_eq_true, not_or, Bool.not_eq_true] at hfree
      exact ⟨rfl, hfree.1, Dictionary.contains_eq_false_iff.mp hfree.2,
        by simp only [register, hname, if_neg htaken]⟩

/-- What switching a function comes to: without the function the API stays as it was, and with it
its name is put to those that are off, or is taken from them. -/
theorem setEnabled_cases (api : Api) (name : String) (enabled : Bool) :
    (api.functions.contains name = false ∧
        api.setEnabled name enabled = (.error (.noSuchFunction name), api)) ∨
      (api.functions.contains name = true ∧
        api.setEnabled name enabled = (.ok (), { api with
          disabled := if enabled then api.disabled.erase name
            else api.disabled.insert name () })) := by
  cases hthere : api.functions.contains name with
  | false =>
    left
    exact ⟨rfl, by simp [setEnabled, hthere]⟩
  | true =>
    right
    exact ⟨rfl, by simp only [setEnabled, hthere, if_true]⟩

/-- All that a change can do: it is refused and leaves the API, or it adds a function, or it moves
the switch of one. -/
theorem change_cases (api : Api) (step : Change) :
    (∃ e, api.change step = (.error e, api)) ∨
      (∃ function : ApiFunction, checkFunctionName function.spec.name = .ok () ∧
        isMetaFunction function.spec.name = false ∧
        api.change step = (.ok (), { api with
          functions := api.functions.insert function.spec.name function })) ∨
      ∃ name, ∃ enabled : Bool, api.functions.contains name = true ∧
        api.change step = (.ok (), { api with
          disabled := if enabled then api.disabled.erase name
            else api.disabled.insert name () }) := by
  cases step with
  | register function =>
    rcases register_cases api function with ⟨e, -, hregister⟩ | ⟨-, -, hregister⟩ |
      ⟨hname, hmeta, -, hregister⟩
    · exact Or.inl ⟨_, hregister⟩
    · exact Or.inl ⟨_, hregister⟩
    · exact Or.inr (Or.inl ⟨function, hname, hmeta, hregister⟩)
  | setEnabled name enabled =>
    rcases setEnabled_cases api name enabled with ⟨-, hset⟩ | ⟨hthere, hset⟩
    · exact Or.inl ⟨_, hset⟩
    · exact Or.inr (Or.inr ⟨name, enabled, hthere, hset⟩)

/-- A change that is refused leaves the API as it was. -/
theorem eq_of_change_eq_error {api : Api} {step : Change} {e : ApiError}
    (h : (api.change step).1 = .error e) : (api.change step).2 = api := by
  rcases api.change_cases step with ⟨cause, hchange⟩ | ⟨function, -, -, hchange⟩ |
    ⟨name, enabled, -, hchange⟩
  · rw [hchange]
  all_goals
    rw [hchange] at h
    cases h

/-- An API with one function more has it under its own name, which nothing had been under. -/
theorem withFunction_eq_ok_iff {api next : Api} {function : ApiFunction} :
    api.withFunction function = .ok next ↔
      checkFunctionName function.spec.name = .ok () ∧ isMetaFunction function.spec.name = false ∧
        api.functions.get? function.spec.name = none ∧
        next = { api with
          functions := api.functions.insert function.spec.name function } := by
  rcases register_cases api function with ⟨e, hname, hregister⟩ | ⟨-, htaken, hregister⟩ |
    ⟨hname, hmeta, hfree, hregister⟩
  · simp [withFunction, hregister, hname]
  · have hnot : ¬ (isMetaFunction function.spec.name = false ∧
        api.functions.get? function.spec.name = none) := by
      rintro ⟨hmeta, hfree⟩
      simp [hmeta, hfree, Dictionary.contains] at htaken
    constructor
    · intro h
      rw [withFunction, hregister] at h
      cases h
    · rintro ⟨-, hmeta, hfree, -⟩
      exact absurd ⟨hmeta, hfree⟩ hnot
  · simp [withFunction, hregister, hname, hmeta, hfree, eq_comm]

/-- An API without functions is sound, as nothing is off in it. -/
theorem isSound_ofName (name : String) : (ofName name).IsSound where
  declared := by
    intro function registered h
    cases h
  disabled := by
    intro function h
    cases h

/-- A change keeps the registry sound, whether or not it is refused. -/
theorem IsSound.make {api : Api} (h : api.IsSound) (step : Change) : (api.make step).IsSound := by
  rw [Api.make]
  rcases api.change_cases step with ⟨e, hchange⟩ | ⟨function, hname, hmeta, hchange⟩ |
    ⟨name, enabled, hthere, hchange⟩
  · rw [hchange]
    exact h
  · rw [hchange]
    refine ⟨fun other registered hget => ?_, fun other hoff => ?_⟩
    · rw [Dictionary.get?_insert] at hget
      split at hget
      · next heq =>
        cases hget
        exact ⟨heq, heq ▸ hname, heq ▸ hmeta⟩
      · exact h.declared other registered hget
    · simp [h.disabled other hoff]
  · rw [hchange]
    refine ⟨h.declared, fun other hoff => ?_⟩
    cases enabled with
    | true =>
      simp only [if_true, Dictionary.contains_erase, Bool.and_eq_true] at hoff
      exact h.disabled other hoff.2
    | false =>
      -- the one name that can be new is that of a function
      simp only [Bool.false_eq_true, if_false, Dictionary.contains_insert, Bool.or_eq_true,
        decide_eq_true_eq] at hoff
      rcases hoff with rfl | hoff
      · exact hthere
      · exact h.disabled other hoff

/-- Whatever changes have been tried, the registry is sound. -/
theorem IsSound.after {api : Api} (h : api.IsSound) (steps : List Change) :
    (api.after steps).IsSound := by
  induction steps generalizing api with
  | nil => exact h
  | cons step steps ih => exact ih (h.make step)

end RemoteCall.Api
