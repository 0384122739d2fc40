import RemoteCall.Proofs.Api.Switches
import RemoteCall.Proofs.Convention.Parameters

/-!
# What the history of an API tells

An API begins without functions. Which functions it has later on, which of them are on, what the
list of functions shows and which calls are turned away at the switch are all told by the changes
that have been tried on the way, the refused ones included.
-/

namespace RemoteCall.Api

variable {api : Api} {name : String}

/-! ## Calls that do not get past the switch -/

/-- The API with another implementation behind one of its functions. -/
def withImplementation (api : Api) (name : String) (run : FunctionRequest → Reply) : Api :=
  match api.functions.get? name with
  | none => api
  | some function => { api with functions := api.functions.insert name ⟨function.spec, run⟩ }

/-- Another implementation comes under the declaration that is there. -/
theorem get?_withImplementation {function : ApiFunction}
    (hget : api.functions.get? name = some function) (run : FunctionRequest → Reply) :
    (api.withImplementation name run).functions.get? name = some ⟨function.spec, run⟩ := by
  simp [withImplementation, hget]

/-- Another implementation does not move a switch. -/
theorem disabled_withImplementation (api : Api) (name : String)
    (run : FunctionRequest → Reply) :
    (api.withImplementation name run).disabled = api.disabled := by
  unfold withImplementation
  split <;> rfl

/-- A function that breaks off answers with an error code, which is not the one of the switch. -/
theorem run_ne_disabled {function : ApiFunction} {request : FunctionRequest}
    (hbroken : function.run request = .brokeOff none) :
    run function request ≠ CallResult.error disabledFunctionCode := by
  intro h
  have hcode := congrArg CallResult.code h
  cases hinput : function.spec.checkInput request.parameters with
  | some report =>
    rw [run_of_report hinput] at hcode
    have hsame : some invalidRequestCode = some disabledFunctionCode := hcode
    exact absurd hsame (by decide)
  | none =>
    rw [run_of_accepted hinput, hbroken] at hcode
    have hsame : some internalErrorCode = some disabledFunctionCode := hcode
    exact absurd hsame (by decide)

/-- A meta function answers without a code, so never with an error that has one. -/
theorem invokeMeta_ne_error (api : Api) (name code : String) (hcode : code ≠ "") :
    api.invokeMeta name ≠ CallResult.error code := by
  intro h
  have hsome : (api.invokeMeta name).code = some code := by
    rw [h, CallResult.error, CallResult.make, Element.nonEmpty_eq_self (by simpa using hcode)]
  have hnone : (api.invokeMeta name).code = none := by
    unfold invokeMeta
    split
    · rfl
    · split <;> rfl
  rw [hnone] at hsome
  cases hsome

/-- A function is off if its calls are turned away whatever is behind it. An implementation may
answer as the switch does, so it takes more than one to tell. -/
theorem IsSound.contains_disabled_iff_forall_run (hsound : api.IsSound) (parameters : Parameters)
    (data : Option Element) :
    api.disabled.contains name = true ↔ ∀ run,
      (api.withImplementation name run).invoke ⟨name, parameters, data⟩ =
        .ok (CallResult.error disabledFunctionCode) := by
  cases hget : api.functions.get? name with
  | none =>
    have hsame (run : FunctionRequest → Reply) : api.withImplementation name run = api := by
      simp [withImplementation, hget]
    have hanswer : api.invoke ⟨name, parameters, data⟩ ≠
        .ok (CallResult.error disabledFunctionCode) := by
      intro h
      cases hmeta : isMetaFunction name with
      | true =>
        simp only [invoke, hmeta, if_true, Except.ok.injEq] at h
        exact invokeMeta_ne_error api name _ (by decide) h
      | false =>
        rw [invoke_eq_error_iff.mpr ⟨hmeta, hget, rfl⟩] at h
        cases h
    constructor
    · intro hoff
      -- only functions are off
      have hthere := hsound.disabled name hoff
      rw [Dictionary.contains_eq_false_iff.mpr hget] at hthere
      cases hthere
    · intro h
      have hturned := h fun _ => .brokeOff none
      rw [hsame] at hturned
      exact absurd hturned hanswer
  | some function =>
    obtain ⟨-, -, hmeta⟩ := hsound.declared name function hget
    have hanswer (run : FunctionRequest → Reply) :
        (api.withImplementation name run).invoke ⟨name, parameters, data⟩ =
          .ok (if api.disabled.contains name then CallResult.error disabledFunctionCode
            else Api.run ⟨function.spec, run⟩ ⟨name, parameters, data⟩) := by
      rw [invoke_of_get? hmeta (get?_withImplementation hget run), disabled_withImplementation]
    constructor
    · intro hoff run
      rw [hanswer, if_pos hoff]
    · intro h
      have hturned := h fun _ => .brokeOff none
      rw [hanswer] at hturned
      refine Decidable.byContradiction fun hon => ?_
      rw [if_neg hon] at hturned
      exact run_ne_disabled rfl (Except.ok.inj hturned)

/-- The list of functions shows a function as off if its name is among those that are off. -/
theorem mem_children_functionList_iff (hsound : api.IsSound) :
    Element.mk "function" none [⟨none, "name", name⟩, ⟨none, "enabled", "false"⟩] [] none ∈
      api.functionList.children ↔ api.disabled.contains name = true := by
  rw [functionList_eq_switches, hsound.contains_disabled_iff, ← mem_switches_iff,
    Element.children, List.mem_map]
  constructor
  · rintro ⟨⟨other, enabled⟩, hmem, heq⟩
    cases enabled with
    | true => simp [listEntry_eq] at heq
    | false =>
      obtain rfl : other = name := by simpa [listEntry_eq] using heq
      exact hmem
  · intro hmem
    exact ⟨_, hmem, rfl⟩

/-! ## The registry -/

/-- What holds of an API that has come about by changes, refused or not, from one without
functions. -/
structure IsRegistry (start : Api) (steps : List Change) (api : Api) : Prop where
  /-- Functions have acceptable names, and none has that of a meta function. -/
  names : ∀ function ∈ api.functionNames,
    checkFunctionName function = .ok () ∧ isMetaFunction function = false
  unique : api.functionNames.Nodup
  /-- What is off is a function, and is not shown as on. -/
  disabled : ∀ function, api.disabled.contains function = true ↔
    function ∈ api.functionNames ∧ api.isEnabled function = false
  /-- A further change that is refused leaves everything as it is. -/
  refused : ∀ step e, (api.change step).1 = .error e → (api.change step).2 = api
  /-- The functions are those that were added under an ordinary name. -/
  registered : ∀ function, function ∈ api.functionNames ↔
    ∃ added, Change.register added ∈ steps ∧ added.spec.name = function ∧ isName function = true
  /-- A function is on unless the last setting of its switch that was accepted was off. -/
  enabled : ∀ function, api.isEnabled function = true ↔
    function ∈ api.functionNames ∧ lastSetting? function start steps ≠ some false
  /-- The list shows every function once, with its switch. -/
  listed : ∀ parameters data, api.invoke ⟨"_GetFunctionList", parameters, data⟩ =
    .ok ⟨none, Dictionary.empty, some (.mk "data" none [] (api.functionNames.map fun function =>
      .mk "function" none [⟨none, "name", function⟩,
        ⟨none, "enabled", if api.isEnabled function then "true" else "false"⟩] [] none) none)⟩
  /-- The names are listed in the order of their bytes. -/
  ordered : api.functionNames.Pairwise fun first second =>
    Http.bytesOf first.toUTF8 < Http.bytesOf second.toUTF8
  /-- Any other history that leads to the same functions and switches leads to the same list. -/
  determined : ∀ steps',
    (∀ function, function ∈ (start.after steps').functionNames ↔ function ∈ api.functionNames) →
      (∀ function, (start.after steps').isEnabled function = api.isEnabled function) →
        (start.after steps').functionList = api.functionList
  /-- The functions that are listed as off are those whose calls are turned away whatever is
  behind them. -/
  stopped : ∀ function parameters data,
    Element.mk "function" none [⟨none, "name", function⟩, ⟨none, "enabled", "false"⟩] [] none ∈
      api.functionList.children ↔
    ∀ run, (api.withImplementation function run).invoke ⟨function, parameters, data⟩ =
      .ok (CallResult.error "_DisabledFunction")

/-- **The registry is told by its history**, whatever changes have been tried, and the list of
functions does not tell the order in which they have been added. -/
theorem isRegistry_after (name : String) (steps : List Change) :
    IsRegistry (ofName name) steps ((ofName name).after steps) ∧
      ∀ functions functions' : List ApiFunction, functions.Perm functions' → ∀ later,
        ((ofName name).after (functions.map .register ++ later)).functionList =
          ((ofName name).after (functions'.map .register ++ later)).functionList := by
  have hsound := (isSound_ofName name).after steps
  have hempty (function : String) : function ∉ (ofName name).functionNames := List.not_mem_nil
  have hon (function : String) : (ofName name).disabled.contains function = false := rfl
  have hregistered (function : String) :
      function ∈ ((ofName name).after steps).functionNames ↔ ∃ added,
        Change.register added ∈ steps ∧ added.spec.name = function ∧ isName function = true := by
    rw [mem_functionNames_after_iff, or_iff_right (hempty function)]
  refine ⟨⟨?_, ?_, ?_, fun _ _ => eq_of_change_eq_error, hregistered,
    fun function => isEnabled_after_iff _ steps (hon function), ?_, ?_, ?_, ?_⟩, ?_⟩
  · intro function hmem
    obtain ⟨-, -, -, hordinary⟩ := (hregistered function).mp hmem
    exact isName_iff_checkFunctionName.mp hordinary
  · rw [List.Nodup, functionNames, Dictionary.names, List.pairwise_map]
    exact ((ofName name).after steps).functions.pairwise_entries
  · intro function
    exact hsound.contains_disabled_iff
  · intro parameters data
    have hlist : ((ofName name).after steps).invoke ⟨"_GetFunctionList", parameters, data⟩ =
        .ok (CallResult.success.withData ((ofName name).after steps).functionList) := rfl
    rw [hlist, functionList_eq_switches, switches, List.map_map]
    rfl
  · exact ((ofName name).after steps).sorted_functionNames.imp Text.Utf8.bytesOf_lt_bytesOf
  · intro steps' hnames henabled
    exact functionList_eq_functionList hnames henabled
  · intro function parameters data
    rw [mem_children_functionList_iff hsound]
    exact hsound.contains_disabled_iff_forall_run parameters data
  · intro functions functions' hperm later
    exact (isAlike_after_perm hperm _ later).functionList_eq

end RemoteCall.Api
