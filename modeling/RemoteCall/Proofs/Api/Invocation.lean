import RemoteCall.Proofs.Api.Registry

/-!
# Calls of functions

A call passes the switch of the function and the check of its input before the
implementation runs, and a success passes the check of its output before it is the answer.
What stops before the implementation does not depend on it.
-/

namespace RemoteCall.Api

variable {api : Api} {request : FunctionRequest} {function : ApiFunction}

/-- The answer of a registered function comes from its switch, its declaration and its
implementation, and from nothing else in the API. -/
theorem invoke_of_get? (hmeta : isMetaFunction request.function = false)
    (hget : api.functions.get? request.function = some function) :
    api.invoke request = .ok (if api.disabled.contains request.function
      then CallResult.error disabledFunctionCode else run function request) := by
  simp only [invoke, hmeta, hget]
  cases api.disabled.contains request.function <;> rfl

/-- Only an unknown name is an error. -/
theorem invoke_eq_error_iff {error : ApiError} :
    api.invoke request = .error error ↔ isMetaFunction request.function = false ∧
      api.functions.get? request.function = none ∧ error = .noSuchFunction request.function := by
  cases hmeta : isMetaFunction request.function with
  | true => simp [invoke, hmeta]
  | false =>
    cases hget : api.functions.get? request.function with
    | none => simp [invoke, hmeta, hget, eq_comm]
    | some function => simp [invoke_of_get? hmeta hget]

/-- Rejected parameters are answered with the report, whatever the implementation would have done
with them. -/
theorem run_of_report {report : Element}
    (h : function.spec.checkInput request.parameters = some report) :
    run function request = (CallResult.error invalidRequestCode).withData report := by
  simp only [run, h]

/-- On accepted parameters the implementation decides: what it panics with becomes the internal
error, and what it returns goes through the check of results. -/
theorem run_of_accepted (h : function.spec.checkInput request.parameters = none) :
    run function request = match function.run request with
      | .brokeOff message => internalError message
      | .result result => checked function.spec result := by
  simp only [run]
  split
  · next report hreport =>
    rw [h] at hreport
    cases hreport
  · rfl

/-- The internal error has its own code, with a message or without one. -/
theorem code_internalError (message : Option String) :
    (internalError message).code = some internalErrorCode := by
  rfl

/-- A success that is let through is the success that came in, and its output is valid. -/
theorem eq_of_isSuccess_checked {spec : FunctionSpec} {result : CallResult}
    (h : (checked spec result).isSuccess = true) :
    checked spec result = result ∧ spec.checkOutput result.parameters = none := by
  unfold checked at h ⊢
  split at h
  · next hsuccess =>
    split at h
    · next houtput => simp [hsuccess, houtput]
    · cases h
  · next hfailure => exact absurd h hfailure

/-- A success is the result of the implementation, and its output is valid. -/
theorem run_eq_result_of_isSuccess (h : (run function request).isSuccess = true) :
    function.run request = .result (run function request) ∧
      function.spec.checkOutput (run function request).parameters = none := by
  cases hinput : function.spec.checkInput request.parameters with
  | some report =>
    rw [run_of_report hinput] at h
    cases h
  | none =>
    rw [run_of_accepted hinput] at h ⊢
    cases hreply : function.run request with
    | brokeOff message =>
      rw [hreply] at h
      cases h
    | result result =>
      rw [hreply] at h
      obtain ⟨heq, houtput⟩ := eq_of_isSuccess_checked h
      simp only [heq, houtput, and_self]

/-- The answer does not come from the implementation: the function is switched off, or its
input breaks the declaration. -/
def IsStopped (api : Api) (function : ApiFunction) (request : FunctionRequest) : Prop :=
  api.disabled.contains request.function = true ∨
    (function.spec.checkInput request.parameters).isSome = true

/-- Two APIs that have a function of one declaration under the name of the call, and do not differ
in whether it is off, stop the call with the same answer. -/
theorem invoke_eq_invoke_of_isStopped {other : Api} {function' : ApiFunction}
    (hmeta : isMetaFunction request.function = false)
    (hget : api.functions.get? request.function = some function)
    (hget' : other.functions.get? request.function = some function')
    (hspec : function'.spec = function.spec)
    (hdisabled : other.disabled.contains request.function =
      api.disabled.contains request.function)
    (hstopped : IsStopped api function request) :
    other.invoke request = api.invoke request := by
  rw [invoke_of_get? hmeta hget, invoke_of_get? hmeta hget', hdisabled]
  rcases hstopped with hoff | hbroken
  · simp [hoff]
  · obtain ⟨report, hreport⟩ := Option.isSome_iff_exists.mp hbroken
    have hreport' := hreport
    rw [← hspec] at hreport'
    rw [run_of_report hreport, run_of_report hreport']

/-- What the call of a registered function comes to. -/
structure IsGuarded (api : Api) (function : ApiFunction) (request : FunctionRequest) :
    Prop where
  /-- There is an answer, whatever the implementation does. -/
  answered : ∃ result, api.invoke request = .ok result
  /-- The switch comes first. -/
  disabled : api.disabled.contains request.function = true →
    api.invoke request = .ok (CallResult.error disabledFunctionCode)
  /-- Input that breaks the declaration is reported, with all that it breaks. -/
  broken : api.disabled.contains request.function = false → ∀ report,
    function.spec.checkInput request.parameters = some report →
      api.invoke request = .ok ((CallResult.error invalidRequestCode).withData report)
  /-- Until then the implementation cannot be told from any other. -/
  unobserved : IsStopped api function request →
    ∀ (other : Api) (function' : ApiFunction),
      other.functions.get? request.function = some function' →
        function'.spec = function.spec →
        other.disabled.contains request.function = api.disabled.contains request.function →
          other.invoke request = api.invoke request
  /-- An implementation that breaks off makes an internal error. -/
  brokeOff : ¬ IsStopped api function request → ∀ message,
    function.run request = .brokeOff message →
      api.invoke request = .ok (internalError message) ∧
        (internalError message).code = some internalErrorCode
  /-- A success is what the implementation returned, and its output is valid. -/
  success : ∀ result, api.invoke request = .ok result → result.isSuccess = true →
    function.run request = .result result ∧
      function.spec.checkOutput result.parameters = none

/-- The call of a function that is there is guarded, whatever else the API holds and whatever is
off in it. -/
theorem isGuarded_of_get? (hmeta : isMetaFunction request.function = false)
    (hget : api.functions.get? request.function = some function) :
    IsGuarded api function request where
  answered := ⟨_, invoke_of_get? hmeta hget⟩
  disabled := by
    intro hoff
    rw [invoke_of_get? hmeta hget, hoff]
    rfl
  broken := by
    intro hon report hreport
    rw [invoke_of_get? hmeta hget, hon, run_of_report hreport]
    rfl
  unobserved := fun hstopped other function' hget' hspec hdisabled =>
    invoke_eq_invoke_of_isStopped hmeta hget hget' hspec hdisabled hstopped
  brokeOff := by
    intro hrun message hreply
    obtain ⟨hon, haccepted⟩ := not_or.mp hrun
    rw [Bool.not_eq_true, Option.isSome_eq_false_iff, Option.isNone_iff_eq_none] at haccepted
    rw [invoke_of_get? hmeta hget, if_neg hon, run_of_accepted haccepted, hreply]
    exact ⟨rfl, code_internalError message⟩
  success := by
    intro result hresult hsuccess
    rw [invoke_of_get? hmeta hget] at hresult
    split at hresult
    · cases hresult
      cases hsuccess
    · cases hresult
      exact run_eq_result_of_isSuccess hsuccess

/-- **Calls are guarded on both sides**, after whatever changes of the API. Exactly the calls
of names that are neither registered nor meta functions are errors. -/
theorem invoke_guarded (name : String) (steps : List Change) (request : FunctionRequest) :
    (∀ error, ((ofName name).after steps).invoke request = .error error ↔
      isMetaFunction request.function = false ∧
        ((ofName name).after steps).functions.get? request.function = none ∧
        error = .noSuchFunction request.function) ∧
      ∀ function,
        ((ofName name).after steps).functions.get? request.function = some function →
          IsGuarded ((ofName name).after steps) function request := by
  refine ⟨fun error => invoke_eq_error_iff, fun function hget => ?_⟩
  have hsound := (isSound_ofName name).after steps
  obtain ⟨-, -, hmeta⟩ := hsound.declared request.function function hget
  exact isGuarded_of_get? hmeta hget

/-- A function that breaks off, in an API that has a second function switched off. -/
theorem invoke_guarded_shop :
    ((ofName "shop").after
      [.register ⟨⟨"Order", [⟨"n", .int32, true⟩], [], [], []⟩, fun _ => .brokeOff none⟩,
        .register ⟨⟨"Cancel", [], [], [], []⟩, fun _ => .result CallResult.success⟩,
        .setEnabled "Cancel" false]).invoke
          ⟨"Order", Dictionary.empty.insert "n" "1", none⟩ = .ok (internalError none) := by
  obtain ⟨-, hguarded⟩ := invoke_guarded "shop"
    [.register ⟨⟨"Order", [⟨"n", .int32, true⟩], [], [], []⟩, fun _ => .brokeOff none⟩,
      .register ⟨⟨"Cancel", [], [], [], []⟩, fun _ => .result CallResult.success⟩,
      .setEnabled "Cancel" false] ⟨"Order", Dictionary.empty.insert "n" "1", none⟩
  refine ((hguarded _ rfl).brokeOff ?_ none rfl).1
  rintro (hoff | hbroken)
  · revert hoff
    decide
  · revert hbroken
    decide

end RemoteCall.Api
