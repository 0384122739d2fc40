import RemoteCall.CallResult.Writer
import RemoteCall.Proofs.Api.Invocation

/-!
# Markup in the answers of functions

A parameter that is declared as markup is written as it is, so its value must be markup. The
output of a success is checked, and the errors that stop a call early have no parameters. What
is left are the errors that an implementation returns, which are not checked, and the message
of one that breaks off.
-/

namespace RemoteCall

namespace FunctionSpec

/-- Output that keeps to a declaration has an acceptable value in every parameter that is set. -/
theorem accepts_of_checkOutput {spec : FunctionSpec} {parameters : Parameters}
    (h : spec.checkOutput parameters = none) {name value : String} {type : ParamType}
    (htype : spec.outputType name = some type) (hget : parameters.get? name = some value)
    (hvalue : value ≠ "") : type.accepts value = true := by
  obtain ⟨declaration, hfind, rfl⟩ := Option.map_eq_some_iff.mp htype
  obtain rfl : declaration.name = name := by simpa using List.find?_some hfind
  have hnone : spec.outputViolations parameters = [] := by
    simp only [checkOutput, Violation.report] at h
    split at h
    · next hempty => exact List.isEmpty_iff.mp hempty
    · cases h
  have hset : parameters.setValue? declaration.name = some value := by
    rw [Dictionary.setValue?, hget]
    exact Option.filter_some_pos (by simpa using hvalue)
  have hkept : declaration.violation? parameters = none :=
    List.filterMap_eq_nil_iff.mp hnone declaration (List.mem_of_find?_eq_some hfind)
  simp only [ParamSpec.violation?, hset] at hkept
  split at hkept
  · assumption
  · cases hkept

end FunctionSpec

namespace Api

/-- What a function that is switched on answers: the report on its input, the message with which
its implementation breaks off, an error that it returns, a success with valid output, or the
report on the output. -/
theorem run_cases (function : ApiFunction) (request : FunctionRequest) :
    (∃ report, run function request = (CallResult.error invalidRequestCode).withData report) ∨
      (∃ message, function.run request = .brokeOff message ∧
        run function request = internalError message) ∨
      (function.run request = .result (run function request) ∧
        (run function request).isSuccess = false) ∨
      function.spec.checkOutput (run function request).parameters = none ∨
      ∃ report, run function request = (CallResult.error invalidResponseCode).withData report := by
  cases hinput : function.spec.checkInput request.parameters with
  | some report => exact Or.inl ⟨report, run_of_report hinput⟩
  | none =>
    rw [run_of_accepted hinput]
    cases hreply : function.run request with
    | brokeOff message => exact Or.inr (Or.inl ⟨message, rfl, rfl⟩)
    | result result =>
      right
      right
      cases hsuccess : result.isSuccess with
      | false => exact Or.inl (by simp [checked, hsuccess])
      | true =>
        cases houtput : function.spec.checkOutput result.parameters with
        | none => exact Or.inr (Or.inl (by simp [checked, hsuccess, houtput]))
        | some report =>
          exact Or.inr (Or.inr ⟨report, by simp [checked, hsuccess, houtput]⟩)

/-- The only parameter of a function that breaks off is its message. -/
theorem eq_exceptionParameter_of_internalError {message : Option String} {param value : String}
    (h : (internalError message).parameter? param = some value) : param = exceptionParameter := by
  refine Decidable.byContradiction fun hne => ?_
  have hnone : (CallResult.error internalErrorCode).parameters.get? param = none := rfl
  simp only [CallResult.parameter?, internalError, CallResult.setParameter] at h
  split at h
  · rw [Dictionary.get?_erase, if_neg (Ne.symm hne), hnone] at h
    cases h
  · rw [Dictionary.get?_insert, if_neg (Ne.symm hne), hnone] at h
    cases h

/-- An interface with one function, which may answer with a page and declares its message as
markup too. -/
def pages (reply : Reply) : Api :=
  (ofName "test").after [.register
    ⟨⟨"Find", [], [⟨"page", .xml, false⟩, ⟨exceptionParameter, .xml, false⟩], [], ["NotFound"]⟩,
      fun _ => reply⟩]

/-- **What is written as it is, is markup**, in every answer of a registered function, whatever
the implementation. Not checked are an error that the implementation returns, which is passed on
as it is, and the message with which it breaks off. -/
theorem accepts_of_isRaw (name : String) (steps : List Change) {request : FunctionRequest}
    {function : ApiFunction} {result : CallResult} {param value : String}
    (hget : ((ofName name).after steps).functions.get? request.function = some function)
    (hresult : ((ofName name).after steps).invoke request = .ok result)
    (hraw : CallResult.isRaw (((ofName name).after steps).spec? request.function) param = true)
    (hvalue : result.parameter? param = some value) (hset : value ≠ "") :
    ParamType.xml.accepts value = true ∨
      (function.run request = .result result ∧ result.isSuccess = false) ∨
      (param = exceptionParameter ∧ ∃ message,
        function.run request = .brokeOff message ∧
          result = internalError message) := by
  have hsound := (isSound_ofName name).after steps
  obtain ⟨-, -, hmeta⟩ := hsound.declared request.function function hget
  have htype : function.spec.outputType param = some .xml := by
    simpa [CallResult.isRaw, spec?, hget] using hraw
  rw [invoke_of_get? hmeta hget, Except.ok.injEq] at hresult
  split at hresult
  · rw [← hresult] at hvalue
    cases hvalue
  · subst hresult
    rcases run_cases function request with ⟨report, hreport⟩ |
      ⟨message, hbroke, hinternal⟩ | hfailed | houtput | ⟨report, hreport⟩
    · rw [hreport] at hvalue
      cases hvalue
    · rw [hinternal] at hvalue
      exact Or.inr (Or.inr
        ⟨eq_exceptionParameter_of_internalError hvalue, message, hbroke, hinternal⟩)
    · exact Or.inr (Or.inl hfailed)
    · exact Or.inl (FunctionSpec.accepts_of_checkOutput houtput htype hvalue hset)
    · rw [hreport] at hvalue
      cases hvalue

/-- A page of a success. -/
theorem accepts_of_isRaw_page :
    (pages (.result (CallResult.success.setParameter "page" "<b>1</b>"))).invoke
        ⟨"Find", Dictionary.empty, none⟩ =
      .ok (CallResult.success.setParameter "page" "<b>1</b>") ∧
      ParamType.xml.accepts "<b>1</b>" = true := by
  have hresult : (pages (.result (CallResult.success.setParameter "page" "<b>1</b>"))).invoke
      ⟨"Find", Dictionary.empty, none⟩ =
        .ok (CallResult.success.setParameter "page" "<b>1</b>") := by
    have houtput : (FunctionSpec.checkOutput
        ⟨"Find", [], [⟨"page", .xml, false⟩, ⟨exceptionParameter, .xml, false⟩], [], ["NotFound"]⟩
        (CallResult.success.setParameter "page" "<b>1</b>").parameters).isNone = true := by
      decide +kernel
    rw [Option.isNone_iff_eq_none] at houtput
    rw [pages, invoke_of_get? rfl rfl, if_neg (by decide), run_of_accepted rfl]
    simp only [checked, houtput]
    rfl
  have hvalue : (CallResult.success.setParameter "page" "<b>1</b>").parameter? "page" =
      some "<b>1</b>" := rfl
  refine ⟨hresult, ?_⟩
  rcases accepts_of_isRaw "test" _ rfl hresult (by decide) hvalue (by decide) with
    haccepts | ⟨-, hfailed⟩ | ⟨hparam, -⟩
  · exact haccepts
  · cases hfailed
  · exact absurd hparam (by decide)

/-- An error that the implementation returns, or the message with which it breaks off, is written
as it is although it is no markup. -/
theorem exists_isRaw_not_accepts :
    (∃ result, (pages (.result ((CallResult.error "NotFound").setParameter "page" "<b>"))).invoke
        ⟨"Find", Dictionary.empty, none⟩ = .ok result ∧
      CallResult.isRaw ((pages (.result ((CallResult.error "NotFound").setParameter "page"
        "<b>"))).spec? "Find") "page" = true ∧
      result.parameter? "page" = some "<b>") ∧
    (∃ result, (pages (.brokeOff (some "<b>"))).invoke
        ⟨"Find", Dictionary.empty, none⟩ = .ok result ∧
      CallResult.isRaw ((pages (.brokeOff (some "<b>"))).spec? "Find") exceptionParameter = true ∧
      result.parameter? exceptionParameter = some "<b>") ∧
    ParamType.xml.accepts "<b>" = false := by
  refine ⟨⟨_, rfl, by decide, rfl⟩, ⟨_, rfl, by decide, rfl⟩, by decide +kernel⟩

end Api

end RemoteCall
