import RemoteCall.Demo
import RemoteCall.Proofs.Api.Invocation

/-!
# The functions of the demonstration

The demonstration can be set up under any name, and its functions are switched on. So a call of
one of them is a run of it. What a run comes to depends on the request only as far as the
check of the input and the implementation do.
-/

namespace RemoteCall

namespace Api

variable {function : ApiFunction} {request other : FunctionRequest}

/-- Requests that the check and the implementation do not tell apart have one answer. -/
theorem run_congr
    (hinput : function.spec.checkInput other.parameters =
      function.spec.checkInput request.parameters)
    (hrun : function.spec.checkInput request.parameters = none →
      function.run other = function.run request) : run function other = run function request := by
  cases hcheck : function.spec.checkInput request.parameters with
  | some report =>
    rw [hcheck] at hinput
    rw [run_of_report hcheck, run_of_report hinput]
  | none =>
    rw [hcheck] at hinput
    rw [run_of_accepted hcheck, run_of_accepted hinput, hrun hcheck]

/-- A result with valid output is let through. -/
theorem checked_of_accepted {spec : FunctionSpec} {result : CallResult}
    (h : spec.checkOutput result.parameters = none) : checked spec result = result := by
  simp [checked, h]

end Api

namespace Demo

/-- The functions by name. -/
def functions : Dictionary ApiFunction :=
  ((Dictionary.empty.insert "Echo" echo).insert "Add" add).insert "Greet" greet

/-- The demonstration under a name, with nothing switched off. -/
def named (name : String) : Api := ⟨name, functions, Dictionary.empty⟩

/-- Building the demo API never fails: its functions have names of their own. -/
theorem api_eq_ok (name : String) : api name = .ok (named name) := rfl

/-- A call of a function of the demonstration is a run of it. -/
theorem invoke_named {name : String} {request : FunctionRequest} {function : ApiFunction}
    (hmeta : isMetaFunction request.function = false)
    (hget : functions.get? request.function = some function) :
    (named name).invoke request = .ok (Api.run function request) := by
  have hregistered : (named name).functions.get? request.function = some function := hget
  have hon : (named name).disabled.contains request.function = false := rfl
  rw [Api.invoke_of_get? hmeta hregistered, hon]
  rfl

/-- The functions are three. -/
theorem get?_functions_eq_some {name : String} {function : ApiFunction}
    (h : functions.get? name = some function) :
    (name = "Echo" ∧ function = echo) ∨ (name = "Add" ∧ function = add) ∨
      (name = "Greet" ∧ function = greet) := by
  simp only [functions, Dictionary.get?_insert, Dictionary.get?_empty] at h
  split at h
  · next hname => exact Or.inr (Or.inr ⟨hname.symm, (Option.some.inj h).symm⟩)
  · split at h
    · next hname => exact Or.inr (Or.inl ⟨hname.symm, (Option.some.inj h).symm⟩)
    · split at h
      · next hname => exact Or.inl ⟨hname.symm, (Option.some.inj h).symm⟩
      · cases h

end Demo

end RemoteCall
