import RemoteCall.Client.Caller

/-!
# Calls that fail over

A call goes to one target after another, for as long as it cannot have arrived or may be
delivered again. The first target of which neither can be said ends the call, and what it came
to there is what the call comes to.
-/

namespace RemoteCall

namespace Target

/-- Whether the target answers a call, with whatever status and body. -/
def answers (target : Target) (call : ClientCall) : Bool :=
  (target.send call).isOk

end Target

namespace CallError

/-- An error with an error code is final: the call has arrived. -/
theorem shouldFailOver_of_code {e : CallError} {code : String} (h : e.code = some code) :
    e.shouldFailOver = false := by
  cases e with
  | transport cause allowed => cases h
  | _ => rfl

/-- An error that a result stands for has the code of the result. -/
theorem code_of_classify {result : CallResult} {spec : Option FunctionSpec} {e : CallError}
    (h : classify result spec = .error e) :
    ∃ code, result.code = some code ∧ e.code = some code := by
  unfold classify at h
  split at h
  · cases h
  · next code hcode =>
    refine ⟨code, hcode, ?_⟩
    repeat' split at h
    all_goals
      cases h
      simp_all only [CallError.code]

end CallError

namespace Caller

variable {specs : Dictionary FunctionSpec} {call : ClientCall}

end Caller

end RemoteCall
