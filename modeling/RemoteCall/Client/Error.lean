import RemoteCall.CallResult.Reader
import RemoteCall.Http.Status
import RemoteCall.Text.Duration

/-!
# Errors of calls

A call fails on its way, in the reading of the answer, or because the answer has an error
code. Another target may be tried only if the call cannot have arrived, or if the call
allows it.
-/

namespace RemoteCall

/-- Why a call did not get an answer. A timeout is given in nanoseconds. -/
inductive TransportError where
  | connect (target detail : String)
  | timeout (target : String) (nanoseconds : Nat)
  | http (target detail : String)
  | invalidUrl (url : String)
deriving DecidableEq, Repr

/-- What is wrong, in words. -/
def TransportError.message : TransportError → String
  | .connect target detail => s!"unable to connect to {target}: {detail}"
  | .timeout target nanoseconds =>
    s!"call to {target} timed out after " ++ Text.durationText nanoseconds
  | .http target detail => s!"HTTP failure calling {target}: {detail}"
  | .invalidUrl url => s!"invalid target URL \"{url}\""

/-- Why a call failed. -/
inductive CallError where
  | invalidRequest (detail : String) (data : Option Element)
  | invalidResponse (detail : String) (data : Option Element)
  | disabledFunction
  | internalError (message : Option String)
  | unacceptableCode (code : String)
  | unsuccessful (code : String) (parameters : Parameters) (data : Option Element)
  | parse (error : ParseError)
  | transport (error : TransportError) (failOverAllowed : Bool)
  | unexpectedStatus (status : Http.Status)

namespace CallError

/-- What is wrong, in words. -/
def message : CallError → String
  | .invalidRequest detail _ => "_InvalidRequest: " ++ detail
  | .invalidResponse detail _ => "_InvalidResponse: " ++ detail
  | .disabledFunction => "_DisabledFunction: the function is disabled"
  | .internalError message => "_InternalError: " ++ message.getD "no details"
  | .unacceptableCode code => s!"Error code \"{code}\" is not acceptable for this function."
  | .unsuccessful code _ _ => s!"call failed with error code \"{code}\""
  | .parse error => "unable to parse the call result: " ++ error.message
  | .transport error _ => "transport failure: " ++ error.message
  | .unexpectedStatus status => "unexpected HTTP status " ++ status.text

/-- Whether another target may be tried. -/
def shouldFailOver : CallError → Bool
  | .transport (.connect _ _) _ => true
  | .transport _ allowed => allowed
  | _ => false

/-- The error code of the answer, if the call got that far. -/
def code : CallError → Option String
  | .invalidRequest _ _ => some invalidRequestCode
  | .invalidResponse _ _ => some invalidResponseCode
  | .disabledFunction => some disabledFunctionCode
  | .internalError _ => some internalErrorCode
  | .unacceptableCode code => some code
  | .unsuccessful code _ _ => some code
  | _ => none

end CallError

end RemoteCall
