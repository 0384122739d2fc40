import RemoteCall.Client.Call
import RemoteCall.Client.Classification

/-!
# Calling with fail-over

Equivalent targets are tried in order. The next one is tried only if the failure of the
one before allows it; any other answer ends the call.
-/

namespace RemoteCall

/-- What a target answers: a status and a body. -/
structure TransportResponse where
  status : Http.Status
  body : ByteArray

/-- A place to send calls to. -/
structure Target where
  name : String
  send : ClientCall → Except TransportError TransportResponse

/-- A successful call: the target that answered, and its result. -/
structure CallSuccess where
  target : String
  result : CallResult

/-- Targets in order, and the declarations of remote functions. -/
structure Caller where
  targets : List Target
  specs : Dictionary FunctionSpec

namespace Caller

/-- The declarations by the names of their functions; of two for one function the later stays. -/
def specsOf (specs : List FunctionSpec) : Dictionary FunctionSpec :=
  Dictionary.ofList (specs.map fun spec => (spec.name, spec))

/-- What an answer means for a call. -/
def judge (specs : Dictionary FunctionSpec) (call : ClientCall) (target : String)
    (response : TransportResponse) : Except CallError CallSuccess :=
  if response.status ≠ Http.Status.ok then .error (.unexpectedStatus response.status)
  else
    match CallResult.parse response.body with
    | .error e => .error (.parse e)
    | .ok result =>
      match classify result (specs.get? call.request.function) with
      | .error e => .error e
      | .ok result => .ok ⟨target, result⟩

/-- Sends a call to one target. -/
def callTarget (specs : Dictionary FunctionSpec) (call : ClientCall) (target : Target) :
    Except CallError CallSuccess :=
  match target.send call with
  | .error e => .error (.transport e call.config.failOver)
  | .ok response => judge specs call target.name response

/-- Tries the targets in order, after the failure of another one if there has been one; gives
those that were contacted, and how the call ended. -/
def tryTargets (specs : Dictionary FunctionSpec) (call : ClientCall) (failure : Option CallError) :
    List Target → List Target × Except CallError CallSuccess
  | [] => ([], .error (failure.getD (.unexpectedStatus Http.Status.serviceUnavailable)))
  | target :: rest =>
    match callTarget specs call target with
    | .ok success => ([target], .ok success)
    | .error e =>
      if e.shouldFailOver && !rest.isEmpty then
        let (contacted, outcome) := tryTargets specs call (some e) rest
        (target :: contacted, outcome)
      else ([target], .error e)

/-- Makes a call. -/
def call (caller : Caller) (call : ClientCall) :
    List Target × Except CallError CallSuccess :=
  tryTargets caller.specs call none caller.targets

end Caller

end RemoteCall
