import RemoteCall.Convention.Manager
import RemoteCall.Convention.Standard
import RemoteCall.Element.Writer

/-!
# Calls of remote functions

A call names a function, its parameters and perhaps a data section, and says how it is to
be sent. It bears the pairs that go on the wire: the function, the standard convention, the
context if there is one, the parameters by name, and the data section. Whatever changes one of
these works the pairs out anew, so a call can be sent at any time. A change that is refused
is refused before anything is changed.
-/

namespace RemoteCall

/-- The method that sends a call. -/
inductive CallMethod where
  | post
  | get
deriving DecidableEq, Repr

/-- The request method of a call. -/
def CallMethod.method : CallMethod → Http.Method
  | .post => Http.Method.post
  | .get => Http.Method.get

/-- How a call is to be sent: whether another target may be tried although the first one may
have received the call, and by which method. -/
structure CallConfig where
  failOver : Bool := false
  method : CallMethod := .post
deriving DecidableEq, Repr

/-- A call to be sent, with the pairs that go on the wire, in order. -/
structure ClientCall where
  request : FunctionRequest
  config : CallConfig
  context : Option String
  wire : List (String × String)

namespace ClientCall

/-- The parameter that holds the context. -/
def contextParameter : String := "_context"

/-- Accepts data sections whose root is named `data`. -/
def checkData (data : Option Element) : Except RequestError Unit :=
  match data with
  | some root =>
    if root.localName = "data" then .ok () else .error (.dataSectionName root.localName)
  | none => .ok ()

/-- The call with its pairs worked out from the rest of it. -/
def rebuild (call : ClientCall) : ClientCall :=
  { call with
    wire :=
      [(Standard.functionParameter, call.request.function),
        (ConventionManager.conventionParameter, Standard.name)] ++
      (call.context.map fun context => (contextParameter, context)).toList ++
      call.request.parameters.entries ++
      (call.request.data.map fun data => (Standard.dataParameter, data.toXml)).toList }

/-- A call of a function. Empty parameters are left out, but their names must be acceptable. -/
def make (function : String) (parameters : Parameters) (data : Option Element) :
    Except RequestError ClientCall :=
  match checkFunctionName function with
  | .error e => .error e
  | .ok _ =>
    match checkParameterNames parameters with
    | .error e => .error e
    | .ok _ =>
      match checkData data with
      | .error e => .error e
      | .ok _ =>
        let accepted := parameters.filter fun _ value => value ≠ ""
        .ok (rebuild ⟨⟨function, accepted, data⟩, {}, none, []⟩)

/-- Sets a parameter, or removes it if there is no value or an empty one. Gives the outcome, and
the call as it is afterwards. -/
def setParameter (call : ClientCall) (name : String) (value : Option String) :
    Except RequestError Unit × ClientCall :=
  match checkParameterName name with
  | .error e => (.error e, call)
  | .ok _ =>
    let parameters := match value.filter (· ≠ "") with
      | some value => call.request.parameters.insert name value
      | none => call.request.parameters.erase name
    (.ok (), rebuild { call with request := { call.request with parameters := parameters } })

/-- Sets or removes the data section. Gives the outcome, and the call as it is afterwards. -/
def setData (call : ClientCall) (data : Option Element) :
    Except RequestError Unit × ClientCall :=
  match checkData data with
  | .error e => (.error e, call)
  | .ok _ => (.ok (), rebuild { call with request := { call.request with data := data } })

/-- Sets or removes the context; an empty one is none. -/
def setContext (call : ClientCall) (context : Option String) : ClientCall :=
  rebuild { call with context := Element.nonEmpty context }

/-- Sets how the call is to be sent. That does not go on the wire. -/
def setConfig (call : ClientCall) (config : CallConfig) : ClientCall :=
  { call with config := config }

end ClientCall

end RemoteCall
