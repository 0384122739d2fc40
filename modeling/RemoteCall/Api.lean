import RemoteCall.Name
import RemoteCall.Spec.Violation

/-!
# Application interfaces

An API holds functions by name, and beside them the names of those that are switched off.
Calling a function checks the input against its declaration, runs it, and checks the output
of a success. Only an unknown name is an error; every other failure is a result with a
standard error code. Every API also answers the meta functions, whose names cannot be
registered.
-/

namespace RemoteCall

/-- How the implementation of a function ends: with a result, or by breaking off with a
message or without one. -/
inductive Reply where
  | result (result : CallResult)
  | brokeOff (message : Option String)

/-- A function: its declaration and its implementation. -/
structure ApiFunction where
  spec : FunctionSpec
  run : FunctionRequest → Reply

/-- A named collection of functions, and the set of the names that are switched off. -/
structure Api where
  name : String
  functions : Dictionary ApiFunction
  disabled : Dictionary Unit

/-- Why an API refuses. -/
inductive ApiError where
  | noSuchFunction (name : String)
  | duplicateFunction (name : String)
  | invalidName (error : RequestError)
deriving DecidableEq, Repr

/-- What is wrong, in words. -/
def ApiError.message : ApiError → String
  | .noSuchFunction name => s!"no such function \"{name}\""
  | .duplicateFunction name => s!"function \"{name}\" is already registered"
  | .invalidName error => error.message

namespace Api

/-- The version of the framework. -/
def frameworkVersion : String := "0.1.0"

/-- The parameter that holds the message of a function that broke off. -/
def exceptionParameter : String := "_exception.message"

/-- An API without functions. -/
def ofName (name : String) : Api := ⟨name, Dictionary.empty, Dictionary.empty⟩

/-- The names of the functions in code point order. -/
def functionNames (api : Api) : List String :=
  api.functions.names

/-- The declaration of a function. -/
def spec? (api : Api) (name : String) : Option FunctionSpec :=
  (api.functions.get? name).map (·.spec)

/-- Whether a function is there and not switched off. -/
def isEnabled (api : Api) (name : String) : Bool :=
  api.functions.contains name && !api.disabled.contains name

/-- Adds a function under the name that it declares. Gives the outcome, and the API as it is
afterwards. -/
def register (api : Api) (function : ApiFunction) : Except ApiError Unit × Api :=
  let name := function.spec.name
  match checkFunctionName name with
  | .error e => (.error (.invalidName e), api)
  | .ok _ =>
    if isMetaFunction name || api.functions.contains name then
      (.error (.duplicateFunction name), api)
    else (.ok (), { api with functions := api.functions.insert name function })

/-- The API with one more function, if that can be added. -/
def withFunction (api : Api) (function : ApiFunction) : Except ApiError Api :=
  match api.register function with
  | (.ok _, next) => .ok next
  | (.error e, _) => .error e

/-- Adds functions one by one; the first that cannot be added counts. -/
def registerAll (api : Api) (functions : List ApiFunction) : Except ApiError Api :=
  functions.foldlM withFunction api

/-- Switches a function on or off. Gives the outcome, and the API as it is afterwards. -/
def setEnabled (api : Api) (name : String) (enabled : Bool) : Except ApiError Unit × Api :=
  if api.functions.contains name then
    (.ok (), { api with
      disabled := if enabled then api.disabled.erase name else api.disabled.insert name () })
  else (.error (.noSuchFunction name), api)

/-- The description of a function in the list of functions. -/
def listEntry (name : String) (enabled : Bool) : Element :=
  Violation.described "function"
    [("name", name), ("enabled", if enabled then "true" else "false")]

/-- The list of functions with their switches. -/
def functionList (api : Api) : Element :=
  api.functionNames.foldl
    (fun data name => data.addChild (listEntry name !api.disabled.contains name))
    (Element.named "data")

/-- The answer of a meta function. -/
def invokeMeta (api : Api) (name : String) : CallResult :=
  if name = getVersion then
    (CallResult.success.setParameter "xins.version" frameworkVersion).setParameter
      "api.name" api.name
  else if name = getFunctionList then CallResult.success.withData api.functionList
  else CallResult.success

/-- The result of a function that broke off. -/
def internalError (message : Option String) : CallResult :=
  (CallResult.error internalErrorCode).setParameter exceptionParameter
    (message.getD "function panicked")

/-- The result after the output has been checked; errors are not checked. -/
def checked (spec : FunctionSpec) (result : CallResult) : CallResult :=
  if result.isSuccess then
    match spec.checkOutput result.parameters with
    | none => result
    | some violations => (CallResult.error invalidResponseCode).withData violations
  else result

/-- Runs a function that is switched on. -/
def run (function : ApiFunction) (request : FunctionRequest) : CallResult :=
  match function.spec.checkInput request.parameters with
  | some violations => (CallResult.error invalidRequestCode).withData violations
  | none =>
    match function.run request with
    | .brokeOff message => internalError message
    | .result result => checked function.spec result

/-- Calls a function. -/
def invoke (api : Api) (request : FunctionRequest) : Except ApiError CallResult :=
  if isMetaFunction request.function then .ok (api.invokeMeta request.function)
  else
    match api.functions.get? request.function with
    | none => .error (.noSuchFunction request.function)
    | some function =>
      if api.disabled.contains request.function then .ok (CallResult.error disabledFunctionCode)
      else .ok (run function request)

end Api

end RemoteCall
