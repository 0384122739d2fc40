import RemoteCall.Convention.Hooks

/-!
# Conventions in use

A convention can be used between its start and its end. This module holds the contract
around the hooks: looking at a request never fails, a conversion fails only in the ways
that are expected of it, and any other failure is a fault of the convention.
-/

namespace RemoteCall

/-- Where a convention is in its life. -/
inductive Lifecycle where
  | created
  | usable
  | closed
deriving DecidableEq, Repr

/-- A convention and where it is in its life. -/
structure ManagedConvention where
  convention : Convention
  state : Lifecycle

namespace ManagedConvention

/-- A convention that is not usable yet. -/
def ofConvention (convention : Convention) : ManagedConvention :=
  ⟨convention, .created⟩

/-- The name of the convention. -/
def name (managed : ManagedConvention) : String :=
  managed.convention.name

/-- Makes the convention usable. -/
def start (managed : ManagedConvention) : ManagedConvention :=
  { managed with state := .usable }

/-- Ends the use of the convention. -/
def close (managed : ManagedConvention) : ManagedConvention :=
  { managed with state := .closed }

/-- Whether the convention can be used. -/
def isUsable (managed : ManagedConvention) : Bool :=
  managed.state = .usable

/-- The methods that the convention takes for a request. -/
def methods (managed : ManagedConvention) (request : Http.Request) : List Http.Method :=
  managed.convention.methods request

/-- Whether the convention takes the method of a request; `OPTIONS` is always let through. -/
def takesMethod (managed : ManagedConvention) (request : Http.Request) : Bool :=
  request.method = Http.Method.options || (managed.methods request).contains request.method

/-- Whether the convention can handle a request. A hook that fails says no. -/
def understands (managed : ManagedConvention) (request : Http.Request)
    (context : RequestContext) : Bool × RequestContext :=
  if managed.isUsable && managed.takesMethod request then
    let (answer, body) := managed.convention.understands request context.body
    let context := context.keepBody body
    match answer with
    | .returned understood => (understood, context)
    | _ => (false, context)
  else (false, context)

/-- Whether an error may come out of the conversion of a request. -/
def isExpected (error : ConventionError) : Bool :=
  error.kind = .invalidRequest || error.kind = .functionNotSpecified ||
    error.kind = .convertRequest

/-- Converts a request, once: the function request is kept, and given again later. -/
def convert (managed : ManagedConvention) (request : Http.Request) (context : RequestContext) :
    Except ConventionError FunctionRequest × RequestContext :=
  if !managed.isUsable then (.error (.notUsable managed.name), context)
  else
    match context.call with
    | some call => (.ok call, context)
    | none =>
      let (answer, body) := managed.convention.convert request context.body
      let context := context.keepBody body
      match answer with
      | .returned call =>
        if call.function = "" then (.error (.unnamedFunction managed.name), context)
        else (.ok call, context.keepCall call)
      | .failed e =>
        if isExpected e then (.error e, context)
        else (.error (.unexpected managed.name .request e), context)
      | .brokeOff => (.error (.brokeOff managed.name .request), context)

/-- The name and version that responses bear. -/
def serverText : String := "XINS/0.1.0"

/-- Writes a result into a response. -/
def write (managed : ManagedConvention) (request : Http.Request) (call : FunctionRequest)
    (response : Http.Response) (result : CallResult) (spec : Option FunctionSpec) :
    Except ConventionError Unit × Http.Response :=
  if !managed.isUsable then (.error (.notUsable managed.name), response)
  else
    let response := response.setHeader "server" serverText
    let (answer, response) := managed.convention.write request call result spec response
    match answer with
    | .returned _ => (.ok (), response)
    | .failed e =>
      if e.kind = .convertResult then (.error e, response)
      else (.error (.unexpected managed.name .result e), response)
    | .brokeOff => (.error (.brokeOff managed.name .result), response)

end ManagedConvention

end RemoteCall
