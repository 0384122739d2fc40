import RemoteCall.Convention.Error
import RemoteCall.Http.Request
import RemoteCall.Http.Response
import RemoteCall.Spec.Function

/-!
# Calling conventions

A calling convention adapts one format to function requests and results. It is given by
its name and four hooks: the methods it takes, whether it understands a request, the
conversion of the request, and the writing of the result. A hook ends with a value, with
an error, or by breaking off.

The root of the body, once it has been read, is kept beside the request, so that
matching and conversion read it only once.
-/

namespace RemoteCall

/-- How a hook ends. -/
inductive HookResult (α : Type) where
  | returned (value : α)
  | failed (error : ConventionError)
  | brokeOff

/-- The end of a hook that does not break off. -/
def HookResult.ofExcept {α : Type} : Except ConventionError α → HookResult α
  | .ok value => .returned value
  | .error e => .failed e

/-- What is kept beside a request: the root of its body, once that has been read, and the
function request, once it has been converted. -/
structure RequestContext where
  body : Option Element
  call : Option FunctionRequest

namespace RequestContext

/-- Nothing is kept yet. -/
def empty : RequestContext := ⟨none, none⟩

/-- Keeps the root of the body, unless one is kept already. -/
def keepBody (context : RequestContext) (body : Option Element) : RequestContext :=
  { context with body := context.body.or body }

/-- Keeps a function request, unless one is kept already. -/
def keepCall (context : RequestContext) (call : FunctionRequest) : RequestContext :=
  { context with call := context.call.or (some call) }

end RequestContext

/-- A calling convention. The hooks that look at a request are given the root of its body
if it has been read, and say what they have read of it. -/
structure Convention where
  name : String
  methods : Http.Request → List Http.Method
  understands : Http.Request → Option Element → HookResult Bool × Option Element
  convert : Http.Request → Option Element → HookResult FunctionRequest × Option Element
  write : Http.Request → FunctionRequest → CallResult → Option FunctionSpec → Http.Response →
    HookResult Unit × Http.Response

/-- The methods that a convention takes unless it says otherwise. -/
def Convention.usualMethods : List Http.Method :=
  [Http.Method.head, Http.Method.get, Http.Method.post]

end RemoteCall
