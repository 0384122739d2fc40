import RemoteCall.Api
import RemoteCall.Convention.Manager
import RemoteCall.Metrics

/-!
# Handling requests

The engine takes a request through its steps: choose a convention, convert the request,
call the function, write the result. A step that fails ends the request with a status and
an explanation, and nothing that had been written by then is kept.
-/

namespace RemoteCall

/-- An API behind conventions, with counters if requests are to be counted. -/
structure Engine where
  api : Api
  conventions : ConventionManager
  metrics : Option Metrics

namespace Engine

/-- Puts an engine together. If there is a registry, it counts, with counters registered there. -/
def create (conventions : ConventionManager) (api : Api) (registry : Option MetricsRegistry) :
    Except MetricsError Engine × Option MetricsRegistry :=
  match registry with
  | none => (.ok ⟨api, conventions, none⟩, none)
  | some registry =>
    match Metrics.register registry with
    | (.error e, registry) => (.error e, some registry)
    | (.ok metrics, registry) => (.ok ⟨api, conventions, some metrics⟩, some registry)

/-- The label of requests that no convention handled. -/
def noConvention : String := "none"

/-- How a request ended: the convention, the outcome and the response. -/
structure Handled where
  convention : String
  outcome : Outcome
  response : Http.Response

/-- The outcome of a request that failed with an error. -/
def outcomeOf (error : ConventionError) : Outcome :=
  if error.status.isClientError then .invalidRequest else .failure

/-- The end of a request that failed with an error. -/
def failed (convention : String) (error : ConventionError) : Handled :=
  ⟨convention, outcomeOf error, Http.Response.explained error.status error.message⟩

/-- The end of a request that the API refused. An API refuses calls of unknown functions only;
any other error is a fault of its own. -/
def refused (convention : String) (error : ApiError) : Handled :=
  match error with
  | .noSuchFunction _ =>
    ⟨convention, .noSuchFunction, Http.Response.explained Http.Status.notFound error.message⟩
  | _ =>
    ⟨convention, .failure,
      Http.Response.explained Http.Status.internalServerError error.message⟩

/-- The methods as the value of a header field. -/
def allowText (methods : List Http.Method) : String :=
  ", ".intercalate (methods.map Http.Method.token)

/-- The answer to a question for the methods. -/
def answerOptions (engine : Engine) (request : Http.Request) : Http.Response :=
  let allowed := engine.conventions.allowedMethods request
  (Http.Response.empty.setHeader "allow" (allowText allowed)).announce 0

/-- Writes the result of a call. -/
def finish (engine : Engine) (convention : ManagedConvention) (request : Http.Request)
    (call : FunctionRequest) (result : CallResult) : Handled :=
  match convention.write request call Http.Response.empty result
      (engine.api.spec? call.function) with
  | (.error e, _) => failed convention.name e
  | (.ok _, response) =>
    ⟨convention.name, if result.isSuccess then .success else .errorCode, response⟩

/-- Takes a request through its steps. -/
def dispatch (engine : Engine) (request : Http.Request) : Handled :=
  if request.method = Http.Method.options then
    ⟨noConvention, .options, engine.answerOptions request⟩
  else
    match engine.conventions.select request RequestContext.empty with
    | (.error e, _) => failed noConvention e
    | (.ok convention, context) =>
      match convention.convert request context with
      | (.error e, _) => failed convention.name e
      | (.ok call, _) =>
        match engine.api.invoke call with
        | .ok result => engine.finish convention request call result
        | .error e => refused convention.name e

/-- Handles a request and counts it. -/
def handle (engine : Engine) (request : Http.Request) : Engine × Http.Response :=
  let handled := engine.dispatch request
  ({ engine with
      metrics := engine.metrics.map (·.record handled.convention handled.outcome) },
    handled.response)

end Engine

end RemoteCall
