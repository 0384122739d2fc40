import RemoteCall.Dictionary

/-!
# Request counters

Each request is counted once, under the convention that handled it and the way it ended. The
counters are registered under names of their own, so that they can be read; no name can be
registered twice.
-/

namespace RemoteCall

/-- How a request ended. -/
inductive Outcome where
  | success
  | errorCode
  | options
  | invalidRequest
  | noSuchFunction
  | failure
deriving DecidableEq, Repr

/-- The label of an outcome. -/
def Outcome.label : Outcome → String
  | .success => "success"
  | .errorCode => "error_code"
  | .options => "options"
  | .invalidRequest => "invalid_request"
  | .noSuchFunction => "no_such_function"
  | .failure => "failure"

/-- The names under which something is registered to be read. -/
structure MetricsRegistry where
  names : List String
deriving DecidableEq, Repr

/-- Why counters cannot be registered. -/
inductive MetricsError where
  | alreadyRegistered
deriving DecidableEq, Repr

namespace MetricsRegistry

/-- Nothing is registered. -/
def empty : MetricsRegistry := ⟨[]⟩

/-- Registers a name, unless it is registered already. -/
def register (registry : MetricsRegistry) (name : String) :
    Except MetricsError Unit × MetricsRegistry :=
  if name ∈ registry.names then (.error .alreadyRegistered, registry)
  else (.ok (), ⟨name :: registry.names⟩)

end MetricsRegistry

/-- Counters by the name of a convention and the label of an outcome. -/
structure Metrics where
  counters : Dictionary (Dictionary Nat)

namespace Metrics

/-- No request has been counted. -/
def empty : Metrics := ⟨Dictionary.empty⟩

/-- The name of the counters of requests. -/
def requestsTotal : String := "xins_requests_total"

/-- The name of the durations of requests. -/
def requestDuration : String := "xins_request_duration_seconds"

/-- Registers new counters and then their durations. If only the second is refused, the first
stays registered. -/
def register (registry : MetricsRegistry) : Except MetricsError Metrics × MetricsRegistry :=
  match registry.register requestsTotal with
  | (.error e, registry) => (.error e, registry)
  | (.ok _, registry) =>
    match registry.register requestDuration with
    | (.error e, registry) => (.error e, registry)
    | (.ok _, registry) => (.ok empty, registry)

/-- The number of requests counted under a convention and an outcome. -/
def count (metrics : Metrics) (convention : String) (outcome : Outcome) : Nat :=
  (((metrics.counters.get? convention).getD Dictionary.empty).get? outcome.label).getD 0

/-- Counts a request. -/
def record (metrics : Metrics) (convention : String) (outcome : Outcome) : Metrics :=
  let counters := (metrics.counters.get? convention).getD Dictionary.empty
  ⟨metrics.counters.insert convention
    (counters.insert outcome.label (metrics.count convention outcome + 1))⟩

/-- The number of requests counted under a convention, whose durations have been observed. -/
def observed (counters : Dictionary Nat) : Nat :=
  (counters.entries.map Prod.snd).foldl (· + ·) 0

end Metrics

end RemoteCall
