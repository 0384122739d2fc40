import RemoteCall.Spec.Function

/-!
# Violations of a declaration

A parameter is set when it has a value that is not empty. Checking input lists each
declaration that is broken, parameters before combinations, in the order they were
declared; the list travels as a `data` element with one child per violation.
-/

namespace RemoteCall

/-- A broken declaration. -/
inductive Violation where
  | missing (param : String)
  | invalidValue (param : String) (type : ParamType) (value : String)
  | combination (kind : ComboKind) (params : List String)
deriving DecidableEq, Repr

/-- The value of a parameter that is set. -/
def Dictionary.setValue? (parameters : Parameters) (name : String) : Option String :=
  (parameters.get? name).filter (· ≠ "")

/-- What is wrong with the parameter that a declaration is about. -/
def ParamSpec.violation? (spec : ParamSpec) (parameters : Parameters) : Option Violation :=
  match parameters.setValue? spec.name with
  | none => if spec.required then some (.missing spec.name) else none
  | some value =>
    if spec.type.accepts value then none else some (.invalidValue spec.name spec.type value)

/-- What is wrong with a combination; a parameter that it lists twice counts twice. -/
def ParamCombo.violation? (combo : ParamCombo) (parameters : Parameters) : Option Violation :=
  let set := combo.params.countP (fun name => (parameters.setValue? name).isSome)
  if combo.kind.admits set combo.params.length then none
  else some (.combination combo.kind combo.params)

namespace FunctionSpec

/-- The broken declarations of the input. -/
def inputViolations (spec : FunctionSpec) (parameters : Parameters) : List Violation :=
  spec.input.filterMap (·.violation? parameters) ++ spec.combos.filterMap (·.violation? parameters)

/-- The broken declarations of the output. -/
def outputViolations (spec : FunctionSpec) (parameters : Parameters) : List Violation :=
  spec.output.filterMap (·.violation? parameters)

end FunctionSpec

namespace Violation

/-- An element with attributes and no text. -/
def described (name : String) (attributes : List (String × String)) : Element :=
  attributes.foldl (fun element pair => element.setAttribute pair.1 pair.2) (Element.named name)

/-- A violation as an element. -/
def element : Violation → Element
  | .missing param => described "missing-param" [("param", param)]
  | .invalidValue param type value =>
    described "invalid-value-for-type" [("param", param), ("type", type.name), ("value", value)]
  | .combination kind params =>
    params.foldl (fun combo name => combo.addChild (described "param" [("name", name)]))
      (described "param-combo" [("type", kind.name)])

/-- The report of violations; there is none without violations. -/
def report (violations : List Violation) : Option Element :=
  if violations.isEmpty then none
  else some (violations.foldl (fun data violation => data.addChild violation.element)
    (Element.named "data"))

end Violation

namespace FunctionSpec

/-- The report on the input, if a declaration is broken. -/
def checkInput (spec : FunctionSpec) (parameters : Parameters) : Option Element :=
  Violation.report (spec.inputViolations parameters)

/-- The report on the output, if a declaration is broken. -/
def checkOutput (spec : FunctionSpec) (parameters : Parameters) : Option Element :=
  Violation.report (spec.outputViolations parameters)

end FunctionSpec

end RemoteCall
