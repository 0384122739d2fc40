import RemoteCall.Api
import RemoteCall.Client.Error

/-!
# Classification of results

A result with an error code is an error of the call. The report that comes with a broken
declaration is put into words, one sentence for each violation.
-/

namespace RemoteCall

/-- A list in words: quoted, with commas, and `and` before the last. -/
def quotedList (names : List String) : String :=
  let quote (name : String) : String := "\"" ++ name ++ "\""
  match names.reverse with
  | [] => ""
  | [name] => quote name
  | last :: rest => ", ".intercalate (rest.reverse.map quote) ++ " and " ++ quote last

/-- The sentence for a parameter that is missing. -/
def missingSentence (param : String) : String :=
  s!"No value given for required parameter \"{param}\"."

/-- The sentence for a value that is not one of its type. -/
def invalidValueSentence (value : Option String) (param type : String) : String :=
  match value with
  | some value =>
    s!"The value \"{value}\" for the parameter \"{param}\" " ++
      s!"is considered invalid for the type \"{type}\"."
  | none =>
    s!"The value for the parameter \"{param}\" is considered invalid for the type \"{type}\"."

/-- The sentence for a combination that does not hold. -/
def combinationSentence (type : String) (params : List String) : String :=
  s!"Violated param-combo constraint of type \"{type}\" on parameters " ++
    quotedList params ++ "."

/-- The sentence for an entry of a report; unknown entries have none. -/
def sentence? (entry : Element) : Option String :=
  let valueOf (name : String) : String := (entry.attribute? name).getD ""
  if entry.localName = "missing-param" then some (missingSentence (valueOf "param"))
  else if entry.localName = "invalid-value-for-type" then
    some (invalidValueSentence (entry.attribute? "value") (valueOf "param") (valueOf "type"))
  else if entry.localName = "param-combo" then
    let names := (entry.childrenNamed "param").filterMap (·.attribute? "name")
    some (combinationSentence (valueOf "type") names)
  else none

/-- The sentences for a report, separated by spaces. -/
def describeViolations (data : Option Element) : String :=
  match data with
  | none => ""
  | some data => " ".intercalate (data.children.filterMap sentence?)

/-- Takes a success as it is, and any other result as an error. With a declaration, an error
code that is neither standard nor declared is not acceptable. -/
def classify (result : CallResult) (spec : Option FunctionSpec) : Except CallError CallResult :=
  match result.code with
  | none => .ok result
  | some code =>
    if code = invalidRequestCode then
      .error (.invalidRequest (describeViolations result.data) result.data)
    else if code = invalidResponseCode then
      .error (.invalidResponse (describeViolations result.data) result.data)
    else if code = disabledFunctionCode then .error .disabledFunction
    else if code = internalErrorCode then
      .error (.internalError (result.parameters.get? Api.exceptionParameter))
    else if spec.any (fun spec => !spec.acceptsErrorCode code) then
      .error (.unacceptableCode code)
    else .error (.unsuccessful code result.parameters result.data)

end RemoteCall
