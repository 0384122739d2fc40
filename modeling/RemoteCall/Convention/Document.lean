import RemoteCall.Convention.Standard

/-!
# The document convention

A request is a posted document: a `request` element with the function in an attribute,
a `param` child for each parameter, and perhaps a `data` child. The result is written as
a document.
-/

namespace RemoteCall.Document

/-- The name of the convention. -/
def name : String := "_xins-xml"

/-- Whether the body is a `request` without namespace. -/
def understands (request : Http.Request) (kept : Option Element) :
    HookResult Bool × Option Element :=
  match readBody true request kept with
  | (.ok root, kept) => (.returned (root.localName = "request" && root.namespaceUri.isNone), kept)
  | (.error fault, kept) => (.failed (.invalidRequest fault), kept)

/-- Enters the `param` elements one by one; a name must not come with two values. -/
def collectParameters (parameters : Parameters) : List Element → Except RequestFault Parameters
  | [] => .ok parameters
  | param :: rest =>
    let name := (param.attribute? "name").getD ""
    let value := param.text.getD ""
    if name = "" then .error .unnamedParameter
    else
      match parameters.get? name with
      | none => collectParameters (parameters.insert name value) rest
      | some existing =>
        if existing = value then collectParameters parameters rest
        else .error (.severalValues name)

/-- The call of a function that a root asks for, after its name has been found. -/
def callOf (root : Element) (function : String) : Except RequestFault FunctionRequest :=
  match checkFunctionName function with
  | .error e => .error (.nameRule e)
  | .ok _ =>
    match collectParameters Dictionary.empty (root.childrenNamed "param") with
    | .error fault => .error fault
    | .ok parameters =>
      match functionParameters parameters with
      | .error fault => .error fault
      | .ok accepted =>
        match root.childrenNamed "data" with
        | [] => .ok ⟨function, accepted, none⟩
        | [data] => .ok ⟨function, accepted, some data⟩
        | _ => .error .severalDataSections

/-- The call that a root asks for. -/
def convertRoot (root : Element) : Except ConventionError FunctionRequest :=
  if root.localName ≠ "request" then .error (.invalidRequest (.rootName root.localName))
  else
    match Element.nonEmpty (root.attribute? "function") with
    | none => .error .functionNotSpecified
    | some function => (callOf root function).mapError .invalidRequest

/-- The call that a request asks for. -/
def convert (request : Http.Request) (kept : Option Element) :
    HookResult FunctionRequest × Option Element :=
  match readBody true request kept with
  | (.ok root, kept) => (.ofExcept (convertRoot root), kept)
  | (.error fault, kept) => (.failed (.invalidRequest fault), kept)

/-- The document convention. -/
def convention : Convention where
  name := name
  methods _ := [Http.Method.post]
  understands := understands
  convert := convert
  write request _ result spec response :=
    (.returned (), Standard.writeDocument request result spec response)

end RemoteCall.Document
