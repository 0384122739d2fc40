import RemoteCall.CallResult.Writer
import RemoteCall.Convention.Body
import RemoteCall.Convention.Hooks
import RemoteCall.Convention.Parameters

/-!
# The standard convention

A request is a list of query or form parameters: the function in `_function`, perhaps a
data section in `_data`. The result is written as a document.
-/

namespace RemoteCall.Standard

/-- The name of the convention. -/
def name : String := "_xins-std"

/-- The parameter that names the function. -/
def functionParameter : String := "_function"

/-- The parameter that holds the data section. -/
def dataParameter : String := "_data"

/-- The type of a document. -/
def documentType : String := "text/xml; charset=UTF-8"

/-- Whether a request names a function. -/
def understands (request : Http.Request) : Bool :=
  (request.parameter? functionParameter).any (· ≠ "")

/-- The data section of the parameters, if there is one, in the notation that is read. -/
def sectionOf (read : String → Except RequestFault Element) (parameters : Parameters) :
    Except RequestFault (Option Element) :=
  match (parameters.get? dataParameter).filter (· ≠ "") with
  | none => .ok none
  | some text =>
    match read text with
    | .ok data => .ok (some data)
    | .error fault => .error fault

/-- The data section of the parameters, which is a document. -/
def dataSection (parameters : Parameters) : Except RequestFault (Option Element) :=
  sectionOf parseDataSection parameters

/-- The call of a function with the parameters, after its name has been found. -/
def callOf (function : String) (parameters : Parameters) : Except RequestFault FunctionRequest :=
  match checkFunctionName function with
  | .error e => .error (.nameRule e)
  | .ok _ =>
    match dataSection parameters with
    | .error fault => .error fault
    | .ok data =>
      match functionParameters parameters with
      | .error fault => .error fault
      | .ok accepted => .ok ⟨function, accepted, data⟩

/-- The call that a request asks for. -/
def convert (request : Http.Request) : Except ConventionError FunctionRequest :=
  match gatherParameters request with
  | .error fault => .error (.invalidRequest fault)
  | .ok parameters =>
    match (parameters.get? functionParameter).filter (· ≠ "") with
    | none => .error .functionNotSpecified
    | some function => (callOf function parameters).mapError .invalidRequest

/-- Writes text as the body of a response. The answer to `HEAD` announces its length only. -/
def writeBody (request : Http.Request) (type text : String) (response : Http.Response) :
    Http.Response :=
  let response := response.setHeader Http.contentType type
  if request.method = Http.Method.head then response.announce text.utf8ByteSize
  else response.write text

/-- Writes a result as a document. -/
def writeDocument (request : Http.Request) (result : CallResult) (spec : Option FunctionSpec)
    (response : Http.Response) : Http.Response :=
  writeBody request documentType (result.toXml spec) response

/-- The standard convention. -/
def convention : Convention where
  name := name
  methods _ := Convention.usualMethods
  understands request kept := (.returned (understands request), kept)
  convert request kept := (.ofExcept (convert request), kept)
  write request _ result spec response := (.returned (), writeDocument request result spec response)

end RemoteCall.Standard
