import RemoteCall.Convention.Standard
import RemoteCall.Json.DataSection
import RemoteCall.Json.Writer

/-!
# The script convention

A request names the function in the last segment of its path and asks for `output=json`
in its query. A data section in `_data` is an object. The result is an object too,
wrapped into a call of `callback` if the query has one.
-/

namespace RemoteCall.Script

/-- The name of the convention. -/
def name : String := "_xins-json"

/-- The parameter that selects the convention. -/
def outputParameter : String := "output"

/-- The parameter that names the function to wrap the answer into. -/
def callbackParameter : String := "callback"

/-- The characters after the last slash. -/
def lastSegment (path : List Char) : List Char :=
  (path.reverse.takeWhile (· != '/')).reverse

/-- The function that the path names. -/
def function? (request : Http.Request) : Option String :=
  let segment := String.ofList (lastSegment request.path.toList)
  if segment = "" then none else some segment

/-- Whether a request asks for an object and names a function. -/
def understands (request : Http.Request) : Bool :=
  request.queryParameter? outputParameter = some "json" && (function? request).isSome

/-- Whether a callback may begin with the character. -/
def isCallbackStart (c : Char) : Bool :=
  isLetter c || c == '_' || c == '$'

/-- Whether a callback may hold the character. -/
def isCallbackChar (c : Char) : Bool :=
  isCallbackStart c || Text.isDigit c || c == '.'

/-- Whether the text may be a callback. -/
def isCallback (text : String) : Bool :=
  match text.toList with
  | [] => false
  | c :: rest => isCallbackStart c && rest.all isCallbackChar

/-- The callback of a request; an empty one is none. -/
def callback? (request : Http.Request) : Except RequestFault (Option String) :=
  match (request.queryParameter? callbackParameter).filter (· ≠ "") with
  | none => .ok none
  | some callback =>
    if isCallback callback then .ok (some callback) else .error (.callbackName callback)

/-- The data section of the parameters, which is an object. -/
def dataSection (parameters : Parameters) : Except RequestFault (Option Element) :=
  Standard.sectionOf Json.readDataSection parameters

/-- The parameters without those of the convention itself. -/
def withoutOwn (parameters : Parameters) : Parameters :=
  (parameters.erase outputParameter).erase callbackParameter

/-- The call of a function with the parameters of a request. -/
def callOf (function : String) (request : Http.Request) : Except RequestFault FunctionRequest :=
  match checkFunctionName function with
  | .error e => .error (.nameRule e)
  | .ok _ =>
    match callback? request with
    | .error fault => .error fault
    | .ok _ =>
      match gatherParameters request with
      | .error fault => .error fault
      | .ok parameters =>
        match dataSection parameters with
        | .error fault => .error fault
        | .ok data =>
          match functionParameters (withoutOwn parameters) with
          | .error fault => .error fault
          | .ok accepted => .ok ⟨function, accepted, data⟩

/-- The call that a request asks for. -/
def convert (request : Http.Request) : Except ConventionError FunctionRequest :=
  match function? request with
  | none => .error .functionNotSpecified
  | some function => (callOf function request).mapError .invalidRequest

/-- The text of a result, and its type. -/
def bodyOf (callback : Option String) (result : CallResult) : String × String :=
  let json := (Json.ofResult result).text
  match callback with
  | none => ("application/json; charset=UTF-8", json)
  | some callback => ("text/javascript; charset=UTF-8", callback ++ "(" ++ json ++ ")")

/-- Writes a result as an object. -/
def write (request : Http.Request) (result : CallResult) (response : Http.Response) :
    HookResult Unit × Http.Response :=
  match callback? request with
  | .error fault => (.failed (.invalidRequest fault), response)
  | .ok callback =>
    let (type, body) := bodyOf callback result
    (.returned (), Standard.writeBody request type body response)

/-- The script convention. -/
def convention : Convention where
  name := name
  methods _ := Convention.usualMethods
  understands request kept := (.returned (understands request), kept)
  convert request kept := (.ofExcept (convert request), kept)
  write request _ result _ response := write request result response

end RemoteCall.Script
