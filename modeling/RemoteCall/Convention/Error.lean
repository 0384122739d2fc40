import RemoteCall.CallResult.Reader
import RemoteCall.Http.Status
import RemoteCall.Name

/-!
# Errors of calling conventions

Every failure to convert a request or a result belongs to one of six kinds, and the kind
decides the status of the response.
-/

namespace RemoteCall

/-- Why a request cannot be accepted. -/
inductive RequestFault where
  | nameRule (error : RequestError)
  | severalValues (name : String)
  | noContentType
  | wrongContentType (value : String)
  | bodyNotUtf8
  | emptyBody
  | malformedBody
  | rootName (name : String)
  | unnamedParameter
  | severalDataSections
  | malformedData
  | dataRoot (name : String)
  | malformedJson
  | dataNotObject
  | elementName (name : String)
  | nestedArray (name : String)
  | callbackName (name : String)
  | unknownConvention (name : String)
  | unsuitableConvention (name : String)
  | noConvention
  | other (detail : String)
deriving DecidableEq, Repr

/-- What is wrong, in words. -/
def RequestFault.message : RequestFault → String
  | .nameRule error => error.message
  | .severalValues name => s!"Found multiple values for the parameter \"{name}\"."
  | .noContentType => "No content type set."
  | .wrongContentType value => s!"Incorrect content type \"{value}\"."
  | .bodyNotUtf8 => "Request body is not valid UTF-8: the bytes are ill-formed"
  | .emptyBody => "Empty request body."
  | .malformedBody => "Unable to parse request: " ++ ElementError.malformed.message
  | .rootName name => s!"The root element is \"{name}\" instead of \"request\"."
  | .unnamedParameter => "No parameter name specified for a \"param\" element."
  | .severalDataSections => "Found duplicate data sections in the \"request\" element."
  | .malformedData => "Unable to parse the data section: " ++ ElementError.malformed.message
  | .dataRoot name => s!"The data section must be a \"data\" element, found \"{name}\"."
  | .malformedJson => "Unable to parse the data section as JSON: the text is not well-formed"
  | .dataNotObject => "The data section must be a JSON object."
  | .elementName name => s!"\"{name}\" cannot be used as an element name."
  | .nestedArray name =>
    s!"Nested arrays are not supported in the data section, found one in \"{name}\"."
  | .callbackName name => s!"Invalid callback name \"{name}\"."
  | .unknownConvention name => s!"Unknown calling convention \"{name}\"."
  | .unsuitableConvention name =>
    s!"The calling convention \"{name}\" cannot handle this request."
  | .noConvention => "No calling convention matches the request."
  | .other detail => detail

/-- What a convention was converting. -/
inductive Stage where
  | request
  | result
deriving DecidableEq, Repr

/-- What was being converted, in a word. -/
def Stage.word : Stage → String
  | .request => "request"
  | .result => "result"

/-- Everything that can go wrong while converting. The last five constructors are faults of
the convention itself. -/
inductive ConventionError where
  | invalidRequest (fault : RequestFault)
  | functionNotSpecified
  | convertRequest (detail : String)
  | convertResult (detail : String)
  | parse (error : ParseError)
  | notUsable (convention : String)
  | unexpected (convention : String) (stage : Stage) (error : ConventionError)
  | brokeOff (convention : String) (stage : Stage)
  | unnamedFunction (convention : String)
  | programming (detail : String)
deriving DecidableEq, Repr

/-- The kinds of errors. -/
inductive ConventionErrorKind where
  | invalidRequest
  | functionNotSpecified
  | convertRequest
  | convertResult
  | parse
  | programming
deriving DecidableEq, Repr

namespace ConventionError

/-- The kind of an error. -/
def kind : ConventionError → ConventionErrorKind
  | .invalidRequest _ => .invalidRequest
  | .functionNotSpecified => .functionNotSpecified
  | .convertRequest _ => .convertRequest
  | .convertResult _ => .convertResult
  | .parse _ => .parse
  | _ => .programming

/-- What is wrong, in words. -/
def message : ConventionError → String
  | .invalidRequest fault => "invalid request: " ++ fault.message
  | .functionNotSpecified => "no function specified"
  | .convertRequest detail => "failed to convert request: " ++ detail
  | .convertResult detail => "failed to convert result: " ++ detail
  | .parse error => "parse failure: " ++ error.message
  | .notUsable convention =>
    s!"programming error: {convention}: calling convention is not usable"
  | .unexpected convention stage error =>
    s!"programming error: {convention}: unexpected error converting {stage.word}: " ++
      error.message
  | .brokeOff convention stage =>
    s!"programming error: {convention}: panic while converting {stage.word}"
  | .unnamedFunction convention =>
    s!"programming error: {convention}: converted request has an empty function name"
  | .programming detail => "programming error: " ++ detail

/-- The status of the response to an error. -/
def status (error : ConventionError) : Http.Status :=
  match error.kind with
  | .invalidRequest => Http.Status.badRequest
  | .parse => Http.Status.badRequest
  | .functionNotSpecified => Http.Status.notFound
  | _ => Http.Status.internalServerError

end ConventionError

end RemoteCall
