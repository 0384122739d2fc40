import RemoteCall.Http.Header
import RemoteCall.Http.Status
import RemoteCall.Text.Blank
import RemoteCall.Text.FormEncoding

/-!
# Requests

A request has arrived in full. Its parameters come from the query and, if it is a `POST`
of a form, from the body, in that order, repeated names included.
-/

namespace RemoteCall.Http

/-- A request with its complete body. -/
structure Request where
  method : Method
  path : String
  query : Option String
  headers : Headers
  body : ByteArray

/-- The media type of a content type, without its parameters. -/
def mediaType (value : String) : String :=
  Text.trim (String.ofList (value.toList.takeWhile (· != ';')))

/-- The media type of a form. -/
def formMediaType : String := "application/x-www-form-urlencoded"

/-- The bytes as a list. -/
def bytesOf (body : ByteArray) : List UInt8 := body.data.toList

namespace Request

/-- A request without headers and body; the query begins after the first question mark. -/
def ofTarget (method : Method) (target : String) : Request :=
  let chars := target.toList
  let path := String.ofList (chars.takeWhile (· != '?'))
  match chars.dropWhile (· != '?') with
  | _ :: query => ⟨method, path, some (String.ofList query), Headers.empty, ByteArray.empty⟩
  | [] => ⟨method, path, none, Headers.empty, ByteArray.empty⟩

/-- The value of a header field, if it is visible. -/
def header? (request : Request) (name : String) : Option String :=
  request.headers.get? name

/-- Whether the body is a form. -/
def isForm (request : Request) : Bool :=
  (request.header? contentType).any fun value => lowerCase (mediaType value) = formMediaType

/-- The parameters of the query. -/
def queryPairs (request : Request) : List (String × String) :=
  match request.query with
  | some query => Text.FormEncoding.parse (bytesOf query.toUTF8)
  | none => []

/-- The parameters of the body. -/
def bodyPairs (request : Request) : List (String × String) :=
  if request.method = Method.post && request.isForm then
    Text.FormEncoding.parse (bytesOf request.body)
  else []

/-- All parameters in order. -/
def pairs (request : Request) : List (String × String) :=
  request.queryPairs ++ request.bodyPairs

/-- The first value of a parameter. -/
def parameter? (request : Request) (name : String) : Option String :=
  request.pairs.lookup name

/-- The first value of a parameter of the query. -/
def queryParameter? (request : Request) (name : String) : Option String :=
  request.queryPairs.lookup name

end Request

end RemoteCall.Http
