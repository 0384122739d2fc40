import RemoteCall.Convention.Error
import RemoteCall.Http.Request

/-!
# Bodies that are documents

The root of the body is read once. A body that must be of type `text/xml` and is not is
refused before anything is read, whatever has been read earlier.
-/

namespace RemoteCall

/-- Accepts requests whose body is a document by its type. -/
def checkDocumentType (request : Http.Request) : Except RequestFault Unit :=
  match request.header? Http.contentType with
  | none => .error .noContentType
  | some value =>
    if Http.lowerCase (Http.mediaType value) = "text/xml" then .ok ()
    else .error (.wrongContentType value)

/-- The root of the body as it is. -/
def parseBody (request : Http.Request) : Except RequestFault Element :=
  match String.fromUTF8? request.body with
  | none => .error .bodyNotUtf8
  | some text =>
    if Text.isBlankText text then .error .emptyBody
    else
      match Element.parse text with
      | .ok root => .ok root
      | .error _ => .error .malformedBody

/-- The root of the body, `kept` if it has been read before, and what is to be kept. -/
def readBody (checkType : Bool) (request : Http.Request) (kept : Option Element) :
    Except RequestFault Element × Option Element :=
  match if checkType then checkDocumentType request else .ok () with
  | .error fault => (.error fault, kept)
  | .ok _ =>
    match kept with
    | some root => (.ok root, kept)
    | none =>
      match parseBody request with
      | .ok root => (.ok root, some root)
      | .error fault => (.error fault, none)

/-- The data section that a parameter holds. -/
def parseDataSection (xml : String) : Except RequestFault Element :=
  match Element.parse xml with
  | .error _ => .error .malformedData
  | .ok root => if root.localName = "data" then .ok root else .error (.dataRoot root.localName)

end RemoteCall
