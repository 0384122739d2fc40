import RemoteCall.Http.Header
import RemoteCall.Http.Status

/-!
# Responses

A response that is being put together. It may announce a length other than that of its
body, as in the answer to `HEAD`.
-/

namespace RemoteCall.Http

/-- A response. -/
structure Response where
  status : Status
  headers : Headers
  body : ByteArray
  announced : Option Nat

namespace Response

/-- The response without header fields and body. -/
def empty : Response := ⟨Status.ok, Headers.empty, ByteArray.empty, none⟩

/-- Sets a header field. -/
def setHeader (response : Response) (name value : String) : Response :=
  { response with headers := response.headers.insert name value }

/-- Adds text to the body. -/
def write (response : Response) (text : String) : Response :=
  { response with body := response.body ++ text.toUTF8 }

/-- Announces a length. -/
def announce (response : Response) (length : Nat) : Response :=
  { response with announced := some length }

/-- The length that is reported. -/
def length (response : Response) : Nat :=
  response.announced.getD response.body.size

/-- A status with an explanation in plain text; an empty one leaves no trace. -/
def explained (status : Status) (detail : String) : Response :=
  let response := { empty with status := status }
  if detail = "" then response
  else (response.setHeader contentType "text/plain; charset=UTF-8").write detail

end Response

end RemoteCall.Http
