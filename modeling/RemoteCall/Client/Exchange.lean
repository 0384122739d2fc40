import RemoteCall.Client.Caller
import RemoteCall.Client.Url
import RemoteCall.Http.Request

/-!
# Sending calls over HTTP

A call is sent as a form: in the body of a `POST`, or added to the query of a `GET`. What
the other side does is given as a peer, and the time allowed for the whole exchange as a
number of nanoseconds.
-/

namespace RemoteCall

/-- A target that is reached over HTTP. -/
structure HttpTarget where
  url : String
  timeout : Nat

/-- A request as it goes over the connection. -/
structure WireRequest where
  method : Http.Method
  target : String
  contentType : Option String
  body : List UInt8

/-- What the other side does with a request. -/
inductive Peer where
  | answers (status : Http.Status) (body : ByteArray)
  | refuses (detail : String)
  | breaksOff (detail : String)
  | staysSilent

namespace HttpTarget

/-- The time allowed unless it is set. -/
def defaultTimeout : Nat := 30_000_000_000

/-- A target with an address that can be read. -/
def ofUrl (url : String) : Except TransportError HttpTarget :=
  if (Url.parse? url).isSome then .ok ⟨url, defaultTimeout⟩ else .error (.invalidUrl url)

/-- The type of the body of a posted call. -/
def formContentType : String := "application/x-www-form-urlencoded; charset=UTF-8"

/-- The address of a call sent by `GET`: its form is added to the query, behind a fragment
if there is one. -/
def getUrl (url : String) (form : List UInt8) : String :=
  let separator := if url.toList.contains '?' then "&" else "?"
  url ++ separator ++ String.ofList (form.map fun b => Char.ofNat b.toNat)

/-- The request that a call is sent as, unless its address becomes too long. -/
def wireRequest (target : HttpTarget) (call : ClientCall) : Except TransportError WireRequest :=
  let form := Text.FormEncoding.serialize call.wire
  let parsed := match call.config.method with
    | .post => (Url.parse? target.url).map fun url =>
      WireRequest.mk Http.Method.post url.requestTarget (some formContentType) form
    | .get => (Url.parse? (getUrl target.url form)).map fun url =>
      WireRequest.mk Http.Method.get url.requestTarget none []
  match parsed with
  | some request => .ok request
  | none => .error (.http target.url "the address cannot be used")

/-- Sends a call; gives the request that was sent, if any, and the answer. -/
def exchange (target : HttpTarget) (peer : Peer) (call : ClientCall) :
    Option WireRequest × Except TransportError TransportResponse :=
  match target.wireRequest call with
  | .error e => (none, .error e)
  | .ok request =>
    match peer with
    | .answers status body => (some request, .ok ⟨status, body⟩)
    | .refuses detail => (none, .error (.connect target.url detail))
    | .breaksOff detail => (some request, .error (.http target.url detail))
    | .staysSilent => (some request, .error (.timeout target.url target.timeout))

/-- The target as one of a caller's. -/
def toTarget (target : HttpTarget) (peer : Peer) : Target :=
  ⟨target.url, fun call => (target.exchange peer call).2⟩

end HttpTarget

/-- The request that a server makes of one that has come over a connection. -/
def WireRequest.received (request : WireRequest) : Http.Request :=
  let headers := match request.contentType with
    | some type => Http.Headers.empty.append Http.contentType type
    | none => Http.Headers.empty
  { Http.Request.ofTarget request.method request.target with
    headers := headers, body := ⟨request.body.toArray⟩ }

end RemoteCall
