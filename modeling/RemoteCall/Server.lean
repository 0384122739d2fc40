import RemoteCall.Config.Basic
import RemoteCall.Engine

/-!
# Serving requests

A server takes a request off a connection, with the body as far as it comes, and gives it
to an engine. A body that is too large, too slow or cut short ends the request before the
engine sees it. Every answer tells the length of its body; the answer to `HEAD` tells the
length, and has no body.
-/

namespace RemoteCall

/-- The limits of a server: the largest number of bytes of a body, and how many seconds the
server waits for a whole body and between requests. -/
structure ServerLimits where
  maxBodySize : Nat
  requestRead : Nat
  idle : Nat
deriving DecidableEq, Repr

/-- The limits that a configuration sets. -/
def ServerLimits.ofConfig (config : Config) : ServerLimits :=
  ⟨config.bodyLimit, config.timeouts.requestRead, config.timeouts.idle⟩

/-- How the body of a request ends: as announced, because the connection is closed, or not
in time. -/
inductive BodyEnd where
  | complete
  | closed
  | late
deriving DecidableEq, Repr

/-- A request on a connection, with what comes of its body. -/
structure IncomingRequest where
  method : Http.Method
  target : String
  headers : Http.Headers
  body : ByteArray
  bodyEnd : BodyEnd

/-- Why a request does not reach the engine. -/
inductive Refusal where
  | bodyTooLarge
  | bodyTooLate
  | bodyCutShort
deriving DecidableEq, Repr

namespace Refusal

/-- The status of the answer. -/
def status : Refusal → Http.Status
  | .bodyTooLarge => Http.Status.payloadTooLarge
  | .bodyTooLate => Http.Status.requestTimeout
  | .bodyCutShort => Http.Status.badRequest

/-- What is wrong, in words. -/
def message : Refusal → String
  | .bodyTooLarge => "Request body too large"
  | .bodyTooLate => "Request body not received in time"
  | .bodyCutShort => "Unable to read request body"

end Refusal

namespace IncomingRequest

/-- The length that the header announces. -/
def declaredLength (incoming : IncomingRequest) : Option Nat :=
  (incoming.headers.get? Http.contentLength).bind fun value => Text.natural? value.toList

/-- What follows the authority of an absolute target. -/
def afterAuthority? (target : List Char) : Option (List Char) :=
  let afterScheme := target.dropWhile (fun c => c != ':' && c != '/' && c != '?')
  match afterScheme with
  | ':' :: '/' :: '/' :: rest => some (rest.dropWhile (fun c => c != '/' && c != '?' && c != '#'))
  | _ => none

/-- The path and the query of the target. An empty path is a slash; a fragment is left out. -/
def pathAndQuery (incoming : IncomingRequest) : String :=
  let chars := incoming.target.toList
  let sent := ((afterAuthority? chars).getD chars).takeWhile (· != '#')
  match sent with
  | [] => "/"
  | '?' :: query => String.ofList ('/' :: '?' :: query)
  | sent => String.ofList sent

/-- Takes in the body. -/
def receive (limits : ServerLimits) (incoming : IncomingRequest) :
    Except Refusal Http.Request :=
  if incoming.declaredLength.any (limits.maxBodySize < ·) then .error .bodyTooLarge
  else if limits.maxBodySize < incoming.body.size then .error .bodyTooLarge
  else
    match incoming.bodyEnd with
    | .late => .error .bodyTooLate
    | .closed => .error .bodyCutShort
    | .complete =>
      .ok { Http.Request.ofTarget incoming.method incoming.pathAndQuery with
        headers := incoming.headers, body := incoming.body }

end IncomingRequest

namespace Http.Response

/-- The answer as it goes over the connection. -/
def sent (response : Response) (method : Method) : Response :=
  let length := response.length
  let body := if method = Method.head then ByteArray.empty else response.body
  { response.setHeader contentLength (Text.naturalText length) with
    body := body, announced := some length }

end Http.Response

/-- The engine of a configured server. -/
def Engine.ofConfig (config : Config) (api : Api) (metrics : Option Metrics) : Engine :=
  ⟨api, ConventionManager.ofConfig config, metrics⟩

/-- A server: its engine and its limits. -/
structure Server where
  engine : Engine
  limits : ServerLimits

namespace Server

/-- The server that a configuration describes. -/
def ofConfig (config : Config) (api : Api) (metrics : Option Metrics) : Server :=
  ⟨Engine.ofConfig config api metrics, ServerLimits.ofConfig config⟩

/-- Serves a request. -/
def serve (server : Server) (incoming : IncomingRequest) : Server × Http.Response :=
  match incoming.receive server.limits with
  | .error refusal =>
    (server, (Http.Response.explained refusal.status refusal.message).sent incoming.method)
  | .ok request =>
    let (engine, response) := server.engine.handle request
    ({ server with engine := engine }, response.sent incoming.method)

end Server

end RemoteCall
