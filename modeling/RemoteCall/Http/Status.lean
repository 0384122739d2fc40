import RemoteCall.Text.Integer

/-!
# Methods and status codes

A method is a token, compared with regard to case. A status is a three-digit code with a
reason phrase where the code is registered.
-/

namespace RemoteCall.Http

/-- A request method. -/
structure Method where
  token : String
deriving DecidableEq, Repr

namespace Method

/-- The method that asks for a resource. -/
def get : Method := ⟨"GET"⟩

/-- The method that asks what `GET` would answer, without the body. -/
def head : Method := ⟨"HEAD"⟩

/-- The method that sends a body. -/
def post : Method := ⟨"POST"⟩

/-- The method that asks for the methods. -/
def options : Method := ⟨"OPTIONS"⟩

end Method

/-- A status code. -/
structure Status where
  code : Nat
deriving DecidableEq, Repr

namespace Status

/-- The request has succeeded. -/
def ok : Status := ⟨200⟩

/-- The request cannot be accepted. -/
def badRequest : Status := ⟨400⟩

/-- There is nothing of that name. -/
def notFound : Status := ⟨404⟩

/-- The request did not come in time. -/
def requestTimeout : Status := ⟨408⟩

/-- The body is too large. -/
def payloadTooLarge : Status := ⟨413⟩

/-- The server has failed. -/
def internalServerError : Status := ⟨500⟩

/-- The server cannot answer now. -/
def serviceUnavailable : Status := ⟨503⟩

/-- Whether the code puts the fault with the client. -/
def isClientError (status : Status) : Bool :=
  400 ≤ status.code && status.code < 500

/-- The registered codes with their reason phrases. -/
def registered : List (Nat × String) :=
  [(100, "Continue"), (101, "Switching Protocols"), (102, "Processing"), (103, "Early Hints"),
    (200, "OK"), (201, "Created"), (202, "Accepted"), (203, "Non Authoritative Information"),
    (204, "No Content"), (205, "Reset Content"), (206, "Partial Content"), (207, "Multi-Status"),
    (208, "Already Reported"), (226, "IM Used"), (300, "Multiple Choices"),
    (301, "Moved Permanently"), (302, "Found"), (303, "See Other"), (304, "Not Modified"),
    (305, "Use Proxy"), (307, "Temporary Redirect"), (308, "Permanent Redirect"),
    (400, "Bad Request"), (401, "Unauthorized"), (402, "Payment Required"), (403, "Forbidden"),
    (404, "Not Found"), (405, "Method Not Allowed"), (406, "Not Acceptable"),
    (407, "Proxy Authentication Required"), (408, "Request Timeout"), (409, "Conflict"),
    (410, "Gone"), (411, "Length Required"), (412, "Precondition Failed"),
    (413, "Payload Too Large"), (414, "URI Too Long"), (415, "Unsupported Media Type"),
    (416, "Range Not Satisfiable"), (417, "Expectation Failed"), (418, "I'm a teapot"),
    (421, "Misdirected Request"), (422, "Unprocessable Entity"), (423, "Locked"),
    (424, "Failed Dependency"), (425, "Too Early"), (426, "Upgrade Required"),
    (428, "Precondition Required"), (429, "Too Many Requests"),
    (431, "Request Header Fields Too Large"), (451, "Unavailable For Legal Reasons"),
    (500, "Internal Server Error"), (501, "Not Implemented"), (502, "Bad Gateway"),
    (503, "Service Unavailable"), (504, "Gateway Timeout"), (505, "HTTP Version Not Supported"),
    (506, "Variant Also Negotiates"), (507, "Insufficient Storage"), (508, "Loop Detected"),
    (510, "Not Extended"), (511, "Network Authentication Required")]

/-- The code and its reason phrase. -/
def text (status : Status) : String :=
  Text.naturalText status.code ++ " " ++
    (registered.lookup status.code).getD "<unknown status code>"

end Status

end RemoteCall.Http
