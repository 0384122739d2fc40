import RemoteCall.Http.Header

/-!
# Addresses of targets

An address begins with `http://`, in letters of any case, and names an authority; a path
and a query may follow. A fragment is cut off. The rules on characters are those by which
addresses are commonly read: quotes and braces are let through in a path, and characters
beyond ASCII in a path and a query.
-/

namespace RemoteCall

/-- The parts of an address: the authority, and the path with its query. -/
structure Url where
  authority : List Char
  pathAndQuery : List Char
deriving DecidableEq, Repr

namespace Url

/-- The largest number of bytes of an address. -/
def maxLength : Nat := 65534

/-- Whether an address may hold the character outside an escape. -/
def isUrlChar (c : Char) : Bool :=
  ('a' ≤ c && c ≤ 'z') || ('A' ≤ c && c ≤ 'Z') || ('0' ≤ c && c ≤ '9') ||
    "!#$&'()*+,-./:;=?@_~[]".toList.contains c

/-- Whether a character ends the authority. -/
def endsAuthority (c : Char) : Bool :=
  c == '/' || c == '?' || c == '#'

/-- What has been seen of an authority. Colons and escapes before an `@` or inside brackets
do not count. -/
structure AuthorityState where
  colons : Nat := 0
  opened : Bool := false
  closed : Bool := false
  escaped : Bool := false
  endsInAt : Bool := false

/-- Looks at one character of an authority. -/
def AuthorityState.step (state : AuthorityState) (c : Char) : Option AuthorityState :=
  let state := { state with endsInAt := false }
  if c = ':' then if 8 ≤ state.colons then none else some { state with colons := state.colons + 1 }
  else if c = '[' then
    if state.escaped || state.opened then none else some { state with opened := true }
  else if c = ']' then
    if !state.opened || state.closed then none
    else some { state with closed := true, colons := 0, escaped := false }
  else if c = '@' then some { state with colons := 0, escaped := false, endsInAt := true }
  else if c = '%' then some { state with escaped := true }
  else if isUrlChar c then some state
  else none

/-- Whether the characters may be an authority. -/
def isAuthority (chars : List Char) : Bool :=
  match chars.foldlM AuthorityState.step {} with
  | some state =>
    !chars.isEmpty && state.opened == state.closed && state.colons ≤ 1 && !state.endsInAt &&
      !state.escaped
  | none => false

/-- Whether a query may hold the character. -/
def isQueryChar (c : Char) : Bool :=
  c == '!' || ('$' ≤ c && c ≤ ';') || c == '=' || ('?' ≤ c && c ≠ '\x7f')

/-- Whether a path may hold the character. -/
def isPathChar (c : Char) : Bool :=
  c == '!' || c == '"' || ('$' ≤ c && c ≤ ';') || c == '=' || ('@' ≤ c && c ≤ '_') ||
    ('a' ≤ c && c ≠ '\x7f')

/-- The path and the query before a fragment, if their characters are acceptable. -/
def pathAndQuery? (chars : List Char) : Option (List Char) :=
  let sent := chars.takeWhile (· != '#')
  let path := sent.takeWhile (· != '?')
  let query := sent.dropWhile (· != '?')
  if path.all isPathChar && query.all isQueryChar then some sent else none

/-- Reads an address. -/
def parse? (text : String) : Option Url :=
  let chars := text.toList
  let scheme := "http://".toList
  if maxLength < text.utf8ByteSize || (chars.take 7).map Char.toLower ≠ scheme then none
  else
    let rest := chars.drop 7
    let authority := rest.takeWhile (fun c => !endsAuthority c)
    if isAuthority authority then
      (pathAndQuery? (rest.dropWhile (fun c => !endsAuthority c))).map (Url.mk authority ·)
    else none

/-- What a request line asks for: the path, a slash if there is none, and the query. -/
def requestTarget (url : Url) : String :=
  match url.pathAndQuery with
  | '/' :: rest => String.ofList ('/' :: rest)
  | rest => String.ofList ('/' :: rest)

end Url

end RemoteCall
