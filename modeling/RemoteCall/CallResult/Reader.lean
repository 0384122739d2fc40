import RemoteCall.CallResult.Basic
import RemoteCall.Element.Reader

/-!
# Reading results

A result document has a `result` root without namespace and without text of its own.
Children named `param` and `data` that are in no namespace are read; all others are
skipped, so that newer servers can add to the document. The attributes of the root and
of parameters are looked up by local name in any namespace, first in document order.
-/

namespace RemoteCall

open Xml (Node Attribute)

/-- Why bytes are no result. Other formats than this one report in their own words. -/
inductive ParseError where
  | notUtf8
  | malformed
  | rootName (name : String)
  | rootNamespace (uri : String)
  | rootText (text : String)
  | conflictingCodes (errorcode code : String)
  | unnamedParameter
  | conflictingValues (name first second : String)
  | severalDataSections
  | other (detail : String)
deriving DecidableEq, Repr

namespace ParseError

/-- What is wrong, in words. -/
def message : ParseError → String
  | .notUtf8 => "The call result is not valid UTF-8."
  | .malformed =>
    "Unable to parse the call result as XML: the document is not well-formed"
  | .rootName name => s!"The root element is \"{name}\" instead of \"result\"."
  | .rootNamespace uri =>
    s!"The \"result\" element must not have a namespace, found \"{uri}\"."
  | .rootText text => s!"Found PCDATA content in the \"result\" element: \"{text}\"."
  | .conflictingCodes errorcode code =>
    "Found conflicting duplicate value for the error code: " ++
      s!"errorcode=\"{errorcode}\" and code=\"{code}\"."
  | .unnamedParameter => "No parameter name specified for a \"param\" element."
  | .conflictingValues name first second =>
    s!"Duplicate output parameter \"{name}\" with different values: " ++
      s!"\"{first}\" and \"{second}\"."
  | .severalDataSections => "Found duplicate data sections in the \"result\" element."
  | .other detail => detail

/-- Whether another failure lies behind this one. -/
def hasSource : ParseError → Bool
  | .notUtf8 => true
  | .malformed => true
  | _ => false

end ParseError

namespace CallResult

/-- The value of the first attribute with the local name, whatever its namespace. -/
def attributeNamed? (name : String) (attributes : List Attribute) : Option String :=
  (attributes.find? (fun candidate => candidate.localName = name)).map Attribute.value

/-- The error code, from either of the attributes that may hold it. -/
def readCode (attributes : List Attribute) : Except ParseError (Option String) :=
  let errorcode := Element.nonEmpty (attributeNamed? "errorcode" attributes)
  let code := Element.nonEmpty (attributeNamed? "code" attributes)
  match errorcode, code with
  | some a, some b => if a = b then .ok (some a) else .error (.conflictingCodes a b)
  | some a, none => .ok (some a)
  | none, code => .ok code

/-- Whether the node is an element. -/
def isElement : Node → Bool
  | .element .. => true
  | _ => false

/-- The value of a parameter: the source of its content if that holds markup, else its text. -/
def parameterValue (content : List Node) : String :=
  if content.any isElement then String.ofList (Node.verbatim content)
  else String.ofList (Element.textOfNodes content)

/-- Adds a parameter. An empty value is not kept, and a repeated one must be the same. -/
def readParameter (attributes : List Attribute) (content : List Node) (parameters : Parameters) :
    Except ParseError Parameters :=
  match Element.nonEmpty (attributeNamed? "name" attributes) with
  | none => .error .unnamedParameter
  | some name =>
    let value := parameterValue content
    if value = "" then .ok parameters
    else
      match parameters.get? name with
      | none => .ok (parameters.insert name value)
      | some existing =>
        if existing = value then .ok parameters
        else .error (.conflictingValues name existing value)

/-- Reads the children of the root, after what has been read so far. -/
def readChildren (parameters : Parameters) (data : Option Element) :
    List Node → Except ParseError (Parameters × Option Element)
  | [] => .ok (parameters, data)
  | .element uri name attributes content opening closing :: rest =>
    if uri.isSome then readChildren parameters data rest
    else if name = "param" then
      match readParameter attributes content parameters with
      | .ok parameters => readChildren parameters data rest
      | .error e => .error e
    else if name = "data" then
      if data.isSome then .error .severalDataSections
      else
        readChildren parameters
          (Element.ofNode? (.element uri name attributes content opening closing)) rest
    else readChildren parameters data rest
  | _ :: rest => readChildren parameters data rest

/-- The first text among the nodes that is not blank. -/
def strayText? (nodes : List Node) : Option String :=
  nodes.findSome? fun
    | .text content _ _ =>
      let trimmed := Text.trim (String.ofList content)
      if trimmed = "" then none else some trimmed
    | _ => none

/-- Reads the root of a document. -/
def ofRoot : Node → Except ParseError CallResult
  | .element uri name attributes content _ _ => do
    if name ≠ "result" then .error (.rootName name)
    else
      match uri, strayText? content with
      | some uri, _ => .error (.rootNamespace uri)
      | none, some text => .error (.rootText text)
      | none, none =>
        let code ← readCode attributes
        let (parameters, data) ← readChildren Dictionary.empty none content
        .ok (make code parameters data)
  | _ => .error .malformed

/-- Drops a byte order mark. -/
def dropByteOrderMark (text : String) : String :=
  match text.toList with
  | '\uFEFF' :: rest => String.ofList rest
  | _ => text

/-- Reads the text of a document. -/
def parseText (text : String) : Except ParseError CallResult :=
  match Xml.parse? (dropByteOrderMark text) with
  | some root => ofRoot root
  | none => .error .malformed

/-- Reads the bytes of a document. -/
def parse (bytes : ByteArray) : Except ParseError CallResult :=
  match String.fromUTF8? bytes with
  | some text => parseText text
  | none => .error .notUtf8

end CallResult

end RemoteCall
