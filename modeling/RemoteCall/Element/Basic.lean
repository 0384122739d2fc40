import RemoteCall.Xml.Document
import RemoteCall.Text.Blank
import RemoteCall.Text.Integer

/-!
# Elements

An element has a name, perhaps a namespace, attributes in the order they were set,
children in order, and perhaps text. Text that is only blank is kept in a leaf and
dropped once there are children, in building and in reading alike.
-/

namespace RemoteCall

open Xml (Attribute)

/-- A tree of named elements. -/
inductive Element where
  | mk (localName : String) (namespaceUri : Option String) (attributes : List Attribute)
      (children : List Element) (text : Option String)
deriving Repr

/-- Why an element cannot be made or found. -/
inductive ElementError where
  | emptyName
  | noSuchChild (parent name : String)
  | severalChildren (parent name : String) (count : Nat)
  | malformed
deriving DecidableEq, Repr

/-- What is wrong, in words. -/
def ElementError.message : ElementError → String
  | .emptyName => "element name must not be empty"
  | .noSuchChild parent name => s!"no \"{name}\" child element found in \"{parent}\""
  | .severalChildren parent name count =>
    s!"found {Text.naturalText count} \"{name}\" child elements in \"{parent}\" " ++
      "while exactly one was expected"
  | .malformed => "unable to parse XML: the document is not well-formed"

namespace Element

/-- The name without a prefix. -/
def localName : Element → String
  | .mk name _ _ _ _ => name

/-- The namespace, if there is one. -/
def namespaceUri : Element → Option String
  | .mk _ uri _ _ _ => uri

/-- The attributes in the order they were set. -/
def attributes : Element → List Attribute
  | .mk _ _ attributes _ _ => attributes

/-- The children in order. -/
def children : Element → List Element
  | .mk _ _ _ children _ => children

/-- The text, if there is any. -/
def text : Element → Option String
  | .mk _ _ _ _ text => text

/-- A text or name that is not empty. -/
def nonEmpty (value : Option String) : Option String :=
  value.filter (· ≠ "")

/-- The text that an element with these children keeps: none if it is empty, or if it is
only blank and there are children. -/
def keptText (children : List Element) (text : Option String) : Option String :=
  (nonEmpty text).filter fun t => children.isEmpty || !Text.isBlankText t

/-- An element with nothing but a name. -/
def named (name : String) : Element :=
  .mk name none [] [] none

/-- An empty element in a namespace; the empty namespace is none. -/
def make (name : String) (namespaceUri : Option String) : Except ElementError Element :=
  if name = "" then .error .emptyName else .ok (.mk name (nonEmpty namespaceUri) [] [] none)

/-- Whether an attribute has the namespace and the local name. -/
def hasKey (namespaceUri : Option String) (name : String) (candidate : Attribute) : Bool :=
  candidate.localName = name && candidate.namespaceUri = namespaceUri

/-- Replaces the value of the first attribute with the key, or adds the attribute at the end. -/
def putAttribute (namespaceUri : Option String) (name value : String) :
    List Attribute → List Attribute
  | [] => [⟨namespaceUri, name, value⟩]
  | first :: rest =>
    if hasKey namespaceUri name first then { first with value := value } :: rest
    else first :: putAttribute namespaceUri name value rest

/-- Sets an attribute in a namespace; the empty namespace is none. -/
def setAttributeNs (namespaceUri : Option String) (name value : String) : Element → Element
  | .mk localName uri attributes children text =>
    .mk localName uri (putAttribute (nonEmpty namespaceUri) name value attributes) children text

/-- Sets an attribute without namespace. -/
def setAttribute (name value : String) (element : Element) : Element :=
  element.setAttributeNs none name value

/-- Sets or removes the text. -/
def setText (text : Option String) : Element → Element
  | .mk localName uri attributes children _ =>
    .mk localName uri attributes children (keptText children text)

/-- Adds a child after the others. -/
def addChild : Element → Element → Element
  | .mk localName uri attributes children text, child =>
    let children := children ++ [child]
    .mk localName uri attributes children (keptText children text)

/-- The value of the attribute in a namespace. -/
def attributeNs? (element : Element) (namespaceUri : Option String) (name : String) :
    Option String :=
  (element.attributes.find? (hasKey namespaceUri name)).map Attribute.value

/-- The value of the attribute without namespace. -/
def attribute? (element : Element) (name : String) : Option String :=
  element.attributeNs? none name

/-- The direct children with the local name, in order. -/
def childrenNamed (element : Element) (name : String) : List Element :=
  element.children.filter (fun child => child.localName = name)

/-- The only direct child with the local name. -/
def uniqueChild (element : Element) (name : String) : Except ElementError Element :=
  match element.childrenNamed name with
  | [] => .error (.noSuchChild element.localName name)
  | [child] => .ok child
  | several => .error (.severalChildren element.localName name several.length)

/-- Whether there are no attributes, no children and no text. -/
def isEmpty (element : Element) : Bool :=
  element.attributes.isEmpty && element.children.isEmpty && element.text.isNone

end Element

end RemoteCall
