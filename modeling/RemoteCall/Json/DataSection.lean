import RemoteCall.Convention.Error
import RemoteCall.Json.Reader

/-!
# Data sections as JSON

Reading, each member of an object becomes a child element, an array repeated elements,
and a scalar text. Writing, an element with nothing but text becomes a string; any other
becomes an object of its attributes, its children, with those of one name in an array,
and its text under `content`.
-/

namespace RemoteCall.Json

open Xml (Attribute)

/-- The text that a scalar stands for; null stands for none. -/
def scalarText : Json → Option String
  | .bool true => some "true"
  | .bool false => some "false"
  | .number value => some (String.ofList value.render)
  | .string text => some text
  | _ => none

/-- The element with children and text. -/
def leafOrNode (name : String) (children : List Element) (text : Option String) : Element :=
  .mk name none [] children (Element.keptText children text)

mutual

/-- The element with a name that a value becomes. -/
def toElement (name : String) : Json → Except RequestFault Element
  | .object members =>
    if !isName name then .error (.elementName name)
    else
      match toChildren members with
      | .ok children => .ok (leafOrNode name children none)
      | .error fault => .error fault
  | .array _ =>
    if !isName name then .error (.elementName name) else .error (.nestedArray name)
  | scalar =>
    if !isName name then .error (.elementName name)
    else .ok (leafOrNode name [] (scalarText scalar))

/-- The elements that the items of an array become, all of one name. -/
def toElements (name : String) : List Json → Except RequestFault (List Element)
  | [] => .ok []
  | item :: rest =>
    match toElement name item with
    | .error fault => .error fault
    | .ok element =>
      match toElements name rest with
      | .error fault => .error fault
      | .ok elements => .ok (element :: elements)

/-- The elements that members become, in the order of their names. -/
def toChildren : List (String × Json) → Except RequestFault (List Element)
  | [] => .ok []
  | (name, .array items) :: rest =>
    match toElements name items with
    | .error fault => .error fault
    | .ok elements =>
      match toChildren rest with
      | .error fault => .error fault
      | .ok others => .ok (elements ++ others)
  | (name, value) :: rest =>
    match toElement name value with
    | .error fault => .error fault
    | .ok element =>
      match toChildren rest with
      | .error fault => .error fault
      | .ok others => .ok (element :: others)

end

/-- The data section that a JSON text spells. -/
def readDataSection (text : String) : Except RequestFault Element :=
  match parse? text with
  | none => .error .malformedJson
  | some value =>
    if value.isObject then value.toElement "data" else .error .dataNotObject

/-- The members that attributes become; of two with one local name the later stays. -/
def attributeMembers (attributes : List Attribute) : List (String × Json) :=
  Entries.ofList (attributes.map fun a => (a.localName, .string a.value))

/-- Adds the value of a child to the members, to those of the same name if there are any. -/
def addMember (members : List (String × Json)) (child : String × Json) : List (String × Json) :=
  match Entries.find? child.1 members with
  | none => Entries.insert child.1 child.2 members
  | some (.array items) => Entries.insert child.1 (.array (items ++ [child.2])) members
  | some first => Entries.insert child.1 (.array [first, child.2]) members

/-- The members that attributes, the values of children, and text become. -/
def gatherMembers (attributes : List Attribute) (children : List (String × Json))
    (text : Option String) : List (String × Json) :=
  let members := children.foldl addMember (attributeMembers attributes)
  match text with
  | some text => Entries.insert "content" (.string text) members
  | none => members

mutual

/-- The value that an element becomes. -/
def ofElement : Element → Json
  | .mk _ _ attributes children text =>
    if attributes.isEmpty && children.isEmpty then .string (text.getD "")
    else .object (gatherMembers attributes (ofChildren children) text)

/-- The values that children become, with their names. -/
def ofChildren : List Element → List (String × Json)
  | [] => []
  | child :: rest => (child.localName, ofElement child) :: ofChildren rest

end

/-- The object that a data section becomes. -/
def ofDataSection (data : Element) : Json :=
  .object (gatherMembers data.attributes (ofChildren data.children) data.text)

/-- The member that holds the error code. -/
def errorCodeMember : String := "errorCode"

/-- The member that holds the data section. -/
def dataMember : String := "data"

/-- The object that a result becomes. A parameter is left out if its name belongs to the
error code or the data section, or if its name or value is empty. -/
def ofResult (result : CallResult) : Json :=
  let code := (result.code.map fun code => (errorCodeMember, Json.string code)).toList
  let parameters := result.parameters.entries.filterMap fun (name, value) =>
    if name = errorCodeMember ∨ name = dataMember ∨ name = "" ∨ value = "" then none
    else some (name, Json.string value)
  let data := (result.data.map fun data => (dataMember, ofDataSection data)).toList
  ofMembers (code ++ parameters ++ data)

end RemoteCall.Json
