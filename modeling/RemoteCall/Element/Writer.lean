import RemoteCall.Element.Basic
import RemoteCall.Xml.Markup

/-!
# Elements as markup

An element declares its namespace as the default one where it differs from that of its
parent. Attributes in a namespace get the prefixes `ns0`, `ns1` and so on, each declared
right before its use. Text comes before the children.
-/

namespace RemoteCall.Element

open Xml (Attribute Markup escapeAttribute escapeText)

/-- Writes the attributes; the next prefix has the number `index`. -/
def attributeMarkup (index : Nat) : List Attribute → List (String × String)
  | [] => []
  | ⟨none, name, value⟩ :: rest => (name, escapeAttribute value) :: attributeMarkup index rest
  | ⟨some uri, name, value⟩ :: rest =>
    let scope := "ns" ++ Text.naturalText index
    ("xmlns:" ++ scope, escapeAttribute uri) :: (scope ++ ":" ++ name, escapeAttribute value) ::
      attributeMarkup (index + 1) rest

/-- The attributes of a tag below a parent in the namespace `outer`. -/
def tagAttributes (outer uri : Option String) (attributes : List Attribute) :
    List (String × String) :=
  let declaration := if uri = outer then [] else [("xmlns", escapeAttribute (uri.getD ""))]
  declaration ++ attributeMarkup 0 attributes

mutual

/-- The markup of an element below a parent in the namespace `outer`. -/
def markupIn (outer : Option String) : Element → List Markup
  | .mk name uri attributes children text =>
    let tag := tagAttributes outer uri attributes
    if children.isEmpty && text.isNone then [.emptyTag name tag]
    else
      .startTag name tag :: ((text.map (fun t => Markup.text (escapeText t))).toList ++
        markupAll uri children ++ [.endTag name])

/-- The markup of elements below a parent in the namespace `outer`. -/
def markupAll (outer : Option String) : List Element → List Markup
  | [] => []
  | element :: rest => markupIn outer element ++ markupAll outer rest

end

/-- The markup of an element that stands alone. -/
def markup (element : Element) : List Markup :=
  markupIn none element

/-- The text of an element that stands alone, without a declaration. -/
def toXml (element : Element) : String :=
  Markup.textOf element.markup

end RemoteCall.Element
