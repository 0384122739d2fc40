import RemoteCall.Element.Basic

/-!
# Elements of documents

A document node becomes an element: its attributes and element children in document
order, and its text nodes put together. Asides are left out.
-/

namespace RemoteCall.Element

open Xml (Node)

/-- The text of the nodes put together, asides and elements left out. -/
def textOfNodes (nodes : List Node) : List Char :=
  nodes.flatMap fun
    | .text content _ _ => content
    | _ => []

mutual

/-- The element that a node is, if it is one. -/
def ofNode? : Node → Option Element
  | .element uri name attributes nodes _ _ =>
    let children := ofNodes nodes
    some (.mk name uri attributes children
      (keptText children (some (String.ofList (textOfNodes nodes)))))
  | _ => none

/-- The elements among the nodes. -/
def ofNodes : List Node → List Element
  | [] => []
  | node :: rest =>
    match ofNode? node with
    | some element => element :: ofNodes rest
    | none => ofNodes rest

end

/-- The root element of a document. -/
def parse (xml : String) : Except ElementError Element :=
  match (Xml.parse? xml).bind ofNode? with
  | some element => .ok element
  | none => .error .malformed

end RemoteCall.Element
