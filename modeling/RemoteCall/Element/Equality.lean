import RemoteCall.Element.Basic

/-!
# Equality of elements

Two elements are the same when name, namespace and text agree, the children are the
same one by one, and the attributes agree whatever their order. The attributes are
compared after sorting them by namespace, name and value.
-/

namespace RemoteCall.Element

open Xml (Attribute)

/-- Whether one text is absent or comes before the other. -/
def optionalBefore : Option String → Option String → Bool
  | none, some _ => true
  | some a, some b => a < b
  | _, none => false

/-- Whether one attribute does not come after the other. -/
def attributeLe (a b : Attribute) : Bool :=
  if a.namespaceUri ≠ b.namespaceUri then optionalBefore a.namespaceUri b.namespaceUri
  else if a.localName ≠ b.localName then a.localName < b.localName
  else a.value ≤ b.value

/-- The attributes in their own order. -/
def sortedAttributes (attributes : List Attribute) : List Attribute :=
  attributes.mergeSort attributeLe

mutual

/-- Whether two elements are the same. -/
def same : Element → Element → Bool
  | .mk name uri attributes children text, .mk name' uri' attributes' children' text' =>
    name = name' && uri = uri' && text = text' &&
      sortedAttributes attributes = sortedAttributes attributes' && sameAll children children'

/-- Whether elements are the same one by one. -/
def sameAll : List Element → List Element → Bool
  | [], [] => true
  | a :: as, b :: bs => same a b && sameAll as bs
  | _, _ => false

end

instance : BEq Element := ⟨same⟩

end RemoteCall.Element
