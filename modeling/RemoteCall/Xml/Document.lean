import RemoteCall.Xml.Tree

/-!
# Documents with namespaces

Names are resolved against the namespace declarations in scope, references and line
ends are normalized, and adjacent text and `CDATA` sections become one text node. A
prefix, or the absence of one, may be bound to the empty name, which is not the same as
no namespace.
-/

namespace RemoteCall.Xml

/-- An attribute with its namespace. -/
structure Attribute where
  namespaceUri : Option String
  localName : String
  value : String
deriving DecidableEq, Repr

/-- A node of a document. An element keeps the characters of its two tags. A text node
keeps the characters of the first piece it was made of apart from those of later pieces. -/
inductive Node where
  | element (namespaceUri : Option String) (localName : String) (attributes : List Attribute)
      (children : List Node) (opening closing : List Char)
  | text (content first later : List Char)
  | aside (source : List Char)

mutual

/-- Decides whether two nodes are the same. -/
def Node.decEq : (node other : Node) → Decidable (node = other)
  | .element uri name attributes children opening closing,
    .element uri' name' attributes' children' opening' closing' =>
    match Node.decEqAll children children' with
    | isTrue h => decidable_of_iff (uri = uri' ∧ name = name' ∧ attributes = attributes' ∧
        opening = opening' ∧ closing = closing') (by simp [h])
    | isFalse h => isFalse (by simp [h])
  | .text content first later, .text content' first' later' =>
    decidable_of_iff (content = content' ∧ first = first' ∧ later = later') (by simp)
  | .aside source, .aside source' => decidable_of_iff (source = source') (by simp)
  | .element .., .text .. => isFalse nofun
  | .element .., .aside .. => isFalse nofun
  | .text .., .element .. => isFalse nofun
  | .text .., .aside .. => isFalse nofun
  | .aside .., .element .. => isFalse nofun
  | .aside .., .text .. => isFalse nofun

/-- Decides whether two sequences of nodes are the same. -/
def Node.decEqAll : (nodes others : List Node) → Decidable (nodes = others)
  | [], [] => isTrue rfl
  | [], _ :: _ => isFalse nofun
  | _ :: _, [] => isFalse nofun
  | node :: nodes, other :: others =>
    match Node.decEq node other, Node.decEqAll nodes others with
    | isTrue h, isTrue h' => isTrue (by rw [h, h'])
    | isFalse h, _ => isFalse (by simp [h])
    | _, isFalse h' => isFalse (by simp [h'])

end

instance : DecidableEq Node := Node.decEq

/-- The namespace of the prefix `xml`. -/
def xmlNamespace : String := "http://www.w3.org/XML/1998/namespace"

/-- The namespace of the prefix `xmlns`. -/
def xmlnsNamespace : String := "http://www.w3.org/2000/xmlns/"

/-- A prefix, or none for names without one, and the namespace it is bound to. -/
abbrev Binding := Option (List Char) × String

/-- What an attribute of a tag is: a binding, one that has no effect, or a plain attribute. -/
inductive Declared where
  | binding (binding : Binding)
  | idle
  | plain (name : QName) (value : String)

/-- The value of an attribute. -/
def attributeValue (raw : List Char) : Option String := do
  some (String.ofList (normalizeAttribute (← readWritten raw)))

/-- Tells the namespace declarations among the attributes. The prefix `xml` keeps its
namespace, no other prefix takes it, and nothing takes that of `xmlns`. -/
def declared (raw : RawAttribute) : Option Declared := do
  let value ← attributeValue raw.value
  if raw.name.scope = "xmlns".toList then
    if value = xmlnsNamespace then none
    else if raw.name.localPart = "xml".toList then
      if value = xmlNamespace then some .idle else none
    else if value = xmlNamespace then none
    else some (.binding (some raw.name.localPart, value))
  else if raw.name.localPart = "xmlns".toList then
    if value = xmlNamespace ∨ value = xmlnsNamespace then none
    else some (.binding (none, value))
  else some (.plain raw.name value)

/-- The bindings that a tag makes, in order. No prefix is bound twice. -/
def bindingsOf (attributes : List Declared) : Option (List Binding) :=
  let bindings := attributes.filterMap fun
    | .binding binding => some binding
    | _ => none
  let prefixes := bindings.filterMap Prod.fst
  if prefixes.Nodup then some bindings else none

/-- The namespace that a prefix is bound to. The innermost binding counts, of two in one
tag the first. -/
def lookUp (scope : List Binding) (name : Option (List Char)) : Option String :=
  (scope.find? (fun binding => binding.1 = name)).map Prod.snd

/-- The namespace of an element; a prefix must be bound by a tag. No element has the prefix
`xml` or `xmlns`, whose namespaces are for attributes. -/
def elementNamespace (scope : List Binding) (name : QName) : Option (Option String) :=
  if name.scope = "xmlns".toList then none
  else if name.scope.isEmpty then some (lookUp scope none)
  else (lookUp scope (some name.scope)).map some

/-- The namespace of an attribute; one without a prefix has none, and the prefix `xml` needs
no binding. -/
def attributeNamespace (scope : List Binding) (name : QName) : Option (Option String) :=
  if name.scope.isEmpty then some none
  else if name.scope = "xml".toList then some (some xmlNamespace)
  else (lookUp scope (some name.scope)).map some

/-- The attributes of an element that are no namespace declarations. No two have the same
namespace and local name. -/
def attributesOf (scope : List Binding) (attributes : List Declared) : Option (List Attribute) := do
  let resolved ← (attributes.filterMap fun
    | .plain name value => some (name, value)
    | _ => none).mapM fun (name, value) => do
      let uri ← attributeNamespace scope name
      some (Attribute.mk uri (String.ofList name.localPart) value)
  if (resolved.map fun a => (a.namespaceUri, a.localName)).Nodup then
    some resolved
  else none

/-- Makes adjacent text nodes one. -/
def mergeText : List Node → List Node
  | [] => []
  | node :: rest =>
    match node, mergeText rest with
    | .text content first later, .text content' first' later' :: rest =>
      .text (content ++ content') first (later ++ first' ++ later') :: rest
    | node, rest => node :: rest

mutual

/-- Resolves a node under the bindings in scope. -/
def resolve (scope : List Binding) : Tree → Option Node
  | .element tag opening content closing => do
    let attributes ← tag.attributes.mapM declared
    let inner := (← bindingsOf attributes) ++ scope
    let uri ← elementNamespace inner tag.name
    let resolved ← attributesOf inner attributes
    let children ← resolveAll inner content
    some (.element uri (String.ofList tag.name.localPart) resolved (mergeText children)
      opening closing)
  | .text source => do
    some (.text (normalizeText false (← readWritten source)) source [])
  | .characterData content source =>
    some (.text (normalizeText false (content.map .plain)) source [])
  | .aside source => some (.aside source)

/-- Resolves the nodes under the bindings in scope. -/
def resolveAll (scope : List Binding) : List Tree → Option (List Node)
  | [] => some []
  | tree :: rest => do some ((← resolve scope tree) :: (← resolveAll scope rest))

end

/-- The root element of the document that the text makes up, if it is one. -/
def parse? (text : String) : Option Node := do
  resolve [] (← readTree text.toList)

/-- Whether the text is a well-formed document. -/
def isWellFormed (text : String) : Bool :=
  (parse? text).isSome

mutual

/-- The characters a node was read from. -/
def Node.source : Node → List Char
  | .element _ _ _ children opening closing => opening ++ Node.sources children ++ closing
  | .text _ first later => first ++ later
  | .aside source => source

/-- The characters the nodes were read from. -/
def Node.sources : List Node → List Char
  | [] => []
  | node :: rest => node.source ++ Node.sources rest

end

/-- The characters from the start of the first node to the end of the last, where a text
node at the end counts with its first piece only. -/
def Node.verbatim : List Node → List Char
  | [] => []
  | [.text _ first _] => first
  | node :: rest => node.source ++ Node.verbatim rest

end RemoteCall.Xml
