import RemoteCall.Yaml.Tag

/-!
# Nodes of a document

A document is a tree of scalars, sequences and mappings. A scalar keeps its text and how
it was written, because only a plain one can stand for anything but a text. A node that
has an anchor may be repeated elsewhere, even within itself.
-/

namespace RemoteCall.Yaml

/-- How a scalar is written. -/
inductive ScalarStyle where
  | plain
  | quoted
  | literal
  | folded
deriving DecidableEq, Repr

/-- A scalar with its text and its tag. -/
structure Scalar where
  text : String
  style : ScalarStyle
  tag : Option Tag
deriving DecidableEq, Repr

/-- A node. The entries of a mapping are listed as they are written, repeated keys
included. A copy stands for the node that has the anchor with its number. -/
inductive Node where
  | scalar (content : Scalar)
  | sequence (items : List Node)
  | mapping (entries : List (Node × Node))
  | anchored (number : Nat) (node : Node)
  | copy (number : Nat)

namespace Node

/-- A scalar without tag. -/
def ofText (style : ScalarStyle) (text : List Char) : Node :=
  .scalar ⟨String.ofList text, style, none⟩

/-- The node where nothing is written. -/
def empty : Node := ofText .plain []

/-- Gives a scalar a tag. The tag of a collection makes no difference. -/
def tagged (tag : Tag) : Node → Node
  | .scalar content => .scalar { content with tag := some tag }
  | node => node

mutual

/-- The nodes that have anchors, with their numbers, in the order in which they begin. -/
def anchors : Node → List (Nat × Node)
  | .scalar _ => []
  | .sequence items => anchorsOfItems items
  | .mapping entries => anchorsOfEntries entries
  | .anchored number node => (number, node) :: anchors node
  | .copy _ => []

/-- The nodes that have anchors among the items of a sequence. -/
def anchorsOfItems : List Node → List (Nat × Node)
  | [] => []
  | item :: rest => anchors item ++ anchorsOfItems rest

/-- The nodes that have anchors among the keys and values of a mapping. -/
def anchorsOfEntries : List (Node × Node) → List (Nat × Node)
  | [] => []
  | (key, value) :: rest => anchors key ++ anchors value ++ anchorsOfEntries rest

end

end Node

end RemoteCall.Yaml
