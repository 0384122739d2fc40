import RemoteCall.Yaml.Node

/-!
# Tokens

The tokens of a document. Indicators and scalars are written; the tokens that begin and
end a block follow from the columns, and so does the one before a key that a colon ends.
-/

namespace RemoteCall.Yaml

/-- A token. Tags are complete, and the names of anchors are replaced by numbers. -/
inductive Token where
  | directive
  | documentStart
  | documentEnd
  | beginSequence
  | beginMapping
  | endBlock
  | openSequence
  | closeSequence
  | openMapping
  | closeMapping
  | comma
  | dash
  | key
  | value
  | anchor (number : Nat)
  | copy (number : Nat)
  | tag (tag : Tag)
  | scalar (style : ScalarStyle) (text : List Char)
deriving DecidableEq, Repr

end RemoteCall.Yaml
