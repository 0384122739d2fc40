import RemoteCall.Yaml.Token

/-!
# How tokens make up nodes

A node is a scalar, a copy, or a collection, with an anchor, a tag or both before it. In
brackets an item of a sequence that has a key is a mapping of one entry. Where a node is
left out, nothing stands for it.
-/

namespace RemoteCall.Yaml

/-- An anchor and a tag, where there are any. -/
structure Properties where
  anchor : Option Nat
  tag : Option Tag

namespace Properties

/-- Reads an anchor and a tag, in either order. -/
def read : List Token → Properties × List Token
  | .anchor number :: .tag tag :: rest => (⟨some number, some tag⟩, rest)
  | .tag tag :: .anchor number :: rest => (⟨some number, some tag⟩, rest)
  | .anchor number :: rest => (⟨some number, none⟩, rest)
  | .tag tag :: rest => (⟨none, some tag⟩, rest)
  | rest => (⟨none, none⟩, rest)

/-- Whether there is neither. -/
def isEmpty (properties : Properties) : Bool :=
  properties.anchor.isNone && properties.tag.isNone

/-- Gives them to a node. -/
def give (properties : Properties) (node : Node) : Node :=
  let tagged := properties.tag.elim node node.tagged
  properties.anchor.elim tagged (Node.anchored · tagged)

end Properties

/-- Where a node stands: in a block; in a block as a key or a value, where a sequence needs no
block of its own; or in brackets. -/
inductive Setting where
  | block
  | entry
  | brackets
deriving DecidableEq, Repr

/-- Whether a token begins the content of a node. -/
def Token.beginsContent (setting : Setting) : Token → Bool
  | .scalar _ _ => true
  | .openSequence => true
  | .openMapping => true
  | .dash => setting == .entry
  | .beginSequence => setting != .brackets
  | .beginMapping => setting != .brackets
  | _ => false

/-- Whether the tokens begin with one of some tokens. -/
def beginsWith (tokens : List Token) (any : List Token) : Bool :=
  tokens.head?.any any.contains

/-- The tokens after a comma. -/
def afterComma? : List Token → Option (List Token)
  | .comma :: rest => some rest
  | _ => none

mutual

/-- Reads a node. -/
def readNode (setting : Setting) : Nat → List Token → Option (Node × List Token)
  | 0, _ => none
  | _ + 1, .copy number :: rest => some (.copy number, rest)
  | fuel + 1, tokens =>
    let (properties, content) := Properties.read tokens
    if content.head?.any (Token.beginsContent setting) then do
      let (node, rest) ← readContent fuel content
      some (properties.give node, rest)
    else if properties.isEmpty then none
    else some (properties.give .empty, content)

/-- Reads the content of a node. -/
def readContent : Nat → List Token → Option (Node × List Token)
  | 0, _ => none
  | _ + 1, .scalar style text :: rest => some (.ofText style text, rest)
  | fuel + 1, .openSequence :: rest =>
    (readItems true fuel rest).map fun (items, last) => (.sequence items, last)
  | fuel + 1, .openMapping :: rest =>
    (readEntries true fuel rest).map fun (entries, last) => (.mapping entries, last)
  | fuel + 1, .beginSequence :: rest => do
    match ← readDashed fuel rest with
    | (items, .endBlock :: last) => some (.sequence items, last)
    | _ => none
  | fuel + 1, .beginMapping :: rest => do
    match ← readKeyed fuel rest with
    | (entries, .endBlock :: last) => some (.mapping entries, last)
    | _ => none
  | fuel + 1, tokens =>
    (readDashed fuel tokens).map fun (items, last) => (.sequence items, last)

/-- Reads a node that is left out before some tokens. -/
def readUnless (ends : List Token) (setting : Setting) :
    Nat → List Token → Option (Node × List Token)
  | 0, _ => none
  | fuel + 1, tokens =>
    if beginsWith tokens ends then some (.empty, tokens) else readNode setting fuel tokens

/-- Reads a value after its colon. Without a colon there is no value. -/
def readValueUnless (ends : List Token) (setting : Setting) :
    Nat → List Token → Option (Node × List Token)
  | 0, _ => none
  | fuel + 1, .value :: rest => readUnless ends setting fuel rest
  | _ + 1, tokens => some (.empty, tokens)

/-- Reads the items of a sequence in brackets, to its end. -/
def readItems (first : Bool) : Nat → List Token → Option (List Node × List Token)
  | 0, _ => none
  | _ + 1, .closeSequence :: rest => some ([], rest)
  | fuel + 1, tokens => do
    match ← if first then some tokens else afterComma? tokens with
    | .closeSequence :: rest => some ([], rest)
    | .key :: rest =>
      let (key, afterKey) ← readPairKey fuel rest
      let (value, next) ← readValueUnless [.comma, .closeSequence] .brackets fuel afterKey
      let (items, last) ← readItems false fuel next
      some (.mapping [(key, value)] :: items, last)
    | start =>
      let (item, next) ← readNode .brackets fuel start
      let (items, last) ← readItems false fuel next
      some (item :: items, last)

/-- Reads the key of an item of a sequence in brackets. One that is left out takes the token in
its place with it. -/
def readPairKey : Nat → List Token → Option (Node × List Token)
  | 0, _ => none
  | fuel + 1, tokens =>
    if beginsWith tokens [.value, .comma, .closeSequence] then some (.empty, tokens.drop 1)
    else readNode .brackets fuel tokens

/-- Reads the entries of a mapping in brackets, to its end. -/
def readEntries (first : Bool) : Nat → List Token → Option (List (Node × Node) × List Token)
  | 0, _ => none
  | _ + 1, .closeMapping :: rest => some ([], rest)
  | fuel + 1, tokens => do
    match ← if first then some tokens else afterComma? tokens with
    | .closeMapping :: rest => some ([], rest)
    | .key :: rest =>
      let (key, afterKey) ← readUnless [.value, .comma, .closeMapping] .brackets fuel rest
      let (value, next) ← readValueUnless [.comma, .closeMapping] .brackets fuel afterKey
      let (entries, last) ← readEntries false fuel next
      some ((key, value) :: entries, last)
    | start =>
      let (key, next) ← readNode .brackets fuel start
      let (entries, last) ← readEntries false fuel next
      some ((key, .empty) :: entries, last)

/-- Reads items with dashes, as long as there are any. -/
def readDashed : Nat → List Token → Option (List Node × List Token)
  | 0, _ => none
  | fuel + 1, .dash :: rest => do
    let (item, next) ← readUnless [.dash, .key, .value, .endBlock] .block fuel rest
    let (items, last) ← readDashed fuel next
    some (item :: items, last)
  | _ + 1, tokens => some ([], tokens)

/-- Reads the entries of a mapping in a block, as long as there are keys. -/
def readKeyed : Nat → List Token → Option (List (Node × Node) × List Token)
  | 0, _ => none
  | fuel + 1, .key :: rest => do
    let ends := [.key, .value, .endBlock]
    let (key, afterKey) ← readUnless ends .entry fuel rest
    let (value, next) ← readValueUnless ends .entry fuel afterKey
    let (entries, last) ← readKeyed fuel next
    some ((key, value) :: entries, last)
  | _ + 1, tokens => some ([], tokens)

end

end RemoteCall.Yaml
