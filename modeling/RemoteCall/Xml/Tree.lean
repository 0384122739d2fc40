import RemoteCall.Xml.Lexeme

/-!
# Trees of lexemes

Lexemes nest: every start tag has its end tag, with the same name. A tree keeps the
sources of its lexemes, and `Tree.source` gives back the characters it was read from.
-/

namespace RemoteCall.Xml

/-- A node of a document before names and references are looked at. -/
inductive Tree where
  | element (tag : Tag) (opening : List Char) (content : List Tree) (closing : List Char)
  | text (source : List Char)
  | characterData (content source : List Char)
  | aside (source : List Char)

mutual

/-- The characters a node was read from. -/
def Tree.source : Tree → List Char
  | .element _ opening content closing => opening ++ Tree.sources content ++ closing
  | .text source => source
  | .characterData _ source => source
  | .aside source => source

/-- The characters the nodes were read from. -/
def Tree.sources : List Tree → List Char
  | [] => []
  | tree :: rest => tree.source ++ Tree.sources rest

end

/-- An element whose end tag is still to come, with the nodes before it, latest first. -/
structure OpenElement where
  tag : Tag
  opening : List Char
  before : List Tree

/-- Nests the lexemes. `siblings` are the nodes of the innermost open element, latest first. -/
def nest : List OpenElement → List Tree → List Lexeme → Option (List Tree)
  | [], siblings, [] => some siblings.reverse
  | _ :: _, _, [] => none
  | stack, siblings, ⟨.startTag tag, source⟩ :: rest =>
    nest (⟨tag, source, siblings⟩ :: stack) [] rest
  | stack, siblings, ⟨.emptyTag tag, source⟩ :: rest =>
    nest stack (.element tag source [] [] :: siblings) rest
  | [], _, ⟨.endTag _, _⟩ :: _ => none
  | outer :: stack, siblings, ⟨.endTag name, source⟩ :: rest =>
    if outer.tag.name = name then
      nest stack (.element outer.tag outer.opening siblings.reverse source :: outer.before) rest
    else none
  | stack, siblings, ⟨.text, source⟩ :: rest => nest stack (.text source :: siblings) rest
  | stack, siblings, ⟨.characterData content, source⟩ :: rest =>
    nest stack (.characterData content source :: siblings) rest
  | stack, siblings, ⟨.aside, source⟩ :: rest => nest stack (.aside source :: siblings) rest

/-- The root among the nodes of a document: its only element. Beside it stand asides and space. -/
def rootOf? : List Tree → Option Tree
  | [] => none
  | .element tag opening content closing :: rest =>
    if rest.all isMisc then some (.element tag opening content closing) else none
  | tree :: rest => if isMisc tree then rootOf? rest else none
where
  /-- Whether the node may stand beside the root. -/
  isMisc : Tree → Bool
    | .text source => source.all isSpace
    | .aside _ => true
    | _ => false

/-- The root of the document that the characters make up. -/
def readTree (chars : List Char) : Option Tree := do
  if chars.all isXmlChar then
    let lexemes ← readLexemes (← skipProlog chars)
    rootOf? (← nest [] [] lexemes)
  else none

end RemoteCall.Xml
