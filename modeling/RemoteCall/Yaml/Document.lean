import RemoteCall.Yaml.Lexer
import RemoteCall.Yaml.Structure

/-!
# Documents

A text holds one document. Directives and dashes may mark its start, and dots its end,
after which nothing follows.
-/

namespace RemoteCall.Yaml

/-- A document: its root, and the nodes that have anchors. -/
structure Document where
  root : Node
  anchors : List (Nat × Node)

namespace Document

/-- The document with a root. Of nodes whose anchors have the same number the last counts. -/
def ofRoot (root : Node) : Document := ⟨root, root.anchors.reverse⟩

/-- What a node of the document is without its anchor; a copy is the node that it repeats. -/
def content (document : Document) : Node → Node
  | .anchored _ node => node
  | .copy number => (document.anchors.lookup number).getD .empty
  | node => node

end Document

/-- How deep the readers of nodes call each other, at most, for a number of tokens: each takes
a token at the latest after four calls. -/
def fuelFor (count : Nat) : Nat := 4 * count + 8

/-- Reads the root of a document, after the marks of its start. Directives need dashes after
them, and after dashes the root may be left out. -/
def readRoot (tokens : List Token) : Option (Node × List Token) :=
  let fuel := fuelFor tokens.length
  match tokens.dropWhile (· == .directive) with
  | [] => if tokens.isEmpty then some (.empty, []) else none
  | [.documentStart] => some (.empty, [])
  | .documentStart :: rest =>
    readUnless [.directive, .documentStart, .documentEnd] .block fuel rest
  | rest => if tokens.head? == some .directive then none else readNode .block fuel rest

/-- The document that a whole text spells. -/
def parse? (text : String) : Option Document := do
  if !text.toList.all isAllowed then none
  else
    let (root, rest) ← readRoot (← readTokens (uniformBreaks text.toList))
    if rest.all (· == .documentEnd) then some (Document.ofRoot root) else none

end RemoteCall.Yaml
