import RemoteCall.Xml.Reference

/-!
# Lexemes

A document, after its declaration, is a sequence of tags, text, `CDATA` sections,
comments and processing instructions. A lexeme keeps what it says and the characters it
was read from, so the sources of all lexemes put together are the document.
-/

namespace RemoteCall.Xml

/-- An attribute as it is written: its value with references not yet replaced. -/
structure RawAttribute where
  name : QName
  value : List Char
deriving DecidableEq, Repr

/-- The name and the attributes of a start tag. -/
structure Tag where
  name : QName
  attributes : List RawAttribute
deriving DecidableEq, Repr

/-- What a piece of a document says. An aside is a comment or a processing instruction. -/
inductive Token where
  | startTag (tag : Tag)
  | emptyTag (tag : Tag)
  | endTag (name : QName)
  | text
  | characterData (content : List Char)
  | aside
deriving DecidableEq, Repr

/-- A piece of a document with the characters it was read from. -/
structure Lexeme where
  token : Token
  source : List Char
deriving DecidableEq, Repr

/-- Whether the marker occurs in the characters. -/
def contains (marker : List Char) : List Char → Bool
  | [] => marker.isEmpty
  | c :: rest => marker.isPrefixOf (c :: rest) || contains marker rest

/-- The characters before the first occurrence of the marker, and those after it. -/
def breakOn (marker : List Char) : List Char → Option (List Char × List Char)
  | [] => none
  | c :: rest =>
    if marker.isPrefixOf (c :: rest) then some ([], (c :: rest).drop marker.length)
    else (breakOn marker rest).map fun (before, after) => (c :: before, after)

/-- Drops leading space. -/
def skipSpace (chars : List Char) : List Char :=
  chars.dropWhile isSpace

/-- Reads an equals sign and a quoted value. -/
def readValue (chars : List Char) : Option (List Char × List Char) :=
  match skipSpace chars with
  | '=' :: rest =>
    match skipSpace rest with
    | quote :: rest =>
      if quote == '"' || quote == '\'' then
        let value := rest.takeWhile (fun c => c != quote && c != '<')
        match rest.dropWhile (fun c => c != quote && c != '<') with
        | c :: after => if c == quote then some (value, after) else none
        | [] => none
      else none
    | [] => none
  | _ => none

/-- Reads an attribute. -/
def readAttribute (chars : List Char) : Option (RawAttribute × List Char) := do
  let (name, rest) ← readQName chars
  let (value, rest) ← readValue rest
  some (⟨name, value⟩, rest)

/-- Reads the attributes and the end of a tag; says whether the tag is empty. Every
attribute has space before it. -/
def readAttributes (chars : List Char) : Option (List RawAttribute × Bool × List Char) :=
  match skipSpace chars with
  | '>' :: rest => some ([], false, rest)
  | '/' :: '>' :: rest => some ([], true, rest)
  | rest =>
    if chars.head?.any isSpace then do
      let (first, after) ← readAttribute rest
      if after.length < chars.length then
        let (attributes, closed, rest) ← readAttributes after
        some (first :: attributes, closed, rest)
      else none
    else none
termination_by chars.length

/-- Reads a start tag or an empty tag after its angle bracket. -/
def readTag (chars : List Char) : Option (Token × List Char) := do
  let (name, rest) ← readQName chars
  let (attributes, closed, rest) ← readAttributes rest
  let tag : Tag := ⟨name, attributes⟩
  some (if closed then .emptyTag tag else .startTag tag, rest)

/-- Reads an end tag after its slash. -/
def readEndTag (chars : List Char) : Option (Token × List Char) := do
  let (name, rest) ← readQName chars
  match skipSpace rest with
  | '>' :: rest => some (.endTag name, rest)
  | _ => none

/-- Reads a comment after its opening. Two hyphens end it and nothing else. -/
def readComment (chars : List Char) : Option (Token × List Char) := do
  let (_, after) ← breakOn ['-', '-'] chars
  match after with
  | '>' :: rest => some (.aside, rest)
  | _ => none

/-- Reads a processing instruction after its opening. -/
def readInstruction (chars : List Char) : Option (Token × List Char) := do
  let (_, rest) ← readName chars
  let (_, rest) ← breakOn ['?', '>'] (skipSpace rest)
  some (.aside, rest)

/-- Reads the token that the characters begin with. Text runs up to the next angle
bracket and does not hold `]]>`; an XML declaration is none of the tokens. -/
def readToken : List Char → Option (Token × List Char)
  | [] => none
  | '<' :: '/' :: rest => readEndTag rest
  | '<' :: '!' :: '-' :: '-' :: rest => readComment rest
  | '<' :: '!' :: '[' :: 'C' :: 'D' :: 'A' :: 'T' :: 'A' :: '[' :: rest =>
    (breakOn [']', ']', '>'] rest).map fun (content, rest) => (.characterData content, rest)
  | '<' :: '?' :: rest =>
    if ['x', 'm', 'l', ' '].isPrefixOf rest then none else readInstruction rest
  | '<' :: rest => readTag rest
  | c :: rest =>
    let text := c :: rest.takeWhile (· != '<')
    if contains [']', ']', '>'] text then none else some (.text, rest.dropWhile (· != '<'))

/-- Reads the characters as lexemes, to their end. -/
def readLexemes (chars : List Char) : Option (List Lexeme) :=
  if chars.isEmpty then some []
  else do
    let (token, rest) ← readToken chars
    if rest.length < chars.length then
      let source := chars.take (chars.length - rest.length)
      some (⟨token, source⟩ :: (← readLexemes rest))
    else none
termination_by chars.length

/-- Drops the space that must follow a part of a declaration unless it ends there. -/
def skipSeparator (chars : List Char) : Option (List Char) :=
  if chars.head?.any isSpace then some (skipSpace chars)
  else if chars.isEmpty || ['?', '>'].isPrefixOf chars then some chars
  else none

/-- Reads an attribute of a declaration if the characters begin with its name. -/
def skipDeclared (name : List Char) (chars : List Char) : Option (List Char) :=
  if name.isPrefixOf chars then (readAttribute chars).map Prod.snd else some chars

/-- Drops the declaration after its opening `<?xml`: the version, then perhaps the
encoding and whether the document stands alone. Their values are not looked at. -/
def skipDeclaration (chars : List Char) : Option (List Char) := do
  let rest ← skipSeparator chars
  let (_, rest) ←
    if "version".toList.isPrefixOf rest then readAttribute rest else none
  let rest ← skipSeparator rest
  let rest ←
    if "encoding".toList.isPrefixOf rest then skipDeclared "encoding".toList rest >>= skipSeparator
    else some rest
  let rest ← skipDeclared "standalone".toList rest
  match skipSpace rest with
  | '?' :: '>' :: rest => some rest
  | _ => none

/-- Drops a byte order mark and a declaration, where there are any. -/
def skipProlog (chars : List Char) : Option (List Char) :=
  let chars := match chars with
    | '\uFEFF' :: rest => rest
    | chars => chars
  match chars with
  | '<' :: '?' :: 'x' :: 'm' :: 'l' :: ' ' :: rest => skipDeclaration (' ' :: rest)
  | chars => some chars

end RemoteCall.Xml
