import RemoteCall.Yaml.BlockScalar
import RemoteCall.Yaml.Cursor
import RemoteCall.Yaml.Names
import RemoteCall.Yaml.Plain
import RemoteCall.Yaml.Quoted
import RemoteCall.Yaml.Token

/-!
# Reading tokens

Outside brackets, columns tell what belongs together: a block begins where a dash or a key
stands further to the right than the blocks around it, and ends before a token further to
the left. That a key has begun is seen only at the colon after it, so the place where one
may have begun is remembered; the tokens for it are put there later.
-/

namespace RemoteCall.Yaml

/-- A place where a key may have begun, with the number of tokens before it. A key is required
where nothing else may stand in its column. -/
structure Candidate where
  index : Nat
  required : Bool
  line : Nat
  column : Nat
  offset : Nat

/-- The state of reading: the place, the tokens so far with the latest first and their number,
the columns of the open blocks with the innermost first, the place where a key may have
begun, such places around the open brackets, and the names that are known. -/
structure Lexer where
  cursor : Cursor
  tokens : List Token
  count : Nat
  blocks : List Nat
  candidate : Option Candidate
  outer : List (Option Candidate)
  names : Names

namespace Lexer

/-- The start of a document. -/
def start (chars : List Char) : Lexer :=
  ⟨Cursor.start chars, [], 0, [], none, [], Names.empty⟩

/-- Whether brackets are open. -/
def inBrackets (lexer : Lexer) : Bool := !lexer.outer.isEmpty

/-- The column in which a block inside the open ones begins at least. -/
def least (lexer : Lexer) : Nat :=
  match lexer.blocks with
  | [] => 0
  | column :: _ => column + 1

/-- Adds a token that ends at a place. -/
def emit (lexer : Lexer) (token : Token) (cursor : Cursor) : Lexer :=
  { lexer with cursor := cursor, tokens := token :: lexer.tokens, count := lexer.count + 1 }

/-- Adds a token of a number of characters, after which a key may begin or not. -/
def take (lexer : Lexer) (token : Token) (length : Nat) (keyAllowed : Bool) : Lexer :=
  lexer.emit token (lexer.cursor.advanceTo length keyAllowed)

/-- Puts a token behind the first `index` ones. -/
def insert (lexer : Lexer) (index : Nat) (token : Token) : Lexer :=
  let (later, earlier) := lexer.tokens.splitAt (lexer.count - index)
  { lexer with tokens := later ++ token :: earlier, count := lexer.count + 1 }

/-- Ends the blocks whose columns are not kept. Inside brackets none ends. -/
def closeBlocks (lexer : Lexer) (kept : Nat → Bool) : Lexer :=
  if lexer.inBrackets then lexer
  else
    let closed := lexer.blocks.takeWhile (fun column => !kept column)
    { lexer with
      tokens := closed.map (fun _ => Token.endBlock) ++ lexer.tokens
      count := lexer.count + closed.length
      blocks := lexer.blocks.drop closed.length }

/-- Begins a block behind the first `index` tokens, unless one in its column is open. Inside
brackets none begins. -/
def openBlock (lexer : Lexer) (column : Nat) (token : Token) (index : Nat) : Lexer :=
  if lexer.inBrackets || column < lexer.least then lexer
  else { lexer.insert index token with blocks := column :: lexer.blocks }

/-- Gives up the key that may have begun, unless it is required. -/
def dropCandidate (lexer : Lexer) : Option Lexer :=
  if lexer.candidate.any Candidate.required then none
  else some { lexer with candidate := none }

/-- Remembers that a key may begin here. -/
def noteCandidate (lexer : Lexer) : Option Lexer :=
  let cursor := lexer.cursor
  if cursor.keyAllowed then do
    let required := !lexer.inBrackets && lexer.blocks.head? == some cursor.column
    let candidate : Candidate :=
      ⟨lexer.count, required, cursor.line, cursor.column, cursor.offset⟩
    some { ← lexer.dropCandidate with candidate := some candidate }
  else some lexer

/-- The largest number of bytes of a key. -/
def maxKeyLength : Nat := 1024

/-- Gives up a key that would go beyond its line, or be too long. -/
def expire (lexer : Lexer) : Option Lexer :=
  let isPast (candidate : Candidate) : Bool :=
    candidate.line < lexer.cursor.line ||
      candidate.offset + maxKeyLength < lexer.cursor.offset
  if lexer.candidate.any isPast then lexer.dropCandidate else some lexer

/-- Opens a bracket, with which a key may begin. -/
def openBracket (lexer : Lexer) (token : Token) : Option Lexer := do
  let noted ← lexer.noteCandidate
  some { noted.take token 1 true with candidate := none, outer := noted.candidate :: noted.outer }

/-- Closes a bracket. -/
def closeBracket (lexer : Lexer) (token : Token) : Option Lexer := do
  let closed := (← lexer.dropCandidate).take token 1 false
  match closed.outer with
  | [] => some closed
  | candidate :: outer => some { closed with candidate := candidate, outer := outer }

/-- Reads the dash of an item. -/
def takeDash (lexer : Lexer) : Option Lexer := do
  if !lexer.inBrackets && !lexer.cursor.keyAllowed then none
  else
    let opened := lexer.openBlock lexer.cursor.column .beginSequence lexer.count
    some ((← opened.dropCandidate).take .dash 1 true)

/-- Reads the question mark before a key. -/
def takeKey (lexer : Lexer) : Option Lexer := do
  if !lexer.inBrackets && !lexer.cursor.keyAllowed then none
  else
    let opened := lexer.openBlock lexer.cursor.column .beginMapping lexer.count
    some ((← opened.dropCandidate).take .key 1 (!lexer.inBrackets))

/-- Reads the colon before a value. If a key has begun on the line, it ends here. -/
def takeValue (lexer : Lexer) : Option Lexer :=
  match lexer.candidate with
  | some candidate =>
    let keyed := (lexer.insert candidate.index .key).openBlock candidate.column .beginMapping
      candidate.index
    some { keyed.take .value 1 false with candidate := none }
  | none =>
    if !lexer.inBrackets && !lexer.cursor.keyAllowed then none
    else
      let opened := lexer.openBlock lexer.cursor.column .beginMapping lexer.count
      some (opened.take .value 1 (!lexer.inBrackets))

/-- Reads an anchor, or the mark of a copy. -/
def takeAnchor (lexer : Lexer) (isCopy : Bool) : Option Lexer := do
  let noted ← lexer.noteCandidate
  let (anchor, rest) ← readAnchor (lexer.cursor.rest.drop 1)
  let place := lexer.cursor.moveTo rest false
  if isCopy then
    some (noted.emit (.copy (← lexer.names.anchors.lookup anchor)) place)
  else
    let (number, names) := lexer.names.addAnchor anchor
    some { noted.emit (.anchor number) place with names := names }

/-- Reads a tag. A blank follows it, or a comma inside brackets. -/
def takeTag (lexer : Lexer) : Option Lexer := do
  let noted ← lexer.noteCandidate
  let (tag, rest) ← readTag lexer.names.allHandles (lexer.cursor.rest.drop 1)
  if atGap rest || (lexer.inBrackets && rest.head? == some ',') then
    some (noted.emit (.tag tag) (lexer.cursor.moveTo rest false))
  else none

/-- Reads a scalar on a line, with which a key may begin. -/
def takeScalar (lexer : Lexer) : Option Lexer := do
  let noted ← lexer.noteCandidate
  if lexer.cursor.rest.head?.any "'\"".toList.contains then
    let (text, last) ← readQuoted lexer.cursor
    some (noted.emit (.scalar .quoted text) last)
  else
    let (text, last) ← readPlain lexer.inBrackets lexer.least lexer.cursor
    some (noted.emit (.scalar .plain text) last)

/-- Reads a block scalar. -/
def takeBlockScalar (lexer : Lexer) : Option Lexer := do
  let dropped ← lexer.dropCandidate
  let (style, text, last) ← readBlockScalar lexer.least lexer.cursor
  some (dropped.emit (.scalar style text) last)

/-- Reads a directive, which ends all blocks. -/
def takeDirective (lexer : Lexer) : Option Lexer := do
  let closed ← (lexer.closeBlocks fun _ => false).dropCandidate
  let (names, rest) ← readDirective lexer.names (lexer.cursor.rest.drop 1)
  let last ← (lexer.cursor.moveTo rest false).finishLine
  some { closed.emit .directive last with names := names }

/-- Reads a marker of documents, which ends all blocks. -/
def takeMarker (lexer : Lexer) : Option Lexer := do
  let closed ← (lexer.closeBlocks fun _ => false).dropCandidate
  let token := if lexer.cursor.rest.head? == some '-' then Token.documentStart else .documentEnd
  some (closed.take token 3 false)

/-- Reads a token that begins with the character, before the characters that are left. -/
def takeIndicated (lexer : Lexer) (c : Char) (rest : List Char) : Option Lexer :=
  if c == '[' then lexer.openBracket .openSequence
  else if c == '\x7b' then lexer.openBracket .openMapping
  else if c == ']' then lexer.closeBracket .closeSequence
  else if c == '\x7d' then lexer.closeBracket .closeMapping
  else if c == ',' then lexer.dropCandidate.map (·.take .comma 1 true)
  else if c == '-' && atGap rest then lexer.takeDash
  else if c == '?' && (lexer.inBrackets || atGap rest) then lexer.takeKey
  else if c == ':' && (lexer.inBrackets || atGap rest) then lexer.takeValue
  else if c == '*' || c == '&' then lexer.takeAnchor (c == '*')
  else if c == '!' then lexer.takeTag
  else if (c == '|' || c == '>') && !lexer.inBrackets then lexer.takeBlockScalar
  else lexer.takeScalar

/-- Reads the token that stands here. -/
def takeToken (lexer : Lexer) : Option Lexer :=
  match lexer.cursor.rest with
  | [] => none
  | c :: rest =>
    if lexer.cursor.column == 0 && c == '%' then lexer.takeDirective
    else if lexer.cursor.atMarker then lexer.takeMarker
    else lexer.takeIndicated c rest

/-- Moves to the next token, and ends the blocks that it is not in. -/
def toNext (lexer : Lexer) : Option Lexer := do
  let moved ← { lexer with cursor := lexer.cursor.skip lexer.inBrackets }.expire
  some (moved.closeBlocks (· ≤ moved.cursor.column))

/-- All tokens, after the last one has been read. -/
def finish (lexer : Lexer) : Option (List Token) := do
  let last ← (lexer.closeBlocks fun _ => false).dropCandidate
  some last.tokens.reverse

/-- Reads the tokens that are left, of which there are fewer than `fuel`. -/
def run : Nat → Lexer → Option (List Token)
  | 0, _ => none
  | fuel + 1, lexer => do
    let ready ← lexer.toNext
    if ready.cursor.rest.isEmpty then ready.finish
    else run fuel (← ready.takeToken)

end Lexer

/-- The tokens of a document. Each takes one character at least. -/
def readTokens (chars : List Char) : Option (List Token) :=
  (Lexer.start chars).run (chars.length + 1)

end RemoteCall.Yaml
