import RemoteCall.Yaml.Char

/-!
# Places in a document

A place is what is still to be read, with its line and column, the number of bytes before
it, and whether a key may begin there. A key may begin at the start of a line and after
the dash of an item, but not after another key on the same line.
-/

namespace RemoteCall.Yaml

/-- A place in a document. -/
structure Cursor where
  rest : List Char
  line : Nat
  column : Nat
  offset : Nat
  keyAllowed : Bool

namespace Cursor

/-- The start of a document. -/
def start (chars : List Char) : Cursor := ⟨chars, 0, 0, 0, true⟩

/-- Moves over a number of characters. -/
def advance (cursor : Cursor) : Nat → Cursor
  | 0 => cursor
  | count + 1 =>
    match cursor.rest with
    | [] => cursor
    | c :: rest =>
      let offset := cursor.offset + c.utf8Size
      if isBreak c then advance ⟨rest, cursor.line + 1, 0, offset, cursor.keyAllowed⟩ count
      else advance ⟨rest, cursor.line, cursor.column + 1, offset, cursor.keyAllowed⟩ count

/-- Moves over a number of characters, after which a key may begin or not. -/
def advanceTo (cursor : Cursor) (count : Nat) (keyAllowed : Bool) : Cursor :=
  { cursor.advance count with keyAllowed := keyAllowed }

/-- Moves to where the characters that are left begin. -/
def moveTo (cursor : Cursor) (rest : List Char) (keyAllowed : Bool) : Cursor :=
  cursor.advanceTo (cursor.rest.length - rest.length) keyAllowed

/-- Moves to the next token, over blanks, line ends and comments. Where a key may begin, a
tab is no blank. Outside brackets, which `flow` tells, a key may begin after a line end. A
byte order mark at the start of a line is passed over, but takes up a column. -/
def skipFrom (flow comment : Bool) (line column offset : Nat) (keyAllowed : Bool) :
    List Char → Cursor
  | [] => ⟨[], line, column, offset, keyAllowed⟩
  | c :: rest =>
    let next := offset + c.utf8Size
    if isBreak c then skipFrom flow false (line + 1) 0 next (keyAllowed || !flow) rest
    else if comment || c == '#' then skipFrom flow true line (column + 1) next keyAllowed rest
    else if c == ' ' || (c == '\t' && (flow || !keyAllowed)) || (c == '\uFEFF' && column == 0) then
      skipFrom flow false line (column + 1) next keyAllowed rest
    else ⟨c :: rest, line, column, offset, keyAllowed⟩

/-- Moves to the next token. -/
def skip (cursor : Cursor) (flow : Bool) : Cursor :=
  skipFrom flow false cursor.line cursor.column cursor.offset cursor.keyAllowed cursor.rest

/-- Moves over spaces and tabs. -/
def skipBlanks (cursor : Cursor) : Cursor :=
  cursor.advance (cursor.rest.takeWhile isBlank).length

/-- Moves to the next line. Nothing but a comment may stand on the rest of this one. -/
def finishLine (cursor : Cursor) : Option Cursor :=
  let next := cursor.skipBlanks
  let comment := match next.rest with
    | '#' :: _ => (next.rest.takeWhile (fun c => !isBreak c)).length
    | _ => 0
  let last := next.advance comment
  match last.rest with
  | [] => some last
  | c :: _ => if isBreak c then some (last.advance 1) else none

/-- Whether a marker of documents stands here. -/
def atMarker (cursor : Cursor) : Bool :=
  cursor.column == 0 && startsMarker cursor.rest

end Cursor

end RemoteCall.Yaml
