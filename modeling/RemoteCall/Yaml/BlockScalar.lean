import RemoteCall.Text.Integer
import RemoteCall.Yaml.Cursor
import RemoteCall.Yaml.Node

/-!
# Block scalars

A block scalar is a number of lines with a common indentation, which is given in its
first line or found from the lines themselves. After `|` the lines are kept; after `>`
they are folded, apart from those that begin with a blank. A sign tells whether the line
ends at its end are dropped or kept.
-/

namespace RemoteCall.Yaml

/-- What becomes of the line ends at the end of a block scalar. -/
inductive Chomping where
  | strip
  | clip
  | keep
deriving DecidableEq, Repr

/-- The first line of a block scalar: the indentation relative to what encloses it, if it is
given, and the chomping. -/
structure BlockHeader where
  increment : Option Nat
  chomping : Chomping

namespace BlockHeader

/-- The chomping that a sign stands for. -/
def chompingOf? (c : Char) : Option Chomping :=
  if c == '+' then some .keep else if c == '-' then some .strip else none

/-- The indentation that a digit stands for; it is not zero. -/
def incrementOf? (c : Char) : Option Nat :=
  if Text.isDigit c && c != '0' then some (Text.digitValue c) else none

/-- Reads the signs of a first line, in either order; says how many there are. -/
def ofSigns : List Char → BlockHeader × Nat
  | [] => (⟨none, .clip⟩, 0)
  | [c] => (⟨incrementOf? c, (chompingOf? c).getD .clip⟩,
      if (incrementOf? c).isSome || (chompingOf? c).isSome then 1 else 0)
  | c :: d :: _ =>
    match chompingOf? c, incrementOf? c, chompingOf? d, incrementOf? d with
    | some chomping, _, _, some increment => (⟨some increment, chomping⟩, 2)
    | some chomping, _, _, none => (⟨none, chomping⟩, 1)
    | none, some increment, some chomping, _ => (⟨some increment, chomping⟩, 2)
    | none, some increment, none, _ => (⟨some increment, .clip⟩, 1)
    | none, none, _, _ => (⟨none, .clip⟩, 0)

end BlockHeader

/-- Moves over spaces, up to the indentation if that is known. -/
def skipIndentation (indentation : Option Nat) (cursor : Cursor) : Cursor :=
  let spaces := (cursor.rest.takeWhile (· == ' ')).length
  match indentation with
  | none => cursor.advance spaces
  | some indentation => cursor.advance (min spaces (indentation - cursor.column))

/-- Moves over empty lines and the indentation of the line after them. Gives the line ends,
the largest indentation met, and the place. -/
def skipEmptyLines (indentation : Option Nat) :
    Nat → Cursor → Option (List Char × Nat × Cursor)
  | 0, _ => none
  | fuel + 1, cursor =>
    let next := skipIndentation indentation cursor
    match next.rest with
    | [] => some ([], next.column, next)
    | c :: _ =>
      if c == '\t' && indentation.all (next.column < ·) then none
      else if isBreak c then do
        let (breaks, widest, last) ← skipEmptyLines indentation fuel (next.advance 1)
        some (c :: breaks, max next.column widest, last)
      else some ([], next.column, next)

/-- What has been read of a block scalar: its text, the line end of the last line, the empty
lines after that, and whether the last line begins with a blank. -/
structure BlockText where
  text : List Char
  lineEnd : List Char
  emptyLines : List Char
  beginsBlank : Bool

namespace BlockText

/-- The line end before a line, as it is read. -/
def joint (read : BlockText) (folded nextBlank : Bool) : List Char :=
  if folded && read.lineEnd == ['\n'] && !read.beginsBlank && !nextBlank then
    if read.emptyLines.isEmpty then [' '] else read.emptyLines
  else read.lineEnd ++ read.emptyLines

/-- The whole text, with the line ends at its end. -/
def chomped (read : BlockText) : Chomping → List Char
  | .strip => read.text
  | .clip => read.text ++ read.lineEnd
  | .keep => read.text ++ read.lineEnd ++ read.emptyLines

end BlockText

/-- Reads the lines that have the indentation. -/
def readLines (folded : Bool) (indentation : Nat) :
    Nat → BlockText → Cursor → Option (BlockText × Cursor)
  | 0, _, _ => none
  | fuel + 1, read, cursor =>
    match cursor.rest with
    | [] => some (read, cursor)
    | c :: _ =>
      if cursor.column ≠ indentation then some (read, cursor)
      else do
        let line := cursor.rest.takeWhile (fun c => !isBreak c)
        let after := cursor.advance line.length
        let lineEnd := after.rest.take 1
        let (emptyLines, _, next) ←
          skipEmptyLines (some indentation) (after.rest.length + 1) (after.advance 1)
        let text := read.text ++ read.joint folded (isBlank c) ++ line
        readLines folded indentation fuel ⟨text, lineEnd, emptyLines, isBlank c⟩ next

/-- Reads a block scalar. The lines are indented by `least` columns at least. A key may begin
after it. -/
def readBlockScalar (least : Nat) (cursor : Cursor) :
    Option (ScalarStyle × List Char × Cursor) := do
  let folded := cursor.rest.head? == some '>'
  let (header, signs) := BlockHeader.ofSigns (cursor.rest.drop 1)
  let body ← (cursor.advance (1 + signs)).finishLine
  let given := header.increment.map (· + (least - 1))
  let (emptyLines, widest, first) ← skipEmptyLines given (body.rest.length + 1) body
  let indentation := given.getD (max (max widest least) 1)
  let (read, last) ← readLines folded indentation (first.rest.length + 1)
    ⟨[], [], emptyLines, false⟩ first
  let style := if folded then ScalarStyle.folded else .literal
  some (style, read.chomped header.chomping, { last with keyAllowed := true })

end RemoteCall.Yaml
