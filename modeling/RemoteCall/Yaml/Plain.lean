import RemoteCall.Yaml.Cursor

/-!
# Plain scalars

A plain scalar has no quotes. It ends before a colon or a comment that is set off by a
blank, before brackets and commas if it stands in brackets, and outside brackets before a
line that is not indented enough. Its lines are folded.
-/

namespace RemoteCall.Yaml

/-- The characters that have a meaning of their own in brackets. -/
def isFlowIndicator (c : Char) : Bool :=
  ",[]\x7b\x7d".toList.contains c

/-- The characters that no plain scalar begins with, some exceptions aside. -/
def isIndicator (c : Char) : Bool :=
  isFlowIndicator c || "-?:#&*!|>'\"%@`".toList.contains c

/-- Whether a plain scalar begins with the characters. -/
def startsPlain (flow : Bool) : List Char → Bool
  | [] => false
  | c :: rest =>
    (!isGap c && !isIndicator c) || (c == '-' && !atGap rest) ||
      (!flow && (c == '?' || c == ':') && !atGap rest)

/-- Whether a word of a plain scalar ends before the characters. -/
def endsWord (flow : Bool) : List Char → Bool
  | [] => true
  | c :: rest => isGap c || (c == ':' && atGap rest) || (flow && isFlowIndicator c)

/-- Whether the characters are a colon that no plain scalar in brackets may meet. -/
def isMisplacedColon (flow : Bool) : List Char → Bool
  | ':' :: c :: _ => flow && (isFlowIndicator c || c == '?')
  | _ => false

/-- The first word of a plain scalar. -/
def firstWord (flow : Bool) : List Char → List Char
  | [] => []
  | c :: rest =>
    if endsWord flow (c :: rest) || isMisplacedColon flow (c :: rest) then []
    else c :: firstWord flow rest

/-- Whether no tab stands where lines must be indented by `least` columns. -/
def tabsFit (least : Nat) : Nat → Bool → List Char → Bool
  | _, _, [] => true
  | column, onNewLine, c :: rest =>
    if isBreak c then tabsFit least 0 true rest
    else !(c == '\t' && onNewLine && column < least) && tabsFit least (column + 1) onNewLine rest

/-- Whether a plain scalar ends before a place that comes after a gap. -/
def endsPlain (flow : Bool) (least : Nat) (cursor : Cursor) : Bool :=
  (!flow && cursor.column < least) || cursor.atMarker || cursor.rest.head? == some '#'

/-- Reads the words of a plain scalar after the first one. -/
def readWords (flow : Bool) (least : Nat) : Nat → Cursor → Option (List Char × Cursor)
  | 0, _ => none
  | fuel + 1, cursor =>
    let gap := cursor.rest.takeWhile isGap
    let next := cursor.advanceTo gap.length (gap.any isBreak)
    let word := firstWord flow next.rest
    if !tabsFit least cursor.column false gap then none
    else if endsPlain flow least next then some ([], next)
    else if isMisplacedColon flow (next.rest.drop word.length) then none
    else if gap.isEmpty || word.isEmpty then some ([], next)
    else do
      let (text, last) ← readWords flow least fuel (next.advanceTo word.length false)
      some (fold gap ++ word ++ text, last)

/-- Reads a plain scalar. -/
def readPlain (flow : Bool) (least : Nat) (cursor : Cursor) : Option (List Char × Cursor) :=
  let word := firstWord flow cursor.rest
  let next := cursor.advanceTo word.length false
  if !startsPlain flow cursor.rest || isMisplacedColon flow next.rest then none
  else do
    let (text, last) ← readWords flow least (next.rest.length + 1) next
    some (word ++ text, last)

end RemoteCall.Yaml
