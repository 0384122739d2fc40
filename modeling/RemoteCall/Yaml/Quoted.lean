import RemoteCall.Text.Integer
import RemoteCall.Yaml.Cursor

/-!
# Quoted scalars

In single quotes only the quote itself is special; it is written twice. In double quotes
a backslash begins an escape, or joins two lines. Lines are folded in both.
-/

namespace RemoteCall.Yaml

/-- A part of a quoted scalar: a character that is taken as it is, one of a gap, or a line
end behind a backslash. -/
inductive QuotedPart where
  | kept (c : Char)
  | gap (c : Char)
  | joint
deriving DecidableEq, Repr

/-- The part that a character is that has not been escaped. -/
def QuotedPart.ofChar (c : Char) : QuotedPart :=
  if isGap c then .gap c else .kept c

/-- The text of a gap. After a joint only empty lines count. -/
def closeGap (joined : Bool) (gap : List Char) : List Char :=
  if joined then gap.filter isBreak else fold gap

/-- The text of the parts, `gap` being the gap before them. -/
def foldParts (joined : Bool) (gap : List Char) : List QuotedPart → List Char
  | [] => closeGap joined gap
  | .kept c :: rest => closeGap joined gap ++ c :: foldParts false [] rest
  | .gap c :: rest => foldParts joined (gap ++ [c]) rest
  | .joint :: rest => closeGap joined gap ++ foldParts true [] rest

/-- Reads to the closing single quote. No line begins with a marker of documents. -/
def readSingle (onNewLine : Bool) : List Char → Option (List QuotedPart × List Char)
  | [] => none
  | '\'' :: '\'' :: rest => do
    let (parts, after) ← readSingle false rest
    some (.kept '\'' :: parts, after)
  | '\'' :: rest => some ([], rest)
  | c :: rest =>
    if onNewLine && startsMarker (c :: rest) then none
    else do
      let (parts, after) ← readSingle (isBreak c) rest
      some (.ofChar c :: parts, after)

/-- The characters that are escaped by one letter. -/
def letterEscapes : List (Char × Char) :=
  [('0', '\x00'), ('a', '\x07'), ('b', '\x08'), ('t', '\t'), ('\t', '\t'), ('n', '\n'),
    ('v', '\x0b'), ('f', '\x0c'), ('r', '\r'), ('e', '\x1b'), (' ', ' '), ('"', '"'), ('/', '/'),
    ('\\', '\\'), ('N', '\u0085'), ('_', '\u00a0'), ('L', '\u2028'), ('P', '\u2029')]

/-- The letters that begin the number of a character, with the count of its digits. -/
def numberEscapes : List (Char × Nat) :=
  [('x', 2), ('u', 4), ('U', 8)]

/-- Reads an escape after its backslash. -/
def readEscape : List Char → Option (Char × List Char)
  | [] => none
  | letter :: rest =>
    match letterEscapes.lookup letter, numberEscapes.lookup letter with
    | some c, _ => some (c, rest)
    | none, some count =>
      let digits := rest.take count
      let code := Text.valueIn 16 digits
      if digits.length = count && digits.all (Text.isDigitIn 16) && code.isValidChar then
        some (Char.ofNat code, rest.drop count)
      else none
    | none, none => none

/-- Reads to the closing double quote. No line begins with a marker of documents. -/
def readDouble (onNewLine : Bool) : List Char → Option (List QuotedPart × List Char)
  | [] => none
  | '"' :: rest => some ([], rest)
  | '\\' :: c :: rest => do
    if isBreak c then
      let (parts, after) ← readDouble true rest
      some (.joint :: parts, after)
    else
      let (escaped, next) ← readEscape (c :: rest)
      if next.length < rest.length + 1 then
        let (parts, after) ← readDouble false next
        some (.kept escaped :: parts, after)
      else none
  | c :: rest =>
    if onNewLine && startsMarker (c :: rest) then none
    else do
      let (parts, after) ← readDouble (isBreak c) rest
      some (.ofChar c :: parts, after)
termination_by chars => chars.length

/-- Reads a quoted scalar. -/
def readQuoted (cursor : Cursor) : Option (List Char × Cursor) := do
  let (parts, after) ← match cursor.rest with
    | '\'' :: rest => readSingle false rest
    | '"' :: rest => readDouble false rest
    | _ => none
  some (foldParts false [] parts, cursor.moveTo after false)

end RemoteCall.Yaml
