import RemoteCall.Text.Integer
import RemoteCall.Xml.Name

/-!
# References and line ends

Character data is a sequence of plain characters and references. Only character
references and the five predefined names exist. In text a carriage return, with a line
feed after it or without, becomes a line feed; in an attribute value every line end and
tab becomes one space. Characters that come from references are taken as they are.
-/

namespace RemoteCall.Xml

/-- A character of character data: written plainly, or by a reference. -/
inductive Written where
  | plain (c : Char)
  | reference (c : Char)
deriving DecidableEq, Repr

/-- The character of a code point; a surrogate, or a number beyond the last code point,
stands for the replacement character. -/
def charOfCode (code : Nat) : Char :=
  if code.isValidChar then Char.ofNat code else '\uFFFD'

/-- Reads a number and a semicolon. The number must fit 32 bits and its character must be
one that a document may hold. -/
def readCode (base : Nat) (chars : List Char) : Option (Char × List Char) :=
  let digits := chars.takeWhile (Text.isDigitIn base)
  match chars.dropWhile (Text.isDigitIn base) with
  | ';' :: rest =>
    let code := Text.valueIn base digits
    let c := charOfCode code
    if !digits.isEmpty && code < 0x100000000 && isXmlChar c then some (c, rest) else none
  | _ => none

/-- Reads a reference after its ampersand. -/
def readReference : List Char → Option (Char × List Char)
  | '#' :: 'x' :: rest => readCode 16 rest
  | '#' :: rest => readCode 10 rest
  | 'l' :: 't' :: ';' :: rest => some ('<', rest)
  | 'g' :: 't' :: ';' :: rest => some ('>', rest)
  | 'a' :: 'm' :: 'p' :: ';' :: rest => some ('&', rest)
  | 'a' :: 'p' :: 'o' :: 's' :: ';' :: rest => some ('\'', rest)
  | 'q' :: 'u' :: 'o' :: 't' :: ';' :: rest => some ('"', rest)
  | _ => none

/-- Tells plain characters and references apart. -/
def readWritten : List Char → Option (List Written)
  | [] => some []
  | '&' :: rest => do
    let (c, after) ← readReference rest
    if after.length < rest.length then
      some (.reference c :: (← readWritten after))
    else none
  | c :: rest => do some (.plain c :: (← readWritten rest))
termination_by chars => chars.length

/-- The characters of text. A plain carriage return becomes a line feed, and swallows one
that follows; it stays if a reference follows, or if it ends the text directly after a
reference. `afterReference` says whether a reference has come just before. -/
def normalizeText (afterReference : Bool) : List Written → List Char
  | [] => []
  | .reference c :: rest => c :: normalizeText true rest
  | .plain '\r' :: .plain '\n' :: rest => '\n' :: normalizeText false rest
  | .plain '\r' :: .reference c :: rest => '\r' :: c :: normalizeText true rest
  | [.plain '\r'] => [if afterReference then '\r' else '\n']
  | .plain '\r' :: rest => '\n' :: normalizeText false rest
  | .plain c :: rest => c :: normalizeText false rest

/-- The characters of an attribute value. -/
def normalizeAttribute : List Written → List Char
  | [] => []
  | .plain '\r' :: .plain '\n' :: rest => ' ' :: normalizeAttribute rest
  | .plain c :: rest =>
    (if c == '\n' || c == '\r' || c == '\t' then ' ' else c) :: normalizeAttribute rest
  | .reference c :: rest => c :: normalizeAttribute rest

end RemoteCall.Xml
