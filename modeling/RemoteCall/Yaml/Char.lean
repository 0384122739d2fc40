/-!
# Character classes of YAML

The characters that a document may hold, and those that separate words. Line ends are
made uniform before anything is read, so that each is one character.
-/

namespace RemoteCall.Yaml

/-- Whether a document may hold the character. -/
def isAllowed (c : Char) : Bool :=
  let code := c.toNat
  c == '\t' || c == '\n' || c == '\r' || (0x20 ≤ code && code ≤ 0x7E) || code == 0x85 ||
    (0xA0 ≤ code && code ≤ 0xFFFD) || 0x10000 ≤ code

/-- Makes each line end one character: a line feed, or a line or paragraph separator. -/
def uniformBreaks : List Char → List Char
  | [] => []
  | '\r' :: '\n' :: rest => '\n' :: uniformBreaks rest
  | c :: rest => (if c == '\r' || c == '\u0085' then '\n' else c) :: uniformBreaks rest

/-- Whether the character ends a line. -/
def isBreak (c : Char) : Bool :=
  c == '\n' || c == '\u2028' || c == '\u2029'

/-- Whether the character is a space or a tab. -/
def isBlank (c : Char) : Bool :=
  c == ' ' || c == '\t'

/-- Whether the character separates words. -/
def isGap (c : Char) : Bool :=
  isBlank c || isBreak c

/-- Whether a word ends before the characters. -/
def atGap : List Char → Bool
  | [] => true
  | c :: _ => isGap c

/-- Folds the characters between two words: a line end becomes a space, unless empty
lines follow, which are kept instead. -/
def fold (gap : List Char) : List Char :=
  match gap.filter isBreak with
  | [] => gap
  | ['\n'] => [' ']
  | '\n' :: more => more
  | breaks => breaks

/-- Whether the characters, at the start of a line, mark the start or the end of a
document. -/
def startsMarker : List Char → Bool
  | '-' :: '-' :: '-' :: rest => atGap rest
  | '.' :: '.' :: '.' :: rest => atGap rest
  | _ => false

end RemoteCall.Yaml
