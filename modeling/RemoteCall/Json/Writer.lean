import RemoteCall.Json.Value

/-!
# Compact JSON text

A value is written without spaces. Inside strings only the quote, the backslash and
the characters below the space are escaped.
-/

namespace RemoteCall.Json

/-- One digit of a code point below the space. -/
def hexDigit (value : Nat) : Char :=
  Nat.digitChar value

/-- Writes a character of a string. -/
def escapeChar (c : Char) : List Char :=
  match c with
  | '"' => ['\\', '"']
  | '\\' => ['\\', '\\']
  | '\x08' => ['\\', 'b']
  | '\x0c' => ['\\', 'f']
  | '\n' => ['\\', 'n']
  | '\r' => ['\\', 'r']
  | '\t' => ['\\', 't']
  | c =>
    if c < ' ' then ['\\', 'u', '0', '0', hexDigit (c.toNat / 16), hexDigit (c.toNat % 16)]
    else [c]

/-- Writes a string in quotes. -/
def quote (text : String) : List Char :=
  '"' :: (text.toList.flatMap escapeChar ++ ['"'])

/-- Joins written parts by commas. -/
def joinCommas : List (List Char) → List Char
  | [] => []
  | [part] => part
  | part :: rest => part ++ ',' :: joinCommas rest

mutual

/-- Writes a value. -/
def render : Json → List Char
  | .null => ['n', 'u', 'l', 'l']
  | .bool true => ['t', 'r', 'u', 'e']
  | .bool false => ['f', 'a', 'l', 's', 'e']
  | .number value => value.render
  | .string text => quote text
  | .array items => '[' :: (joinCommas (renderItems items) ++ [']'])
  | .object members => '{' :: (joinCommas (renderMembers members) ++ ['}'])

/-- Writes each item of an array. -/
def renderItems : List Json → List (List Char)
  | [] => []
  | item :: rest => render item :: renderItems rest

/-- Writes each member of an object. -/
def renderMembers : List (String × Json) → List (List Char)
  | [] => []
  | (name, value) :: rest => (quote name ++ ':' :: render value) :: renderMembers rest

end

/-- The compact text of a value. -/
def text (value : Json) : String :=
  String.ofList value.render

end RemoteCall.Json
