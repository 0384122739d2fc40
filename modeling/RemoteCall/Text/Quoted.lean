import RemoteCall.Text.Visible

/-!
# Descriptions of values

Texts, lists and records described in one line. A text stands in quotes; in it the quote,
the backslash and all characters that cannot be seen on their own are escaped.
-/

namespace RemoteCall.Text

/-- Writes a character of a quoted text. -/
def quoteChar (c : Char) : List Char :=
  match c with
  | '"' => ['\\', '"']
  | '\\' => ['\\', '\\']
  | '\n' => ['\\', 'n']
  | '\r' => ['\\', 'r']
  | '\t' => ['\\', 't']
  | '\x00' => ['\\', '0']
  | c =>
    if isVisible c then [c]
    else ['\\', 'u', '\x7b'] ++ Nat.toDigits 16 c.toNat ++ ['\x7d']

/-- Puts a text in quotes. -/
def quoted (text : String) : String :=
  String.ofList ('"' :: (text.toList.flatMap quoteChar ++ ['"']))

/-- Describes a list by the descriptions of its items. -/
def describeList (items : List String) : String :=
  "[" ++ ", ".intercalate items ++ "]"

/-- Describes a record by its name and the descriptions of its fields. -/
def describeRecord (name : String) (fields : List (String × String)) : String :=
  let parts := fields.map fun (field, value) => field ++ ": " ++ value
  name ++ " \x7b " ++ ", ".intercalate parts ++ " \x7d"

/-- Describes a truth value. -/
def describeBool (value : Bool) : String :=
  if value then "true" else "false"

end RemoteCall.Text
