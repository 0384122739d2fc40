import RemoteCall.Text.Integer
import RemoteCall.Yaml.Char

/-!
# Tags

A tag says what kind of thing a node is. It is a sequence of bytes, which may be written
as escapes, and ends before a zero byte. Most tags begin with a handle, which stands for
the beginning that it was declared for.
-/

namespace RemoteCall.Yaml

/-- The bytes of a tag. -/
abbrev Tag := List UInt8

namespace Tag

/-- The bytes of characters. -/
def ofChars (chars : List Char) : Tag := (String.ofList chars).toUTF8.data.toList

/-- What the tags begin with that every reader knows. -/
def core : Tag := ofChars "tag:yaml.org,2002:".toList

/-- The tag of missing values. -/
def null : Tag := core ++ ofChars "null".toList

/-- The tag of truth values. -/
def bool : Tag := core ++ ofChars "bool".toList

/-- The tag of integers. -/
def int : Tag := core ++ ofChars "int".toList

/-- The bytes before a zero byte. -/
def beforeZero (bytes : List UInt8) : Tag := bytes.takeWhile (· ≠ 0)

end Tag

/-- Whether the character may stand in the name of a handle, an anchor or a directive. -/
def isWordChar (c : Char) : Bool :=
  ('a' ≤ c && c ≤ 'z') || ('A' ≤ c && c ≤ 'Z') || ('0' ≤ c && c ≤ '9') || c == '-' || c == '_'

/-- Whether a tag may hold the character outside an escape. Commas and square brackets may
stand in a whole tag and in the beginning that a handle is declared for. -/
def isTagChar (whole : Bool) (c : Char) : Bool :=
  isWordChar c || ";/?:@&=+$.!~*'()".toList.contains c || (whole && ",[]".toList.contains c)

/-- The number of bytes that follow a byte in the encoding of a character, when a number of
them is still to come. -/
def bytesToCome? (toCome : Nat) (byte : Nat) : Option Nat :=
  match toCome with
  | more + 1 => if 0x80 ≤ byte && byte < 0xC0 then some more else none
  | 0 =>
    if byte < 0x80 then some 0
    else if 0xC0 ≤ byte && byte < 0xE0 then some 1
    else if 0xE0 ≤ byte && byte < 0xF0 then some 2
    else if 0xF0 ≤ byte && byte < 0xF8 then some 3
    else none

/-- Reads the bytes of a tag. An escape is a percent sign with two digits. When a byte has been
escaped that others must follow, `toCome` tells how many. -/
def readTagBytes (whole : Bool) (toCome : Nat) : List Char → Option (List UInt8 × List Char)
  | '%' :: high :: low :: rest =>
    if Text.isDigitIn 16 high && Text.isDigitIn 16 low then do
      let byte := Text.valueIn 16 [high, low]
      let (bytes, after) ← readTagBytes whole (← bytesToCome? toCome byte) rest
      some (byte.toUInt8 :: bytes, after)
    else none
  | rest@(c :: more) =>
    if c == '%' || 0 < toCome then none
    else if isTagChar whole c then
      (readTagBytes whole 0 more).map fun (bytes, after) => (Tag.ofChars [c] ++ bytes, after)
    else some ([], rest)
  | [] => if toCome = 0 then some ([], []) else none

/-- Handles with the beginnings of tags that they stand for. -/
abbrev Handles := List (List Char × Tag)

/-- The handles that every reader knows. -/
def coreHandles : Handles := [(['!'], Tag.ofChars ['!']), (['!', '!'], Tag.core)]

/-- Reads a tag after its exclamation mark. It is a whole one in angle brackets, or it has a
handle that ends in an exclamation mark, or else the mark itself is the handle. -/
def readTag (handles : Handles) : List Char → Option (Tag × List Char)
  | '<' :: rest => do
    match ← readTagBytes true 0 rest with
    | (byte :: bytes, '>' :: after) => some (Tag.beforeZero (byte :: bytes), after)
    | _ => none
  | chars => do
    let word := chars.takeWhile isWordChar
    match chars.dropWhile isWordChar with
    | '!' :: rest =>
      let beginning ← handles.lookup ('!' :: (word ++ ['!']))
      match ← readTagBytes false 0 rest with
      | ([], _) => none
      | (bytes, after) => some (beginning ++ Tag.beforeZero bytes, after)
    | rest =>
      let (bytes, after) ← readTagBytes false 0 rest
      match Tag.beforeZero (Tag.ofChars word ++ bytes) with
      | [] => some (Tag.ofChars ['!'], after)
      | name => some ((← handles.lookup ['!']) ++ name, after)

end RemoteCall.Yaml
