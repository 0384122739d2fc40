import RemoteCall.Xml.Char

/-!
# Names in markup

A qualified name has a local part and perhaps a prefix before a colon. Nothing before
the colon counts as no prefix.
-/

namespace RemoteCall.Xml

/-- A qualified name as it is written; `scope` is the prefix, empty if there is none. -/
structure QName where
  scope : List Char
  localPart : List Char
deriving DecidableEq, Repr

/-- Whether the characters may be a part of a qualified name: the first may start one. -/
def isNamePart : List Char → Bool
  | [] => false
  | c :: rest => isNameStart c && rest.all isNameChar

/-- Reads a qualified name, as long as name characters and at most one colon follow. -/
def readQName (chars : List Char) : Option (QName × List Char) :=
  let first := chars.takeWhile isNameChar
  match chars.dropWhile isNameChar with
  | ':' :: after =>
    let second := after.takeWhile isNameChar
    let rest := after.dropWhile isNameChar
    if (first.isEmpty || isNamePart first) && isNamePart second && rest.head? != some ':' then
      some (⟨first, second⟩, rest)
    else none
  | rest => if isNamePart first then some (⟨[], first⟩, rest) else none

/-- Reads a name in which colons count as letters. -/
def readName (chars : List Char) : Option (List Char × List Char) :=
  let isLetter (c : Char) : Bool := c == ':' || isNameChar c
  match chars with
  | [] => none
  | c :: _ =>
    if c == ':' || isNameStart c then some (chars.takeWhile isLetter, chars.dropWhile isLetter)
    else none

end RemoteCall.Xml
