import RemoteCall.Yaml.Tag

/-!
# Names in a document

A document may declare its version, handles of tags, and anchors, by which a node can be
repeated. Handles and the version are declared by directives, which are lines before the
document that begin with a percent sign.
-/

namespace RemoteCall.Yaml

/-- What has been declared: whether there is a version, the handles, and the anchors with
their numbers. -/
structure Names where
  versioned : Bool
  handles : Handles
  anchors : List (List Char × Nat)

namespace Names

/-- Nothing has been declared. -/
def empty : Names := ⟨false, [], []⟩

/-- The handles that tags may have. Those that have been declared come first. -/
def allHandles (names : Names) : Handles := names.handles ++ coreHandles

/-- Declares a version, unless there is one. -/
def addVersion (names : Names) : Option Names :=
  if names.versioned then none else some { names with versioned := true }

/-- Declares a handle, unless it has been declared. -/
def addHandle (names : Names) (handle : List Char) (beginning : Tag) : Option Names :=
  if (names.handles.lookup handle).isSome then none
  else some { names with handles := (handle, beginning) :: names.handles }

/-- Declares an anchor. Its number is how many anchors are known before it, so that after an
anchor has been declared again, two of them may share a number. -/
def addAnchor (names : Names) (anchor : List Char) : Nat × Names :=
  let number := names.anchors.length
  (number, { names with
    anchors := (anchor, number) :: names.anchors.filter (fun known => known.1 ≠ anchor) })

end Names

/-- Reads the name of an anchor, which some indicators may follow without a blank. -/
def readAnchor (chars : List Char) : Option (List Char × List Char) :=
  let word := chars.takeWhile isWordChar
  let rest := chars.dropWhile isWordChar
  if !word.isEmpty && (atGap rest || rest.head?.any "?:,]\x7d%@`".toList.contains) then
    some (word, rest)
  else none

/-- The largest number of digits of a number in a version. -/
def maxVersionDigits : Nat := 9

/-- Reads a number of a version. -/
def readVersionNumber (chars : List Char) : Option (Nat × List Char) :=
  let digits := chars.takeWhile Text.isDigit
  if digits.isEmpty || maxVersionDigits < digits.length then none
  else some (Text.digitsValue digits, chars.dropWhile Text.isDigit)

/-- Reads a version, which is 1.1 or 1.2. -/
def readVersion (chars : List Char) : Option (List Char) := do
  match ← readVersionNumber chars with
  | (major, '.' :: rest) =>
    let (minor, after) ← readVersionNumber rest
    if major = 1 && (minor = 1 || minor = 2) then some after else none
  | _ => none

/-- Reads a handle and the beginning of tags that it stands for. -/
def readHandle (chars : List Char) : Option (List Char × Tag × List Char) := do
  let word := chars.drop 1 |>.takeWhile isWordChar
  let (handle, rest) ← match chars, (chars.drop 1).dropWhile isWordChar with
    | '!' :: _, '!' :: rest => some ('!' :: (word ++ ['!']), rest)
    | '!' :: _, rest => if word.isEmpty then some (['!'], rest) else none
    | _, _ => none
  if !rest.head?.any isBlank then none
  else
    let (bytes, after) ← readTagBytes true 0 (rest.dropWhile isBlank)
    if bytes.isEmpty || !atGap after then none
    else some (handle, Tag.beforeZero bytes, after)

/-- Reads a directive after its percent sign, but not the rest of its line. -/
def readDirective (names : Names) (chars : List Char) : Option (Names × List Char) := do
  let word := String.ofList (chars.takeWhile isWordChar)
  let rest := chars.dropWhile isWordChar
  let value := rest.dropWhile isBlank
  if !atGap rest then none
  else if word = "YAML" then
    let after ← readVersion value
    some (← names.addVersion, after)
  else if word = "TAG" then
    let (handle, beginning, after) ← readHandle value
    some (← names.addHandle handle beginning, after)
  else none

end RemoteCall.Yaml
