import RemoteCall.Json.Value

/-!
# Reading JSON

The reader takes exactly the standard grammar, with fewer than 128 arrays and objects
open at once. A number with a fraction or an exponent, and an integer that does not fit
64 bits, is kept as a significand of at most 64 bits and a power of ten, and scaled in
binary arithmetic; one that grows beyond the finite numbers is refused.
-/

namespace RemoteCall.Json

/-- Whether the character may stand between tokens. -/
def isSpace (c : Char) : Bool :=
  c == ' ' || c == '\n' || c == '\t' || c == '\r'

/-- The largest significand. -/
def maxSignificand : Nat := 0xFFFFFFFFFFFFFFFF

/-- The largest written exponent. -/
def maxWrittenExponent : Nat := 0x7FFFFFFF

/-- Takes leading digits into the significand as long as it fits; says how many were
taken and what follows. -/
def takeDigits (significand : Nat) : List Char → Nat × Nat × List Char
  | [] => (significand, 0, [])
  | c :: rest =>
    let next := significand * 10 + Text.digitValue c
    if Text.isDigit c ∧ next ≤ maxSignificand then
      let (taken, count, after) := takeDigits next rest
      (taken, count + 1, after)
    else (significand, 0, c :: rest)

/-- Scales a number by a power of ten, `steps` times by the largest power at most. A
quotient that has become zero stays zero; a number beyond the finite ones is refused. -/
def scaleBy : Nat → Decimal.Binary64 → Int → Option Decimal.Binary64
  | 0, _, _ => none
  | steps + 1, x, exponent =>
    if exponent.natAbs ≤ 308 then do
      let power ← Decimal.Binary64.ofRatio? (Nat.pow 10 exponent.natAbs) 1
      if 0 ≤ exponent then x.mul? power else x.div? power
    else if x.significand = 0 then some x
    else if 0 ≤ exponent then none
    else do
      let power ← Decimal.Binary64.ofRatio? (Nat.pow 10 308) 1
      scaleBy steps (← x.div? power) (exponent + 308)

/-- The number `significand * 10 ^ exponent`. Dividing four times by the largest power
turns any significand into zero. -/
def scaled (negative : Bool) (significand : Nat) (exponent : Int) : Option JsonNumber := do
  let start ← Decimal.Binary64.ofRatio? significand 1
  let x ← scaleBy 5 start exponent
  some (.binary negative x)

/-- Reads the exponent after its mark. One too large to be kept makes zero of a number
that is zero or has a negative exponent, and is refused otherwise. -/
def readExponent (negative : Bool) (significand : Nat) (start : Int) (chars : List Char) :
    Option (JsonNumber × List Char) := do
  let (down, digits) := match chars with
    | '+' :: rest => (false, rest)
    | '-' :: rest => (true, rest)
    | rest => (false, rest)
  let written := digits.takeWhile Text.isDigit
  let after := digits.dropWhile Text.isDigit
  if written.isEmpty then none
  else
    let exponent := Text.digitsValue written
    if maxWrittenExponent < exponent then
      if significand ≠ 0 ∧ !down then none
      else some (.binary negative Decimal.Binary64.zero, after)
    else do
      let total := if down then start - (exponent : Int) else start + (exponent : Int)
      some (← scaled negative significand total, after)

/-- Reads what may follow the digits of a number. -/
def finishNumber (negative : Bool) (significand : Nat) (exponent : Int) :
    List Char → Option (JsonNumber × List Char)
  | 'e' :: rest => readExponent negative significand exponent rest
  | 'E' :: rest => readExponent negative significand exponent rest
  | rest => do some (← scaled negative significand exponent, rest)

/-- Reads the digits after the point. Digits that no longer fit the significand are dropped. -/
def readFraction (negative : Bool) (significand : Nat) (exponent : Int) (chars : List Char) :
    Option (JsonNumber × List Char) :=
  let (taken, count, after) := takeDigits significand chars
  let rest := after.dropWhile Text.isDigit
  if count = 0 ∧ rest.length = chars.length then none
  else finishNumber negative taken (exponent - (count : Int)) rest

/-- The number of an integer text whose digits fit the significand. -/
def ofSignificand (negative : Bool) (significand : Nat) : Option JsonNumber :=
  if !negative then some (.integer significand)
  else if significand = 0 ∨ 0x8000000000000000 < significand then scaled true significand 0
  else some (.integer (-(significand : Int)))

/-- Reads a number after its sign. -/
def readMagnitude (negative : Bool) (chars : List Char) : Option (JsonNumber × List Char) :=
  match chars with
  | [] => none
  | c :: rest =>
    if !Text.isDigit c then none
    else if c = '0' ∧ (rest.head?.any Text.isDigit) then none
    else
      let (significand, _, after) := takeDigits 0 (c :: rest)
      -- Integer digits that do not fit count as powers of ten.
      let dropped := after.takeWhile Text.isDigit
      match after.dropWhile Text.isDigit with
      | '.' :: fraction => readFraction negative significand dropped.length fraction
      | tail =>
        if dropped.isEmpty ∧ tail.head? ≠ some 'e' ∧ tail.head? ≠ some 'E' then
          (ofSignificand negative significand).map (·, tail)
        else finishNumber negative significand dropped.length tail

/-- Reads a number. -/
def readNumber : List Char → Option (JsonNumber × List Char)
  | '-' :: rest => readMagnitude true rest
  | chars => readMagnitude false chars

/-- The value of four hexadecimal digits. -/
def hexUnit? (a b c d : Char) : Option Nat :=
  let digits := [a, b, c, d]
  if digits.all (Text.isDigitIn 16) then some (Text.valueIn 16 digits) else none

/-- Reads an escape after its backslash. A code point beyond the basic plane is written as
two units; a unit of such a pair on its own is refused. -/
def readEscape : List Char → Option (Char × List Char)
  | '"' :: rest => some ('"', rest)
  | '\\' :: rest => some ('\\', rest)
  | '/' :: rest => some ('/', rest)
  | 'b' :: rest => some ('\x08', rest)
  | 'f' :: rest => some ('\x0c', rest)
  | 'n' :: rest => some ('\n', rest)
  | 'r' :: rest => some ('\r', rest)
  | 't' :: rest => some ('\t', rest)
  | 'u' :: a :: b :: c :: d :: rest => do
    let unit ← hexUnit? a b c d
    if 0xD800 ≤ unit ∧ unit < 0xDC00 then
      match rest with
      | '\\' :: 'u' :: a :: b :: c :: d :: rest => do
        let low ← hexUnit? a b c d
        if 0xDC00 ≤ low ∧ low < 0xE000 then
          some (Char.ofNat (0x10000 + (unit - 0xD800) * 0x400 + (low - 0xDC00)), rest)
        else none
      | _ => none
    else if 0xDC00 ≤ unit ∧ unit < 0xE000 then none
    else some (Char.ofNat unit, rest)
  | _ => none

/-- Reads the characters of a string up to its closing quote. -/
def readString : List Char → Option (List Char × List Char)
  | [] => none
  | '"' :: rest => some ([], rest)
  | '\\' :: rest => do
    let (c, after) ← readEscape rest
    if after.length < rest.length then
      let (text, after) ← readString after
      some (c :: text, after)
    else none
  | c :: rest =>
    if c < ' ' then none
    else do
      let (text, after) ← readString rest
      some (c :: text, after)
termination_by chars => chars.length

/-- Reads the items of an array after its bracket, each by `read`. -/
def readItems (read : List Char → Option (Json × List Char)) (chars : List Char) :
    Option (List Json × List Char) := do
  let (item, after) ← read chars
  match after.dropWhile isSpace with
  | ']' :: rest => some ([item], rest)
  | ',' :: rest =>
    if rest.length < chars.length then
      let (items, rest) ← readItems read rest
      some (item :: items, rest)
    else none
  | _ => none
termination_by chars.length

/-- Reads the members of an object after its brace, the values by `read`. -/
def readMembers (read : List Char → Option (Json × List Char)) (chars : List Char) :
    Option (List (String × Json) × List Char) := do
  match chars.dropWhile isSpace with
  | '"' :: rest =>
    let (name, after) ← readString rest
    match after.dropWhile isSpace with
    | ':' :: rest =>
      let (value, after) ← read rest
      match after.dropWhile isSpace with
      | '}' :: rest => some ([(String.ofList name, value)], rest)
      | ',' :: rest =>
        if rest.length < chars.length then
          let (members, rest) ← readMembers read rest
          some ((String.ofList name, value) :: members, rest)
        else none
      | _ => none
    | _ => none
  | _ => none
termination_by chars.length

/-- Reads a value, with at most `depth` arrays and objects open in it. -/
def readValue (depth : Nat) (chars : List Char) : Option (Json × List Char) :=
  match chars.dropWhile isSpace with
  | 'n' :: 'u' :: 'l' :: 'l' :: rest => some (.null, rest)
  | 't' :: 'r' :: 'u' :: 'e' :: rest => some (.bool true, rest)
  | 'f' :: 'a' :: 'l' :: 's' :: 'e' :: rest => some (.bool false, rest)
  | '"' :: rest => (readString rest).map fun (text, rest) => (.string (String.ofList text), rest)
  | '[' :: rest =>
    match depth with
    | 0 => none
    | depth + 1 =>
      match rest.dropWhile isSpace with
      | ']' :: rest => some (.array [], rest)
      | rest => (readItems (readValue depth) rest).map fun (items, rest) => (.array items, rest)
  | '{' :: rest =>
    match depth with
    | 0 => none
    | depth + 1 =>
      match rest.dropWhile isSpace with
      | '}' :: rest => some (.object [], rest)
      | rest =>
        (readMembers (readValue depth) rest).map fun (members, rest) => (ofMembers members, rest)
  | rest => (readNumber rest).map fun (value, rest) => (.number value, rest)

/-- How many arrays and objects may be open at once. -/
def maxDepth : Nat := 127

/-- The value that a whole text spells. -/
def parse? (text : String) : Option Json := do
  let (value, rest) ← readValue maxDepth text.toList
  if rest.all isSpace then some value else none

end RemoteCall.Json
