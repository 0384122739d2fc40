import RemoteCall.Decimal.Binary64
import RemoteCall.Text.Integer

/-!
# Decimal numbers as text

A decimal number has an optional sign, digits with an optional point among them, and an
optional exponent. It counts as finite when the nearest binary number is.
-/

namespace RemoteCall.Decimal

/-- Drops an optional sign. -/
def skipSign : List Char → List Char
  | '+' :: rest => rest
  | '-' :: rest => rest
  | rest => rest

/-- Reads an exponent after its mark, to the end of the text. -/
def readExponent? (chars : List Char) : Option Int :=
  match chars with
  | '+' :: digits => (Text.natural? digits).map Int.ofNat
  | '-' :: digits => (Text.natural? digits).map (fun value => -Int.ofNat value)
  | digits => (Text.natural? digits).map Int.ofNat

/-- The digits before and after the point, and the rest. -/
def splitDigits (chars : List Char) : List Char × List Char × List Char :=
  let whole := chars.takeWhile Text.isDigit
  match chars.dropWhile Text.isDigit with
  | '.' :: rest => (whole, rest.takeWhile Text.isDigit, rest.dropWhile Text.isDigit)
  | rest => (whole, [], rest)

/-- The magnitude that a decimal number spells, as digits and a power of ten. -/
def readMagnitude? (chars : List Char) : Option (Nat × Int) := do
  let (whole, fraction, rest) := splitDigits (skipSign chars)
  let exponent ← match rest with
    | [] => some 0
    | 'e' :: rest => readExponent? rest
    | 'E' :: rest => readExponent? rest
    | _ => none
  if whole.isEmpty && fraction.isEmpty then none
  else some (Text.digitsValue (whole ++ fraction), exponent - (fraction.length : Int))

/-- Whether the text is a decimal number with a finite binary neighbour. -/
def isFiniteNumber (chars : List Char) : Bool :=
  match readMagnitude? chars with
  | some (digits, exponent) => (Binary64.ofDecimal? digits exponent).isSome
  | none => false

end RemoteCall.Decimal
