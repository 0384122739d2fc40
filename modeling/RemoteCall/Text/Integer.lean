/-!
# Integers

An integer is written with an optional sign and ASCII digits; leading zeros are
allowed. Reading is exact, whatever the number of digits. Numbers in other systems than
the decimal one have digits up to `f`, in either case.
-/

namespace RemoteCall.Text

/-- Whether the character is an ASCII digit. -/
def isDigit (c : Char) : Bool :=
  '0' ≤ c && c ≤ '9'

/-- The number that a digit stands for. -/
def digitValue (c : Char) : Nat :=
  c.toNat - '0'.toNat

/-- The number that digits spell, most significant first. -/
def digitsValue (digits : List Char) : Nat :=
  digits.foldl (fun value c => value * 10 + digitValue c) 0

/-- Reads one or more digits that make up the whole text. -/
def natural? (chars : List Char) : Option Nat :=
  if !chars.isEmpty && chars.all isDigit then some (digitsValue chars) else none

/-- Reads an optional sign and digits. -/
def integer? : List Char → Option Int
  | '+' :: digits => (natural? digits).map Int.ofNat
  | '-' :: digits => (natural? digits).map (fun value => -Int.ofNat value)
  | digits => (natural? digits).map Int.ofNat

/-- The value of a digit in a number system with a base up to sixteen. -/
def digitIn? (base : Nat) (c : Char) : Option Nat :=
  let value :=
    if '0' ≤ c ∧ c ≤ '9' then c.toNat - '0'.toNat
    else if 'a' ≤ c ∧ c ≤ 'f' then c.toNat - 'a'.toNat + 10
    else if 'A' ≤ c ∧ c ≤ 'F' then c.toNat - 'A'.toNat + 10
    else base
  if value < base then some value else none

/-- Whether the character is a digit of a number system. -/
def isDigitIn (base : Nat) (c : Char) : Bool :=
  (digitIn? base c).isSome

/-- The number that digits of a number system spell, most significant first. -/
def valueIn (base : Nat) (digits : List Char) : Nat :=
  digits.foldl (fun value c => value * base + (digitIn? base c).getD 0) 0

/-- The digits of a natural number without leading zeros. -/
def naturalText (value : Nat) : String :=
  String.ofList (Nat.toDigits 10 value)

/-- The canonical text of an integer: a minus sign where it is negative, then its digits. -/
def integerText (value : Int) : String :=
  if value < 0 then "-" ++ naturalText value.natAbs else naturalText value.natAbs

end RemoteCall.Text
