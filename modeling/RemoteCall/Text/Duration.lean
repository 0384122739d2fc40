import RemoteCall.Text.Integer

/-!
# Durations

A duration is written in the largest unit that makes it at least one, from nanoseconds
to seconds, with the digits of the fraction that are needed.
-/

namespace RemoteCall.Text

/-- Drops zeros at the end. -/
def dropTrailingZeros (digits : List Char) : List Char :=
  (digits.reverse.dropWhile (· == '0')).reverse

/-- A count of parts, `10 ^ places` of which make a unit, in that unit. -/
def decimalText (places count : Nat) : String :=
  let whole := naturalText (count / Nat.pow 10 places)
  let part := Nat.toDigits 10 (count % Nat.pow 10 places)
  let fraction := dropTrailingZeros (List.replicate (places - part.length) '0' ++ part)
  if count % Nat.pow 10 places = 0 then whole
  else whole ++ "." ++ String.ofList fraction

/-- Writes a duration that is given in nanoseconds. -/
def durationText (nanoseconds : Nat) : String :=
  if Nat.pow 10 9 ≤ nanoseconds then decimalText 9 nanoseconds ++ "s"
  else if Nat.pow 10 6 ≤ nanoseconds then decimalText 6 nanoseconds ++ "ms"
  else if Nat.pow 10 3 ≤ nanoseconds then decimalText 3 nanoseconds ++ "µs"
  else naturalText nanoseconds ++ "ns"

end RemoteCall.Text
