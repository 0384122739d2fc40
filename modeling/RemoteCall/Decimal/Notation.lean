import RemoteCall.Decimal.Shortest
import RemoteCall.Text.Integer

/-!
# Decimal notation

How the digits of a number are laid out: positionally within a range of magnitudes,
with at least one digit after the point, and with a signed exponent elsewhere. The
limits of the range are a record, so that a format states them in one place.
-/

namespace RemoteCall.Decimal

/-- Which decimal exponents are written positionally. -/
structure Notation where
  firstPositional : Int
  lastPositional : Int

/-- Lays out a positive number. -/
def Scientific.render (style : Notation) (x : Scientific) : List Char :=
  let digits := Nat.toDigits 10 x.digits
  let magnitude := x.exponent + (digits.length : Int) - 1
  if style.firstPositional ≤ magnitude ∧ magnitude ≤ style.lastPositional then
    if 0 ≤ x.exponent then digits ++ List.replicate x.exponent.toNat '0' ++ ['.', '0']
    else if 0 ≤ magnitude then
      digits.take (magnitude.toNat + 1) ++ '.' :: digits.drop (magnitude.toNat + 1)
    else '0' :: '.' :: (List.replicate (-magnitude - 1).toNat '0' ++ digits)
  else
    let fraction := if digits.length = 1 then [] else '.' :: digits.drop 1
    let sign := if magnitude < 0 then '-' else '+'
    digits.take 1 ++ fraction ++ 'e' :: sign :: Nat.toDigits 10 magnitude.natAbs

/-- Lays out a number with its sign; zero is written `0.0`. -/
def Binary64.render (style : Notation) (negative : Bool) (x : Binary64) : List Char :=
  let magnitude := if x.significand = 0 then ['0', '.', '0'] else x.shortest.render style
  if negative then '-' :: magnitude else magnitude

end RemoteCall.Decimal
