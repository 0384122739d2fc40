import RemoteCall.Decimal.Binary64

/-!
# The shortest decimal that reads back

The numbers that round to a given binary number form an interval, its ends included
when the significand is even. Of the decimals in it those with the fewest digits are
taken, and of these the nearest. If a point of a decimal grid lies in the interval, so
does one of the two neighbours of the number on that grid, and only these are tried.
-/

namespace RemoteCall.Decimal

/-- The number `digits * 10 ^ exponent`. -/
structure Scientific where
  digits : Nat
  exponent : Int
deriving DecidableEq, Repr

/-- The integer part of the decimal logarithm of a positive quotient. -/
def quotientLog10 (numerator denominator : Nat) : Int :=
  if denominator ≤ numerator then
    ((Nat.toDigits 10 (numerator / denominator)).length : Int) - 1
  else
    -((Nat.toDigits 10 ((numerator + denominator - 1) / numerator - 1)).length : Int)

/-- Moves trailing zeros of the digits into the exponent, at most `fuel` of them. -/
def Scientific.strip : Nat → Scientific → Scientific
  | 0, x => x
  | fuel + 1, x =>
    if x.digits ≠ 0 ∧ x.digits % 10 = 0 then strip fuel ⟨x.digits / 10, x.exponent + 1⟩ else x

namespace Binary64

/-- Whether `count * step` rounds to `x`, where a quarter of the unit of `x` measures
`quarter`, both over one denominator. -/
def roundsBack (x : Binary64) (count step quarter : Nat) : Bool :=
  let point := count * step
  let low :=
    4 * x.significand -
      (if x.significand = Nat.pow 2 52 ∧ minExponent < x.exponent then 1 else 2)
  let high := 4 * x.significand + 2
  if x.significand % 2 = 0 then low * quarter ≤ point && point ≤ high * quarter
  else low * quarter < point && point < high * quarter

/-- The decimal with `places` digits that reads back as the positive number `x`, if there
is one; the nearer one if there are two. -/
def withDigits? (x : Binary64) (places : Nat) : Option Scientific :=
  let (numerator, denominator) := x.ratio
  let grid := quotientLog10 numerator denominator + 1 - (places : Int)
  -- One quarter of the unit of `x` and one step of the grid, over a common denominator.
  let binary := x.exponent - 2
  let quarter := Nat.pow 2 binary.toNat * Nat.pow 10 (-grid).toNat
  let step := Nat.pow 10 grid.toNat * Nat.pow 2 (-binary).toNat
  let value := 4 * x.significand * quarter
  let below := value / step
  let belowFits := x.roundsBack below step quarter
  let aboveFits := x.roundsBack (below + 1) step quarter
  let belowNearer :=
    2 * value < (2 * below + 1) * step ∨ (2 * value = (2 * below + 1) * step ∧ below % 2 = 0)
  if belowFits && (!aboveFits || belowNearer) then some ⟨below, grid⟩
  else if aboveFits then some ⟨below + 1, grid⟩
  else none

/-- The decimal of fewest digits that reads back as the positive number `x`. Seventeen
digits always suffice. -/
def shortest (x : Binary64) : Scientific :=
  let found := (List.range 17).findSome? (fun n => x.withDigits? (n + 1))
  (found.getD ⟨0, 0⟩).strip 20

end Binary64

end RemoteCall.Decimal
