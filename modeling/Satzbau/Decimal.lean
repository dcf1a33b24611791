namespace Satzbau

/-- The number `digits / 10 ^ places`. -/
structure Decimal where
  digits : Nat
  places : Nat
deriving DecidableEq, Repr, Inhabited

/-- Rounds a quotient to the nearest natural number, a tie to the even one. -/
def roundedQuotient (numerator denominator : Nat) : Nat :=
  let quotient := numerator / denominator
  let twice := 2 * (numerator % denominator)
  if denominator < twice ∨ (twice = denominator ∧ quotient % 2 = 1) then quotient + 1 else quotient

namespace Binary64

/-- The bits of positive infinity. -/
def infinity : Nat :=
  2047 * Nat.pow 2 52

/-- The exponent `e` of the spacing `2 ^ (e - 1074)` of doubles around a positive quotient, found
from a lower bound that is at most one too small. -/
def spacing (numerator denominator : Nat) : Nat :=
  let low := 1074 + numerator.log2 - denominator.log2 - 53
  if denominator * Nat.pow 2 (low + 53) ≤ numerator * Nat.pow 2 1074 then low + 1 else low

/-- The bits of the double nearest to a nonnegative quotient. A significand that rounds up to
`2 ^ 53` carries into the exponent field, which is what it should do; all that lies beyond the
largest double is infinity. -/
def ofQuotient (numerator denominator : Nat) : Nat :=
  if numerator = 0 then 0
  else
    let e := spacing numerator denominator
    min infinity (e * Nat.pow 2 52 + roundedQuotient (numerator * Nat.pow 2 1074) (denominator * Nat.pow 2 e))

end Binary64

/-- The bits of the double nearest to a decimal number. -/
def Decimal.bits (d : Decimal) : Nat :=
  Binary64.ofQuotient d.digits (Nat.pow 10 d.places)

end Satzbau
