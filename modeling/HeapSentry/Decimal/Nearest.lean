/-!
# Reading decimals

The float nearest to a decimal.  Exponents that lead beyond all floats, or below half of the least
one, are cut off before any power of ten is formed.
-/

namespace HeapSentry.Decimal

/-- No float has more digits before the point. -/
def wholeDigitLimit : Int := 310

/-- No float has more zeros between the point and its first digit. -/
def leadingZeroLimit : Int := 330

/-- The float nearest to `digits * 10 ^ exponent`. -/
def nearestFloat (digits : Nat) (exponent : Int) : Float :=
  let point := Int.ofNat (Nat.toDigits 10 digits).length + exponent
  if digits = 0 ∨ point < -leadingZeroLimit then 0.0
  else if wholeDigitLimit < point then 1.0 / 0.0
  else Float.ofScientific digits (exponent < 0) exponent.natAbs

end HeapSentry.Decimal
