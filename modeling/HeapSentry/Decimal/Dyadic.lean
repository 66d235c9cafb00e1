/-!
# Floats as dyadic rationals

A finite 64-bit float is exactly `mantissa * 2 ^ exponent`.  Printing works on that pair, so it
needs no float arithmetic and every digit it decides on is exact.
-/

namespace HeapSentry.Decimal

/-- The number `± mantissa * 2 ^ exponent`. -/
structure Dyadic where
  negative : Bool
  mantissa : Nat
  exponent : Int
  deriving DecidableEq, Repr

namespace Dyadic

/-- The absolute value as a quotient of two naturals, the second never zero. -/
def quotient (d : Dyadic) : Nat × Nat :=
  if 0 ≤ d.exponent then (d.mantissa * Nat.pow 2 d.exponent.toNat, 1)
  else (d.mantissa, Nat.pow 2 (-d.exponent).toNat)

/-- The bit that normal mantissas have and do not store. -/
def hiddenBit : Nat := 0x10000000000000

/-- Reads the fields of the interchange format; infinities and NaN have no dyadic value. -/
def ofFloat? (x : Float) : Option Dyadic :=
  let bits := x.toBits.toNat
  let negative := bits / 0x8000000000000000 % 2 == 1
  let biased := bits / hiddenBit % 2048
  let fraction := bits % hiddenBit
  if biased = 2047 then none
  else if biased = 0 then some ⟨negative, fraction, -1074⟩
  else some ⟨negative, hiddenBit + fraction, Int.ofNat biased - 1075⟩

end Dyadic

end HeapSentry.Decimal
