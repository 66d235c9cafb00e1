import HeapSentry.Decimal.Dyadic
import HeapSentry.Decimal.Fixed
import HeapSentry.Settings.Basic

/-!
# Counts of bytes in words

A count is given in the largest unit that it reaches: mebibytes and gibibytes with one decimal,
kibibytes in whole numbers.
-/

namespace HeapSentry.ByteCount

/-- The quotient of a count, rounded to a float, by a unit, with some digits after the point. -/
def inUnit (bytes : UInt64) (unit places : Nat) : String :=
  match Decimal.Dyadic.ofFloat? bytes.toFloat with
  | none => ""
  | some d =>
    let (num, den) := d.quotient
    Decimal.fixed num (den * unit) places

def text (bytes : UInt64) : String :=
  let n := bytes.toNat
  if n ≥ 1024 * mebibyte then inUnit bytes (1024 * mebibyte) 1 ++ " GB"
  else if n ≥ mebibyte then inUnit bytes mebibyte 1 ++ " MB"
  else if n ≥ 1024 then inUnit bytes 1024 0 ++ " KB"
  else s!"{bytes} B"

def toMebibytes (bytes : Nat) : Nat := bytes / mebibyte

end HeapSentry.ByteCount
