import HeapSentry.Decimal.Dyadic

/-!
# Decimals with a fixed number of places
-/

namespace HeapSentry.Decimal

/-- The natural nearest to `num / den`; of two equally near the even one. -/
def roundEven (num den : Nat) : Nat :=
  let below := num / den
  let twice := 2 * (num % den)
  if twice < den then below
  else if den < twice then below + 1
  else below + below % 2

/-- The text of `num / den` with `places` digits after the point. -/
def fixed (num den places : Nat) : String :=
  let scaled := toString (roundEven (num * Nat.pow 10 places) den)
  if places = 0 then scaled
  else
    let padded := "".pushn '0' (places + 1 - scaled.length) ++ scaled
    let whole := padded.length - places
    (padded.take whole).toString ++ "." ++ (padded.drop whole).toString

end HeapSentry.Decimal
