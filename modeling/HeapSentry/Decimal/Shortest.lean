import HeapSentry.Decimal.Dyadic

/-!
# The shortest decimal that reads back

For one digit, two digits and so on, the two neighbours of the value on the decimal grid of that
many digits are tried.  The first grid with a neighbour inside the interval of reals that round to
the float wins.  If a point of a grid lies in that interval then so does a neighbour of the value,
so no shorter decimal reads back as the same float.
-/

namespace HeapSentry.Decimal

/-- The decimal `digits * 10 ^ exponent`. -/
structure Scaled where
  digits : Nat
  exponent : Int
  deriving DecidableEq, Repr

/-- The same decimal without trailing zeros in its digits. -/
def Scaled.trim (s : Scaled) : Scaled :=
  if h : s.digits ≠ 0 ∧ s.digits % 10 = 0 then trim ⟨s.digits / 10, s.exponent + 1⟩ else s
termination_by s.digits
decreasing_by exact Nat.div_lt_self (Nat.pos_of_ne_zero h.1) (by decide)

/-- How many decimal digits `n` has; zero has one. -/
def digitCount (n : Nat) : Nat := (Nat.toDigits 10 n).length

namespace Shortest

/-- The reals that round to a float, as numerators over a common denominator. -/
structure Interval where
  low : Nat
  value : Nat
  high : Nat
  denominator : Nat
  /-- The ends round to the float as well: its mantissa is even. -/
  closed : Bool

/-- The neighbour below a power of two is half as far away as the one above. -/
def Interval.of (d : Dyadic) : Interval :=
  let scale : Dyadic → Nat × Nat := Dyadic.quotient
  let quarter : Int := d.exponent - 2
  let narrow := d.mantissa = Dyadic.hiddenBit ∧ -1074 < d.exponent
  let low := scale ⟨false, 4 * d.mantissa - (if narrow then 1 else 2), quarter⟩
  let value := scale ⟨false, 4 * d.mantissa, quarter⟩
  let high := scale ⟨false, 4 * d.mantissa + 2, quarter⟩
  ⟨low.1, value.1, high.1, value.2, d.mantissa % 2 = 0⟩

/-- The grid `10 ^ k` as a quotient of naturals. -/
def grid (k : Int) : Nat × Nat :=
  if 0 ≤ k then (Nat.pow 10 k.toNat, 1) else (1, Nat.pow 10 (-k).toNat)

/-- Whether the grid point `n * 10 ^ k` reads back as the float. -/
def Interval.contains (i : Interval) (n : Nat) (k : Int) : Bool :=
  let (up, down) := grid k
  let point := n * up * i.denominator
  if i.closed then i.low * down ≤ point && point ≤ i.high * down
  else i.low * down < point && point < i.high * down

/-- The neighbour on the grid `10 ^ k` that reads back; of two the nearer, at a tie the even. -/
def Interval.pick (i : Interval) (k : Int) : Option Scaled :=
  let (up, down) := grid k
  let step := up * i.denominator
  let target := i.value * down
  let below := target / step
  let above := below + 1
  let nearBelow : Bool :=
    let twice := 2 * (target - below * step)
    decide (twice < step) || (decide (twice = step) && below % 2 == 0)
  match i.contains below k, i.contains above k with
  | true, true => some ⟨if nearBelow then below else above, k⟩
  | true, false => some ⟨below, k⟩
  | false, true => some ⟨above, k⟩
  | false, false => none

/-- The power of ten of the leading digit; `Nat.pow 10 350` lifts every positive float above one. -/
def leading (i : Interval) : Int :=
  (digitCount (i.value * Nat.pow 10 350 / i.denominator) : Int) - 351

/-- Tries `count` digits and more, at most `fuel` times. -/
def search (i : Interval) (count : Nat) : Nat → Scaled
  | 0 => ⟨0, 0⟩
  | fuel + 1 =>
    match i.pick (leading i - count + 1) with
    | some s => s
    | none => search i (count + 1) fuel

end Shortest

/-- The shortest decimal of a positive dyadic; seventeen digits always suffice. -/
def shortest (d : Dyadic) : Scaled :=
  if d.mantissa = 0 then ⟨0, 0⟩ else (Shortest.search (.of d) 1 17).trim

end HeapSentry.Decimal
