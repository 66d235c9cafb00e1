import HeapSentry.Json.Value

/-!
# What a number denotes

Without a fraction or an exponent a number is an integer if it fits 64 bits.  Any other number is a
float: its digits are gathered as long as they fit 64 bits, further digits only move the point, and
the gathered digits are then scaled by powers of ten.  Digits and scale are rounded one after the
other.
-/

namespace HeapSentry.Json

/-- What a number denotes. -/
inductive Magnitude where
  | natural (n : UInt64)
  | negative (i : Int64)
  | float (x : Float)
  /-- Too large for a float. -/
  | tooLarge

namespace Number

/-- The greatest natural that fits 64 bits. -/
def gatherLimit : Nat := 0xffffffffffffffff

def digitValue (c : Char) : Nat := c.toNat - 48

/-- Gathers digits while they fit; returns what they come to and how many are left over. -/
def gather (acc : Nat) : List Char → Nat × Nat
  | [] => (acc, 0)
  | c :: cs =>
    let next := acc * 10 + digitValue c
    if next ≤ gatherLimit then gather next cs else (acc, cs.length + 1)

/-- The greatest power of ten that is read digit by digit. -/
def exponentLimit : Nat := 0x7fffffff

def digitsValue (cs : List Char) : Nat := cs.foldl (fun n c ↦ n * 10 + digitValue c) 0

def powerOfTen (n : Nat) : Float := Float.ofScientific 1 false n

/-- Scales by a power of ten, in steps of `10 ^ 308` toward zero; `none` when the result is
infinite. -/
def scale? (x : Float) (power : Int) : Option Float :=
  if -308 ≤ power ∧ power ≤ 308 then
    if 0 ≤ power then
      let y := x * powerOfTen power.toNat
      if y.isInf then none else some y
    else some (x / powerOfTen (-power).toNat)
  else if x == 0 then some x
  else if 0 ≤ power then none
  else scale? (x / powerOfTen 308) (power + 308)
termination_by power.natAbs
decreasing_by omega

/-- A float from its sign, gathered digits and power of ten. -/
def assemble (negative : Bool) (digits : Nat) (power : Int) : Magnitude :=
  match scale? (UInt64.ofNat digits).toFloat power with
  | some x => .float (if negative then -x else x)
  | none => .tooLarge

/-- Applies the written exponent, if there is one. -/
def withExponent (n : Number) (digits : Nat) (power : Int) : Magnitude :=
  match n.exponent with
  | none => assemble n.negative digits power
  | some e =>
    let size := digitsValue e.digits
    if exponentLimit < size then
      if digits ≠ 0 ∧ ¬ e.negative then .tooLarge
      else .float (if n.negative then -0.0 else 0.0)
    else assemble n.negative digits (if e.negative then power - size else power + size)

def magnitude (n : Number) : Magnitude :=
  let (digits, skipped) := gather 0 n.whole
  match n.fraction with
  | some ds =>
    let (digits, left) := gather digits ds
    n.withExponent digits (Int.ofNat skipped - Int.ofNat (ds.length - left))
  | none =>
    if n.exponent.isSome ∨ skipped ≠ 0 then n.withExponent digits skipped
    else if ¬ n.negative then .natural (UInt64.ofNat digits)
    else if digits = 0 ∨ 0x8000000000000000 < digits then assemble true digits 0
    else .negative (Int64.ofInt (-(digits : Int)))

end Number

end HeapSentry.Json
