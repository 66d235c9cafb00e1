/-!
# Hexadecimal text

Digits are lower case on output; either case is read.
-/

namespace HeapSentry.Text

/-- The digits of a natural, without leading zeros. -/
def hex (n : Nat) : String := String.ofList (Nat.toDigits 16 n)

/-- The last `width` hexadecimal digits of a natural. -/
def hexPadded (width n : Nat) : String :=
  String.ofList ((List.range width).reverse.map fun i ↦ Nat.digitChar (n / Nat.pow 16 i % 16))

def hexBytes (bytes : List UInt8) : String :=
  String.join (bytes.map fun b ↦ hexPadded 2 b.toNat)

/-- The value of one digit. -/
def hexDigit? (c : Char) : Option Nat :=
  if '0' ≤ c ∧ c ≤ '9' then some (c.toNat - '0'.toNat)
  else if 'a' ≤ c ∧ c ≤ 'f' then some (c.toNat - 'a'.toNat + 10)
  else if 'A' ≤ c ∧ c ≤ 'F' then some (c.toNat - 'A'.toNat + 10)
  else none

/-- The bytes that pairs of digits stand for. -/
def bytesOfHex? : List Char → Option (List UInt8)
  | [] => some []
  | [_] => none
  | high :: low :: rest => do
    let h ← hexDigit? high
    let l ← hexDigit? low
    let bytes ← bytesOfHex? rest
    some (UInt8.ofNat (16 * h + l) :: bytes)

end HeapSentry.Text
