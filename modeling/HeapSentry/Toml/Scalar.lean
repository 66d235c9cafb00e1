import HeapSentry.Decimal.Nearest
import HeapSentry.Text.Hex
import HeapSentry.Toml.Value

/-!
# Unquoted TOML values

Numbers, truth values, dates and times.  Underscores may stand between digits, and a decimal number
has no leading zeros.
-/

namespace HeapSentry.Toml

def isDigit (c : Char) : Bool := '0' ≤ c && c ≤ '9'

def isHexDigit (c : Char) : Bool := (Text.hexDigit? c).isSome

def isOctalDigit (c : Char) : Bool := '0' ≤ c && c ≤ '7'

def isBinaryDigit (c : Char) : Bool := c == '0' || c == '1'

/-- Digits, at least one, without the underscores between them. -/
def ungroup? (digit : Char → Bool) : List Char → Option (List Char)
  | [] => none
  | [c] => if digit c then some [c] else none
  | c :: '_' :: rest => if digit c then (ungroup? digit rest).map (c :: ·) else none
  | c :: rest => if digit c then (ungroup? digit rest).map (c :: ·) else none

def digitsValue (base : Nat) (digits : List Char) : Nat :=
  digits.foldl (fun n c ↦ n * base + (Text.hexDigit? c).getD 0) 0

/-- Decimal digits without leading zeros. -/
def plainDigits? (cs : List Char) : Option (List Char) :=
  match ungroup? isDigit cs with
  | some ('0' :: _ :: _) => none
  | digits => digits

def sign : List Char → Bool × List Char
  | '-' :: cs => (true, cs)
  | '+' :: cs => (false, cs)
  | cs => (false, cs)

/-- The smallest integer that is taken note of: it has 128 bits with its sign. -/
def smallestInteger : Int := -0x80000000000000000000000000000000

/-- The greatest integer that is taken note of: it has 128 bits. -/
def greatestInteger : Int := 0xffffffffffffffffffffffffffffffff

/-- An integer that is not too far out. -/
def integer? (i : Int) : Option Value :=
  if smallestInteger ≤ i ∧ i ≤ greatestInteger then some (.integer i) else none

def based? (base : Nat) (digit : Char → Bool) (cs : List Char) : Option Value :=
  ungroup? digit cs >>= fun digits ↦ integer? (digitsValue base digits)

def decimalInteger? (cs : List Char) : Option Value :=
  let (negative, cs) := sign cs
  plainDigits? cs >>= fun digits ↦
    let n : Int := digitsValue 10 digits
    integer? (if negative then -n else n)

/-! ## Floats -/

/-- The exponent of a float, after its mark. -/
def exponentValue? (cs : List Char) : Option Int :=
  let (negative, cs) := sign cs
  (ungroup? isDigit cs).map fun digits ↦
    let n : Int := digitsValue 10 digits
    if negative then -n else n

/-- The digits after the point; none where there is no point. -/
def fractionDigits? : List Char → Option (List Char)
  | [] => some []
  | '.' :: cs => ungroup? isDigit cs
  | _ => none

/-- A float that is not infinite. -/
def finite? (negative : Bool) (x : Float) : Option Value :=
  if x.isInf then none else some (.float (if negative then -x else x))

/-- A decimal with a fraction, an exponent or both. -/
def decimalFloat? (cs : List Char) : Option Value := do
  let (negative, cs) := sign cs
  let isMark (c : Char) := c == 'e' || c == 'E'
  let mantissa := cs.takeWhile (!isMark ·)
  let exponent ← match cs.dropWhile (!isMark ·) with
    | [] => if mantissa.contains '.' then some 0 else none
    | _ :: rest => exponentValue? rest
  let whole ← plainDigits? (mantissa.takeWhile (· ≠ '.'))
  let fraction ← fractionDigits? (mantissa.dropWhile (· ≠ '.'))
  finite? negative
    (Decimal.nearestFloat (digitsValue 10 (whole ++ fraction)) (exponent - fraction.length))

def specialFloat? (cs : List Char) : Option Value :=
  let (negative, cs) := sign cs
  if cs = ['i', 'n', 'f'] then
    some (.float (if negative then -(1.0 / 0.0) else 1.0 / 0.0))
  else if cs = ['n', 'a', 'n'] then some (.float (0.0 / 0.0))
  else none

/-! ## Dates and times -/

/-- A number of exactly `width` digits between two bounds. -/
def fixedDigits? (width low high : Nat) (cs : List Char) : Option (Nat × List Char) :=
  let digits := cs.take width
  let n := digitsValue 10 digits
  if digits.length = width ∧ digits.all isDigit ∧ low ≤ n ∧ n ≤ high then some (n, cs.drop width)
  else none

def expect? (c : Char) : List Char → Option (List Char)
  | d :: cs => if c = d then some cs else none
  | [] => none

def isLeapYear (year : Nat) : Bool :=
  year % 4 == 0 && (year % 100 != 0 || year % 400 == 0)

def daysIn (year month : Nat) : Nat :=
  if month = 2 then if isLeapYear year then 29 else 28
  else if month = 4 ∨ month = 6 ∨ month = 9 ∨ month = 11 then 30
  else 31

def date? (cs : List Char) : Option (List Char) := do
  let (year, cs) ← fixedDigits? 4 0 9999 cs
  let (month, cs) ← fixedDigits? 2 1 12 (← expect? '-' cs)
  let (_, cs) ← fixedDigits? 2 1 (daysIn year month) (← expect? '-' cs)
  some cs

/-- Goes past the fraction of a second. -/
def secondFraction? : List Char → Option (List Char)
  | '.' :: cs => if (cs.takeWhile isDigit).isEmpty then none else some (cs.dropWhile isDigit)
  | cs => some cs

/-- Goes past a time; the seconds may be left out. -/
def time? (cs : List Char) : Option (List Char) := do
  let (_, cs) ← fixedDigits? 2 0 23 cs
  let (_, cs) ← fixedDigits? 2 0 59 (← expect? ':' cs)
  match cs with
  | ':' :: cs =>
    let (_, cs) ← fixedDigits? 2 0 60 cs
    secondFraction? cs
  | cs => some cs

/-- Goes past the offset from universal time. -/
def offset? : List Char → Option (List Char)
  | [] => some []
  | [c] => if c = 'Z' ∨ c = 'z' then some [] else none
  | c :: cs =>
    if c = '+' ∨ c = '-' then do
      let (_, cs) ← fixedDigits? 2 0 23 cs
      let (_, cs) ← fixedDigits? 2 0 59 (← expect? ':' cs)
      some cs
    else none

/-- Goes past what follows a date. -/
def dateTail? : List Char → Option (List Char)
  | [] => some []
  | c :: cs => if c = 'T' ∨ c = 't' ∨ c = ' ' then time? cs >>= offset? else none

/-- A date, a time, or both. -/
def datetime? (cs : List Char) : Option Value :=
  match date? cs >>= dateTail?, time? cs with
  | some [], _ | _, some [] => some .datetime
  | _, _ => none

/-! ## All unquoted values -/

/-- The value that an unquoted run of characters stands for. -/
def scalar? (cs : List Char) : Option Value :=
  match cs with
  | ['t', 'r', 'u', 'e'] => some (.boolean true)
  | ['f', 'a', 'l', 's', 'e'] => some (.boolean false)
  | '0' :: 'x' :: digits => based? 16 isHexDigit digits
  | '0' :: 'o' :: digits => based? 8 isOctalDigit digits
  | '0' :: 'b' :: digits => based? 2 isBinaryDigit digits
  | cs => decimalInteger? cs <|> decimalFloat? cs <|> specialFloat? cs <|> datetime? cs

end HeapSentry.Toml
