import HeapSentry.Decimal.Shortest

/-!
# JSON values

A number keeps its digits: the same text is an integer to one reader and a float to another, and a
number that nobody asks for may be too large for either.
-/

namespace HeapSentry.Json

/-- A power of ten as written. -/
structure Exponent where
  negative : Bool
  digits : List Char
  deriving DecidableEq, Repr

/-- A number as written. -/
structure Number where
  negative : Bool
  whole : List Char
  fraction : Option (List Char)
  exponent : Option Exponent
  deriving DecidableEq, Repr

inductive Value where
  | null
  | bool (b : Bool)
  | num (n : Number)
  | str (s : String)
  | arr (items : List Value)
  | obj (members : List (String × Value))
  deriving Repr

namespace Number

def ofNat (n : Nat) : Number := ⟨false, Nat.toDigits 10 n, none, none⟩

def ofInt (i : Int) : Number := ⟨i < 0, Nat.toDigits 10 i.natAbs, none, none⟩

/-- How floats are laid out: the decimal point stays inside a window around the digits. -/
structure FloatLayout where
  /-- Digits before the point at most; more are written with an exponent. -/
  mostWhole : Int
  /-- Zeros between the point and the first digit at most. -/
  mostZeros : Int

/-- Floats are positional from `0.00001` up to sixteen whole digits, and always show a point unless
they show an exponent. -/
def floatLayout : FloatLayout := ⟨16, 4⟩

/-- The layout of `± digits * 10 ^ exponent`. -/
def ofScaled (layout : FloatLayout) (negative : Bool) (s : Decimal.Scaled) : Number :=
  let digits := Nat.toDigits 10 s.digits
  let point := Int.ofNat digits.length + s.exponent
  if 0 ≤ s.exponent ∧ point ≤ layout.mostWhole then
    ⟨negative, digits ++ List.replicate s.exponent.toNat '0', some ['0'], none⟩
  else if 0 < point ∧ point ≤ layout.mostWhole then
    ⟨negative, digits.take point.toNat, some (digits.drop point.toNat), none⟩
  else if -layout.mostZeros ≤ point ∧ point ≤ 0 then
    ⟨negative, ['0'], some (List.replicate (-point).toNat '0' ++ digits), none⟩
  else
    let power := point - 1
    ⟨negative, digits.take 1, if digits.length ≤ 1 then none else some (digits.drop 1),
      some ⟨power < 0, Nat.toDigits 10 power.natAbs⟩⟩

/-- The shortest decimal that reads back; infinities and NaN have none. -/
def ofFloat? (x : Float) : Option Number :=
  (Decimal.Dyadic.ofFloat? x).map fun d ↦
    ofScaled floatLayout d.negative (Decimal.shortest d)

/-- The characters of a number; an exponent always shows its sign. -/
def text (n : Number) : List Char :=
  (if n.negative then ['-'] else []) ++ n.whole
    ++ (match n.fraction with | none => [] | some ds => '.' :: ds)
    ++ (match n.exponent with
        | none => []
        | some e => 'e' :: (if e.negative then '-' else '+') :: e.digits)

end Number

namespace Value

def nat (n : Nat) : Value := .num (.ofNat n)

def int (i : Int) : Value := .num (.ofInt i)

/-- A float without a decimal form is written as null. -/
def float (x : Float) : Value :=
  match Number.ofFloat? x with
  | some n => .num n
  | none => .null

/-- The members of a record, without those that are absent. -/
def record (members : List (String × Option Value)) : Value :=
  .obj (members.filterMap fun (k, v) ↦ v.map (k, ·))

def ofOption {α : Type} (f : α → Value) : Option α → Value
  | none => .null
  | some a => f a

def list {α : Type} (f : α → Value) (xs : List α) : Value := .arr (xs.map f)

end Value

end HeapSentry.Json
