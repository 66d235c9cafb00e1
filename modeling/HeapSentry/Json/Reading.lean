import HeapSentry.Json.Value
import HeapSentry.Json.Quoted

/-!
# What a reader sees of a JSON text

A typed reader judges values while it scans, so the first fault in the text decides, whether it is a
fault of form or of type.  Scanning therefore never fails: it returns the text as far as it can be
read, with the first fault of form left standing in the place where it occurs.  A typed reader that
gets that far meets it there; one that has already refused an earlier value never does.
-/

namespace HeapSentry.Json

/-- A text as far as it can be read. -/
inductive Reading where
  | broken
  | null
  | bool (b : Bool)
  | num (n : Number)
  /-- A quoted string; `none` when its escapes denote no text. -/
  | str (s : Option String)
  /-- The items read and whether the closing bracket followed. -/
  | arr (items : List Reading) (closed : Bool)
  /-- The members read and whether the closing brace followed. -/
  | obj (members : List (Option String × Reading)) (closed : Bool)
  deriving Repr

namespace Reading

mutual

/-- Whether nothing is amiss in the form of a value, at any depth. -/
def whole : Reading → Bool
  | .broken => false
  | .null | .bool _ | .num _ | .str _ => true
  | .arr items closed => closed && wholeItems items
  | .obj members closed => closed && wholeMembers members

def wholeItems : List Reading → Bool
  | [] => true
  | r :: rs => r.whole && wholeItems rs

def wholeMembers : List (Option String × Reading) → Bool
  | [] => true
  | (_, r) :: ms => r.whole && wholeMembers ms

end

/-- The blanks allowed between tokens. -/
def isBlank (c : Char) : Bool := c = ' ' || c = '\n' || c = '\t' || c = '\r'

def skipBlanks (cs : List Char) : List Char := cs.dropWhile isBlank

def isDigit (c : Char) : Bool := '0' ≤ c && c ≤ '9'

def digitRun (cs : List Char) : List Char × List Char :=
  (cs.takeWhile isDigit, cs.dropWhile isDigit)

def someDigits? (cs : List Char) : Option (List Char × List Char) :=
  match digitRun cs with
  | ([], _) => none
  | run => some run

/-- Whole digits: a leading zero stands alone. -/
def wholeDigits? (cs : List Char) : Option (List Char × List Char) :=
  match digitRun cs with
  | ([], _) => none
  | ('0' :: _ :: _, _) => none
  | run => some run

def fraction? : List Char → Option (Option (List Char) × List Char)
  | '.' :: cs => (someDigits? cs).map fun (ds, rest) ↦ (some ds, rest)
  | cs => some (none, cs)

/-- The sign of a power of ten, which may be left out. -/
def exponentSign : List Char → Bool × List Char
  | '-' :: cs => (true, cs)
  | '+' :: cs => (false, cs)
  | cs => (false, cs)

def exponent? : List Char → Option (Option Exponent × List Char)
  | c :: cs =>
    if c = 'e' ∨ c = 'E' then
      let (negative, cs) := exponentSign cs
      (someDigits? cs).map fun (ds, rest) ↦ (some ⟨negative, ds⟩, rest)
    else some (none, c :: cs)
  | [] => some (none, [])

/-- A number after its sign. -/
def unsigned? (negative : Bool) (cs : List Char) : Option (Number × List Char) := do
  let (whole, cs) ← wholeDigits? cs
  let (fraction, cs) ← fraction? cs
  let (exponent, cs) ← exponent? cs
  some (⟨negative, whole, fraction, exponent⟩, cs)

def number? : List Char → Option (Number × List Char)
  | '-' :: cs => unsigned? true cs
  | cs => unsigned? false cs

/-- What follows an expected word. -/
def after? : List Char → List Char → Option (List Char)
  | [], cs => some cs
  | w :: ws, c :: cs => if c = w then after? ws cs else none
  | _ :: _, [] => none

/-- A value that needs no look inside, and what follows it. -/
def scalar (r : Reading) : Option (List Char) → Reading × Option (List Char)
  | some rest => (r, some rest)
  | none => (.broken, none)

mutual

/-- Reads one value.  The rest is `none` when a fault of form was met inside the value. -/
def scan : Nat → List Char → Reading × Option (List Char)
  | 0, _ => (.broken, none)
  | fuel + 1, cs =>
    match skipBlanks cs with
    | 'n' :: rest => scalar .null (after? ['u', 'l', 'l'] rest)
    | 't' :: rest => scalar (.bool true) (after? ['r', 'u', 'e'] rest)
    | 'f' :: rest => scalar (.bool false) (after? ['a', 'l', 's', 'e'] rest)
    | '"' :: rest =>
      match Quoted.decode? rest with
      | some (s, rest) => (.str (s.map String.ofList), some rest)
      | none => (.broken, none)
    | '[' :: rest =>
      match skipBlanks rest with
      | ']' :: rest => (.arr [] true, some rest)
      | rest =>
        let (items, closed, rest) := scanItems fuel rest
        (.arr items closed, rest)
    | '\x7b' :: rest =>
      match skipBlanks rest with
      | '\x7d' :: rest => (.obj [] true, some rest)
      | '"' :: rest =>
        let (members, closed, rest) := scanMembers fuel rest
        (.obj members closed, rest)
      | _ => (.obj [] false, none)
    | rest =>
      match number? rest with
      | some (n, rest) => (.num n, some rest)
      | none => (.broken, none)

def scanItems : Nat → List Char → List Reading × Bool × Option (List Char)
  | 0, _ => ([], false, none)
  | fuel + 1, cs =>
    match scan fuel cs with
    | (r, none) => ([r], false, none)
    | (r, some rest) =>
      match skipBlanks rest with
      | ']' :: rest => ([r], true, some rest)
      | ',' :: rest =>
        match skipBlanks rest with
        | ']' :: _ => ([r], false, none)
        | rest =>
          let (items, closed, rest) := scanItems fuel rest
          (r :: items, closed, rest)
      | _ => ([r], false, none)

/-- Reads the members of an object up to its closing brace; the opening quote of the first name has
been read. -/
def scanMembers : Nat → List Char → List (Option String × Reading) × Bool × Option (List Char)
  | 0, _ => ([], false, none)
  | fuel + 1, cs =>
    match Quoted.decode? cs with
    | none => ([], false, none)
    | some (name, rest) =>
      let name := name.map String.ofList
      match skipBlanks rest with
      | ':' :: rest =>
        match scan fuel rest with
        | (r, none) => ([(name, r)], false, none)
        | (r, some rest) =>
          match skipBlanks rest with
          | '\x7d' :: rest => ([(name, r)], true, some rest)
          | ',' :: rest =>
            match skipBlanks rest with
            | '"' :: rest =>
              let (members, closed, rest) := scanMembers fuel rest
              ((name, r) :: members, closed, rest)
            | _ => ([(name, r)], false, none)
          | _ => ([(name, r)], false, none)
      | _ => ([(name, .broken)], false, none)

end

/-- Reads the text of one value and reports whether only blanks follow it. -/
def ofText (text : String) : Reading × Bool :=
  let cs := text.toList
  match scan (2 * cs.length + 2) cs with
  | (r, some rest) => (r, (skipBlanks rest).isEmpty)
  | (r, none) => (r, false)

mutual

/-- The value read, if it is whole and all its strings denote text. -/
def value? : Reading → Option Value
  | .null => some .null
  | .bool b => some (.bool b)
  | .num n => some (.num n)
  | .str s => s.map .str
  | .arr items true => (itemValues? items).map .arr
  | .obj members true => (memberValues? members).map .obj
  | _ => none

def itemValues? : List Reading → Option (List Value)
  | [] => some []
  | r :: rs => do some ((← r.value?) :: (← itemValues? rs))

def memberValues? : List (Option String × Reading) → Option (List (String × Value))
  | [] => some []
  | (k, r) :: ms => do some ((← k, ← r.value?) :: (← memberValues? ms))

end

end Reading

/-- Reads a text that holds exactly one value. -/
def Value.parse? (text : String) : Option Value :=
  match Reading.ofText text with
  | (r, true) => r.value?
  | (_, false) => none

end HeapSentry.Json
