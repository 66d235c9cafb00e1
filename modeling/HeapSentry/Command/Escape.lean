/-!
# Escapes

A backslash and what follows it stand for one byte or one character.  Texts differ in which escapes
they have.
-/

namespace HeapSentry.Command

def utf8 (c : Char) : List UInt8 := (String.singleton c).toUTF8.toList

def utf8All (cs : List Char) : List UInt8 := (String.ofList cs).toUTF8.toList

def bytesOf (bytes : List UInt8) : ByteArray := ⟨bytes.toArray⟩

/-- Which escapes there are besides those with letters. -/
structure EscapeRules where
  /-- Whether the digits of a byte have to follow a zero. -/
  zeroFirst : Bool
  /-- Whether there are bytes in hexadecimal. -/
  extended : Bool
  /-- Whether quotes can be escaped. -/
  quotes : Bool := false
  deriving DecidableEq, Repr

namespace EscapeRules

def letter? (r : EscapeRules) (c : Char) : Option Char :=
  match c with
  | 'n' => some '\n'
  | 't' => some '\t'
  | 'r' => some '\r'
  | 'a' => some '\x07'
  | 'b' => some '\x08'
  | 'f' => some '\x0c'
  | 'v' => some '\x0b'
  | '\\' => some '\\'
  | 'e' => some '\x1b'
  | 'E' => if r.extended then some '\x1b' else none
  | '"' | '\'' => if r.quotes then some c else none
  | _ => none

def digit? (base : Nat) (c : Char) : Option Nat :=
  let n := if c.isDigit then c.toNat - 48
    else if 'a' ≤ c && c ≤ 'z' then c.toNat - 87
    else if 'A' ≤ c && c ≤ 'Z' then c.toNat - 55
    else base
  if n < base then some n else none

/-- A byte in some digits, three or two at the most, and how many there are. -/
def number (base most : Nat) (cs : List Char) : UInt8 × Nat :=
  let digits := ((cs.take most).map (digit? base)).takeWhile Option.isSome
  let value := digits.foldl (fun n d ↦ base * n + d.getD 0) 0
  (UInt8.ofNat value, digits.length)

/-- What a backslash before `c` stands for, and how many characters it takes after `c`. -/
def escape (r : EscapeRules) (c : Char) (cs : List Char) : List UInt8 × Nat :=
  match r.letter? c with
  | some e => (utf8 e, 0)
  | none =>
    if c = '0' && r.zeroFirst then
      let (byte, n) := number 8 3 cs
      ([byte], n)
    else if (digit? 8 c).isSome && (!r.zeroFirst || !r.extended) then
      let (byte, n) := number 8 3 (c :: cs)
      ([byte], n - 1)
    else if c = 'x' && r.extended && (number 16 2 cs).2 > 0 then
      let (byte, n) := number 16 2 cs
      ([byte], n)
    else (utf8 '\\' ++ utf8 c, 0)

/-- A text with its escapes carried out, and whether one of them ended it. -/
def unescape (r : EscapeRules) : List Char → List UInt8 × Bool
  | [] => ([], false)
  | '\\' :: c :: cs =>
    if c = 'c' then ([], true)
    else
      let (bytes, n) := r.escape c cs
      let (rest, ended) := unescape r (cs.drop n)
      (bytes ++ rest, ended)
  | c :: cs =>
    let (rest, ended) := unescape r cs
    (utf8 c ++ rest, ended)
termination_by cs => cs.length
decreasing_by all_goals (simp only [List.length_drop, List.length_cons]; omega)

end EscapeRules

/-! ## Numbers -/

/-- A whole number at the start of a text, in base ten, or eight or sixteen by how it starts; and
whether nothing else is there. -/
def leadingInteger (cs : List Char) : Int × Bool :=
  let cs := cs.dropWhile fun c ↦ c = ' ' || c = '\t' || c = '\n'
  match cs with
  | '-' :: cs =>
    let (n, whole) := natural cs
    (-(n : Int), whole)
  | '+' :: cs =>
    let (n, whole) := natural cs
    ((n : Int), whole)
  | cs =>
    let (n, whole) := natural cs
    ((n : Int), whole)
where
  natural (cs : List Char) : Nat × Bool :=
    match cs with
    | '0' :: 'x' :: cs | '0' :: 'X' :: cs => inBase 16 cs
    | '0' :: cs => inBase 8 ('0' :: cs)
    | cs => inBase 10 cs
  inBase (base : Nat) (cs : List Char) : Nat × Bool :=
    let digits := (cs.map (EscapeRules.digit? base)).takeWhile Option.isSome
    (digits.foldl (fun n d ↦ base * n + d.getD 0) 0,
      digits.length > 0 && digits.length = cs.length)

end HeapSentry.Command
