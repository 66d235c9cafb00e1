/-!
# Quoted JSON strings

Writing escapes the quote, the backslash and the characters below the space; everything else,
whatever its script, stands for itself.  Reading accepts every escape of the format.  An escape may
name half of a surrogate pair without the other half: such a string is well formed but denotes no
text, which only matters to a reader that wants the text.
-/

namespace HeapSentry.Json.Quoted

/-- A hexadecimal digit, lower case. -/
def hexDigit (n : Nat) : Char :=
  if n < 10 then Char.ofNat (48 + n) else Char.ofNat (87 + n)

def hexValue? (c : Char) : Option Nat :=
  if '0' ≤ c ∧ c ≤ '9' then some (c.toNat - 48)
  else if 'a' ≤ c ∧ c ≤ 'f' then some (c.toNat - 87)
  else if 'A' ≤ c ∧ c ≤ 'F' then some (c.toNat - 55)
  else none

/-- How one character is written inside quotes. -/
def escape (c : Char) : List Char :=
  if c = '"' then ['\\', '"']
  else if c = '\\' then ['\\', '\\']
  else if c = '\n' then ['\\', 'n']
  else if c = '\r' then ['\\', 'r']
  else if c = '\t' then ['\\', 't']
  else if c = '\x08' then ['\\', 'b']
  else if c = '\x0c' then ['\\', 'f']
  else if c.toNat < 32 then ['\\', 'u', '0', '0', hexDigit (c.toNat / 16), hexDigit (c.toNat % 16)]
  else [c]

def encode (s : List Char) : List Char := '"' :: (s.flatMap escape ++ ['"'])

/-- Four hexadecimal digits and what follows them. -/
def hexQuad? : List Char → Option (Nat × List Char)
  | a :: b :: c :: d :: rest => do
    let a ← hexValue? a
    let b ← hexValue? b
    let c ← hexValue? c
    let d ← hexValue? d
    some (((a * 16 + b) * 16 + c) * 16 + d, rest)
  | _ => none

/-- The character after a backslash, apart from `u`. -/
def simpleEscape? : Char → Option Char
  | '"' => some '"'
  | '\\' => some '\\'
  | '/' => some '/'
  | 'b' => some '\x08'
  | 'f' => some '\x0c'
  | 'n' => some '\n'
  | 'r' => some '\r'
  | 't' => some '\t'
  | _ => none

def isHighSurrogate (n : Nat) : Bool := 0xD800 ≤ n && n ≤ 0xDBFF

def isLowSurrogate (n : Nat) : Bool := 0xDC00 ≤ n && n ≤ 0xDFFF

inductive Piece where
  /-- A character, `none` for half of a surrogate pair. -/
  | char (c : Option Char) (rest : List Char)
  /-- The closing quote. -/
  | close (rest : List Char)
  /-- Neither a character nor the end of a string. -/
  | broken

/-- A surrogate pair when the second escape follows at once, otherwise a lone half. -/
def afterHighSurrogate (high : Nat) (rest : List Char) : Piece :=
  match rest with
  | '\\' :: 'u' :: more =>
    match hexQuad? more with
    | some (low, rest') =>
      if isLowSurrogate low then
        .char (some (Char.ofNat (0x10000 + (high - 0xD800) * 0x400 + (low - 0xDC00)))) rest'
      else .char none rest
    | none => .char none rest
  | _ => .char none rest

def next : List Char → Piece
  | [] => .broken
  | '"' :: rest => .close rest
  | '\\' :: 'u' :: rest =>
    match hexQuad? rest with
    | none => .broken
    | some (n, rest') =>
      if isHighSurrogate n then afterHighSurrogate n rest'
      else if isLowSurrogate n then .char none rest'
      else .char (some (Char.ofNat n)) rest'
  | '\\' :: c :: rest =>
    match simpleEscape? c with
    | some c' => .char (some c') rest
    | none => .broken
  | c :: rest => if c = '\\' ∨ c.toNat < 32 then .broken else .char (some c) rest

/-- Reads to the closing quote; `seen` holds the characters so far in reverse, or nothing once half
of a surrogate pair has been met. -/
def body : Nat → Option (List Char) → List Char → Option (Option (List Char) × List Char)
  | 0, _, _ => none
  | fuel + 1, seen, cs =>
    match next cs with
    | .broken => none
    | .close rest => some (seen.map List.reverse, rest)
    | .char c rest => body fuel (do some ((← c) :: (← seen))) rest

/-- Reads a string whose opening quote has been read: its text, if it denotes one, and the rest. -/
def decode? (cs : List Char) : Option (Option (List Char) × List Char) :=
  body cs.length (some []) cs

end HeapSentry.Json.Quoted
