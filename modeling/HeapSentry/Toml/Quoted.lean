import HeapSentry.Text.Hex

/-!
# TOML strings

Basic strings have escapes, literal strings have none; either may span lines between three quotes.
-/

namespace HeapSentry.Toml

/-- Characters that stand nowhere in a document unescaped, line ends apart. -/
def isControl (c : Char) : Bool := (c < ' ' && c ≠ '\t') || c = '\x7f'

def isBlank (c : Char) : Bool := c = ' ' || c = '\t'

/-- Goes past a line end, if there is one. -/
def lineEnd? : List Char → Option (List Char)
  | '\n' :: cs => some cs
  | '\r' :: '\n' :: cs => some cs
  | _ => none

/-- The character with a code of `width` digits. -/
def codePoint? (width : Nat) (cs : List Char) : Option (Char × List Char) := do
  let digits ← (cs.take width).mapM Text.hexDigit?
  let code := digits.foldl (fun n d ↦ n * 16 + d) 0
  if digits.length = width ∧ code.isValidChar then some (Char.ofNat code, cs.drop width) else none

/-- The character that an escape stands for, after its backslash. -/
def escape? : List Char → Option (Char × List Char)
  | 'b' :: cs => some ('\x08', cs)
  | 't' :: cs => some ('\t', cs)
  | 'n' :: cs => some ('\n', cs)
  | 'f' :: cs => some ('\x0c', cs)
  | 'r' :: cs => some ('\r', cs)
  | 'e' :: cs => some ('\x1b', cs)
  | '"' :: cs => some ('"', cs)
  | '\\' :: cs => some ('\\', cs)
  | 'x' :: cs => codePoint? 2 cs
  | 'u' :: cs => codePoint? 4 cs
  | 'U' :: cs => codePoint? 8 cs
  | _ => none

/-- Goes past blanks and line ends. -/
def skipSpace : List Char → List Char
  | '\r' :: '\n' :: cs => skipSpace cs
  | c :: cs => if isBlank c || c = '\n' then skipSpace cs else c :: cs
  | [] => []

/-- Goes past the rest of a line that ends in a backslash, and the blank start of the next text. -/
def continuation? (cs : List Char) : Option (List Char) :=
  (lineEnd? (cs.dropWhile isBlank)).map skipSpace

/-- The rest of a basic string on one line. -/
def basic? : Nat → List Char → Option (List Char × List Char)
  | 0, _ => none
  | _, [] => none
  | fuel + 1, c :: cs =>
    if c = '"' then some ([], cs)
    else if c = '\\' then do
      let (e, cs) ← escape? cs
      let (text, rest) ← basic? fuel cs
      some (e :: text, rest)
    else if isControl c then none
    else (basic? fuel cs).map fun (text, rest) ↦ (c :: text, rest)

def literal? : List Char → Option (List Char × List Char)
  | [] => none
  | c :: cs =>
    if c = '\'' then some ([], cs)
    else if isControl c then none
    else (literal? cs).map fun (text, rest) ↦ (c :: text, rest)

/-- Quotes at the end of a string of several lines: three close it, and up to two before them belong
to the text. -/
def closing? (quote : Char) (cs : List Char) : Option (List Char × List Char) :=
  let quotes := cs.takeWhile (· = quote)
  let extra := quotes.length - 3
  if quotes.length < 3 then none
  else if extra ≤ 2 then some (List.replicate extra quote, cs.drop quotes.length)
  else some (List.replicate 2 quote, cs.drop 5)

/-- The rest of a basic string of several lines. -/
def longBasic? : Nat → List Char → Option (List Char × List Char)
  | 0, _ => none
  | _, [] => none
  | fuel + 1, c :: cs =>
    match closing? '"' (c :: cs), lineEnd? (c :: cs) with
    | some (text, rest), _ => some (text, rest)
    | none, some cs => (longBasic? fuel cs).map fun (text, rest) ↦ ('\n' :: text, rest)
    | none, none =>
      if c = '\\' then
        match continuation? cs with
        | some cs => longBasic? fuel cs
        | none => do
          let (e, cs) ← escape? cs
          let (text, rest) ← longBasic? fuel cs
          some (e :: text, rest)
      else if isControl c then none
      else (longBasic? fuel cs).map fun (text, rest) ↦ (c :: text, rest)

def longLiteral? : Nat → List Char → Option (List Char × List Char)
  | 0, _ => none
  | _, [] => none
  | fuel + 1, c :: cs =>
    match closing? '\'' (c :: cs), lineEnd? (c :: cs) with
    | some (text, rest), _ => some (text, rest)
    | none, some cs => (longLiteral? fuel cs).map fun (text, rest) ↦ ('\n' :: text, rest)
    | none, none =>
      if isControl c then none
      else (longLiteral? fuel cs).map fun (text, rest) ↦ (c :: text, rest)

/-- The text without a line end at its start. -/
def dropLineEnd (cs : List Char) : List Char := (lineEnd? cs).getD cs

/-- A string on one line, as keys may be. -/
def shortString? : List Char → Option (List Char × List Char)
  | '"' :: cs => basic? (cs.length + 1) cs
  | '\'' :: cs => literal? cs
  | _ => none

def string? : List Char → Option (List Char × List Char)
  | '"' :: '"' :: '"' :: cs => longBasic? (cs.length + 1) (dropLineEnd cs)
  | '\'' :: '\'' :: '\'' :: cs => longLiteral? (cs.length + 1) (dropLineEnd cs)
  | cs => shortString? cs

end HeapSentry.Toml
