import HeapSentry.Toml.Quoted
import HeapSentry.Toml.Scalar
import HeapSentry.Toml.Tree

/-!
# Reading TOML

A document is a sequence of lines: headers of tables and pairs of a key and a value.  Arrays and
inline tables may span lines.
-/

namespace HeapSentry.Toml

def skipBlanks (cs : List Char) : List Char := cs.dropWhile isBlank

/-- Goes past a comment, if there is one, up to the end of its line. -/
def comment? : List Char → Option (List Char)
  | '#' :: cs =>
    let body := cs.takeWhile (· ≠ '\n')
    let rest := cs.dropWhile (· ≠ '\n')
    let (body, rest) :=
      if body.getLast? = some '\r' ∧ rest ≠ [] then (body.dropLast, '\r' :: rest) else (body, rest)
    if body.any isControl then none else some rest
  | cs => some cs

/-- Goes past the end of a line, which is blank but for a comment. -/
def endOfLine? (cs : List Char) : Option (List Char) := do
  match ← comment? (skipBlanks cs) with
  | [] => some []
  | cs => lineEnd? cs

/-- Goes past blanks, comments and line ends. -/
def skipLines? : Nat → List Char → Option (List Char)
  | 0, cs => some cs
  | fuel + 1, cs => do
    let cs ← comment? (skipBlanks cs)
    match lineEnd? cs with
    | some cs => skipLines? fuel cs
    | none => some cs

/-- Goes past everything that carries no meaning between the items of an array. -/
def skipAll? (cs : List Char) : Option (List Char) := skipLines? (cs.length + 1) cs

/-! ## Keys -/

def isBareKeyChar (c : Char) : Bool :=
  ('a' ≤ c && c ≤ 'z') || ('A' ≤ c && c ≤ 'Z') || isDigit c || c = '_' || c = '-'

def simpleKey? (cs : List Char) : Option (String × List Char) :=
  match cs.takeWhile isBareKeyChar with
  | [] => (shortString? cs).map fun (key, rest) ↦ (String.ofList key, rest)
  | key => some (String.ofList key, cs.dropWhile isBareKeyChar)

/-- How many names a dotted key may have. -/
def keyLimit : Nat := 80

/-- A key and the keys after its dots, `room` at the most. -/
def keyPath? : Nat → List Char → Option (List String × List Char)
  | 0, _ => none
  | room + 1, cs => do
    let (key, rest) ← simpleKey? (skipBlanks cs)
    match skipBlanks rest with
    | '.' :: rest =>
      let (path, rest) ← keyPath? room rest
      some (key :: path, rest)
    | rest => some ([key], rest)

/-- A dotted key; blanks around it and its dots do not count. -/
def dottedKey? (cs : List Char) : Option (List String × List Char) := keyPath? keyLimit cs

/-! ## Values -/

/-- The characters of unquoted values. -/
def isScalarChar (c : Char) : Bool := isBareKeyChar c || c = '+' || c = '.' || c = ':'

/-- An unquoted value.  One blank may stand between a date and a time. -/
def unquoted? (cs : List Char) : Option (Value × List Char) :=
  let run := cs.takeWhile isScalarChar
  let rest := cs.dropWhile isScalarChar
  let alone := (scalar? run).map fun v ↦ (v, rest)
  match date? run, rest with
  | some [], ' ' :: c :: cs =>
    if isDigit c then
      let time := (c :: cs).takeWhile isScalarChar
      (scalar? (run ++ ' ' :: time)).map fun v ↦ (v, (c :: cs).dropWhile isScalarChar)
    else alone
  | _, _ => alone

/-- How many arrays and inline tables may stand inside one another. -/
def nestingLimit : Nat := 80

mutual

/-- A value in which no more than `room` arrays and inline tables stand inside one another. -/
def value? : Nat → Nat → List Char → Option (Value × List Char)
  | 0, _, _ => none
  | fuel + 1, room, cs =>
    match cs, room with
    | '"' :: _, _ | '\'' :: _, _ =>
      (string? cs).map fun (text, rest) ↦ (.string (String.ofList text), rest)
    | '[' :: cs, room + 1 =>
      (arrayItems? fuel room cs).map fun (items, rest) ↦ (.array items, rest)
    | '\x7b' :: cs, room + 1 =>
      (inlineEntries? fuel room [] cs).map fun (entries, rest) ↦
        (.table (entriesToValues entries), rest)
    | cs, _ => unquoted? cs

/-- The items of an array up to its closing bracket; a comma may follow the last. -/
def arrayItems? : Nat → Nat → List Char → Option (List Value × List Char)
  | 0, _, _ => none
  | fuel + 1, room, cs => do
    match ← skipAll? cs with
    | ']' :: rest => some ([], rest)
    | cs =>
      let (v, cs) ← value? fuel room cs
      match ← skipAll? cs with
      | ',' :: cs =>
        let (items, rest) ← arrayItems? fuel room cs
        some (v :: items, rest)
      | ']' :: rest => some ([v], rest)
      | _ => none

/-- The entries of an inline table up to its closing brace; a comma may follow the last. -/
def inlineEntries? : Nat → Nat → Entries → List Char → Option (Entries × List Char)
  | 0, _, _, _ => none
  | fuel + 1, room, entries, cs => do
    match ← skipAll? cs with
    | '\x7d' :: rest => some (entries, rest)
    | cs =>
      let (path, cs) ← dottedKey? cs
      let cs ← expect? '=' cs
      let (v, cs) ← value? fuel room (skipBlanks cs)
      let entries ← Entries.insertDotted path v entries
      match ← skipAll? cs with
      | ',' :: cs => inlineEntries? fuel room entries cs
      | '\x7d' :: rest => some (entries, rest)
      | _ => none

end

/-! ## Documents -/

/-- What has been read of a document. -/
structure Document where
  root : Entries := []
  /-- The table that pairs go to. -/
  current : List String := []

namespace Document

/-- The header of a table of its own. -/
def header? (d : Document) (cs : List Char) : Option (Document × List Char) := do
  let (path, cs) ← dottedKey? cs
  let cs ← expect? ']' cs
  let root ← d.root.within (Entries.openTable? (path.getLastD "")) path.dropLast
  some (⟨root, path⟩, cs)

def nextHeader? (d : Document) (cs : List Char) : Option (Document × List Char) := do
  let (path, cs) ← dottedKey? cs
  let cs ← expect? ']' cs
  let cs ← expect? ']' cs
  let root ← d.root.within (Entries.openNextTable? (path.getLastD "")) path.dropLast
  some (⟨root, path⟩, cs)

/-- A pair of a key and a value. -/
def pair? (d : Document) (cs : List Char) : Option (Document × List Char) := do
  let (path, cs) ← dottedKey? cs
  let cs ← expect? '=' cs
  let (v, cs) ← value? (cs.length + 1) nestingLimit (skipBlanks cs)
  let root ← d.root.within (Entries.insertDotted path v) d.current
  some ({ d with root }, cs)

/-- Reads lines up to the end. -/
def lines? : Nat → Document → List Char → Option Document
  | 0, _, _ => none
  | fuel + 1, d, cs =>
    match skipBlanks cs with
    | [] => some d
    | '[' :: '[' :: cs => d.nextHeader? cs >>= next fuel
    | '[' :: cs => d.header? cs >>= next fuel
    | '#' :: cs => endOfLine? ('#' :: cs) >>= lines? fuel d
    | cs =>
      match lineEnd? cs with
      | some cs => lines? fuel d cs
      | none => d.pair? cs >>= next fuel
where
  /-- Goes on after a header or a pair. -/
  next (fuel : Nat) (read : Document × List Char) : Option Document :=
    endOfLine? read.2 >>= lines? fuel read.1

end Document

/-- The entries of a document; a byte order mark at its start does not count. -/
def parse? (text : String) : Option Value :=
  let cs := match text.toList with
    | '\ufeff' :: cs => cs
    | cs => cs
  (Document.lines? (cs.length + 1) {} cs).map fun d ↦ .table (entriesToValues d.root)

end HeapSentry.Toml
