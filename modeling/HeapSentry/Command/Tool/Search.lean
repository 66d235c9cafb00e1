import HeapSentry.Command.Regex
import HeapSentry.Command.Tool.Text

/-!
# Searching lines

Lines are taken byte by byte; a byte counts as the character with its number.
-/

namespace HeapSentry.Command.Tool

def byteChars (bytes : List UInt8) : List Char := bytes.map fun b ↦ Char.ofNat b.toNat

def charBytes (cs : List Char) : List UInt8 := cs.map fun c ↦ UInt8.ofNat c.toNat

def byteText (text : String) : List Char := byteChars text.toUTF8.toList

namespace Search

/-- What is sought in lines, and what is told about them. -/
structure Query where
  options : Options
  expressions : List Regex

def expression? (os : Options) (pattern : List Char) : Option Regex := do
  let r ← if os.has 'F' then some (.exactly pattern)
    else Regex.ofChars? (os.has 'E') pattern
  let r : Regex := if os.has 'w' then .seq (.wordEdge true) (.seq r (.wordEdge true)) else r
  some (if os.has 'x' then .seq .lineStart (.seq (.group 0 r) .lineEnd) else r)

/-- The query of some arguments, and the files that it is put to. -/
def query? (arguments : List String) : Option (Query × List String) := do
  let (os, operands) ← Options.ofArguments? "aEFGhHiIlLnoqsvwxcy" "em" arguments
  let given := os.filterMap fun (c, text) ↦ if c = 'e' then some text else none
  let (patterns, files) ← match given, operands with
    | [], [] => none
    | [], pattern :: files => some ([pattern], files)
    | patterns, files => some (patterns, files)
  let expressions ← (patterns.flatMap (·.splitOn "\n")).mapM fun p ↦
    expression? os (byteText p)
  some (⟨os, expressions⟩, files)

def Query.subject (q : Query) (line : List UInt8) : Regex.Subject :=
  ⟨byteChars line, q.options.has 'i' || q.options.has 'y'⟩

def Query.selects (q : Query) (line : List UInt8) : Bool :=
  q.options.has 'v' != q.expressions.any fun r ↦ r.occursIn (q.subject line)

/-- The lines that are selected, with their numbers. -/
def Query.selected (q : Query) (content : ByteArray) : List (Nat × List UInt8) :=
  let texts := (lines content).map lineText
  let numbered := (List.range texts.length).zip texts
  let found := numbered.filter fun (_, line) ↦ q.selects line
  match (q.options.lookup 'm').bind String.toNat? with
  | some n => found.take n
  | none => found

/-- What is shown of a line that is selected. -/
def Query.parts (q : Query) (line : List UInt8) : List (List UInt8) :=
  if q.options.has 'o' then
    match q.expressions with
    | [] => []
    | r :: _ => (r.split (q.subject line)).filterMap fun
      | .matched (c :: cs) _ => some (charBytes (c :: cs))
      | _ => none
  else [line]

def Query.shown (q : Query) (label : List UInt8) (name : String)
    (found : List (Nat × List UInt8)) : List UInt8 :=
  let os := q.options
  if os.has 'q' then []
  else if os.has 'l' then (if found.isEmpty then [] else name.toUTF8.toList ++ [10])
  else if os.has 'L' then (if found.isEmpty then name.toUTF8.toList ++ [10] else [])
  else if os.has 'c' then label ++ (toString found.length).toUTF8.toList ++ [10]
  else found.flatMap fun (n, line) ↦ (q.parts line).flatMap fun part ↦
    label ++ (if os.has 'n' then (toString (n + 1) ++ ":").toUTF8.toList else []) ++ part ++ [10]

end Search

/-- Shows the lines of files with a match. -/
def search (extended fixed : Bool) : Tool := fun c ↦ do
  let first := (if extended then ["-E"] else []) ++ (if fixed then ["-F"] else [])
  match Search.query? (first ++ c.arguments) with
  | none => return ⟨.exited 2, .empty, false⟩
  | some (q, files) =>
    let (found, all) ← readAll c (sources files)
    let rows := found.map fun (p, content) ↦ (p, q.selected content)
    let labelled := (files.length > 1 || q.options.has 'H') && !q.options.has 'h'
    let output := rows.flatMap fun (p, rows) ↦
      let name := if p = "-" then "(standard input)" else p
      q.shown (if labelled then (name ++ ":").toUTF8.toList else []) name rows
    let any := rows.any fun (_, rows) ↦ !rows.isEmpty
    let any := if q.options.has 'L' then !output.isEmpty else any
    let code : UInt8 := if any && (all || q.options.has 'q') then 0 else if all then 1 else 2
    return ⟨.exited code, bytesOf output, (sources files).contains "-"⟩

end HeapSentry.Command.Tool
