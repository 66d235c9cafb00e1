import HeapSentry.Command.Tool.Search

/-!
# Editing lines

An edit says to which lines it applies and what becomes of them.  Edits are carried out line by
line, in their order.
-/

namespace HeapSentry.Command.Tool

/-- Which lines are meant. -/
inductive LineAddress where
  | number (n : Nat)
  | last
  | matching (r : Regex)
  /-- Every so many lines from one on. -/
  | every (first step : Nat)
  deriving DecidableEq, Repr

/-- A part of what is put in place of a match. -/
inductive Replacement where
  | text (c : Char)
  /-- What a group stands for; the group zero is the whole match. -/
  | group (index : Nat)
  deriving DecidableEq, Repr

inductive LineAction where
  /-- Replaces one match, or all from one on. -/
  | substitute (r : Regex) (ignoresCase : Bool) (parts : List Replacement) (which : Nat)
      (andLater shows : Bool)
  | delete
  | print
  | printNumber
  | quit (code : UInt8) (shows : Bool)
  | translate (source target : List Char)
  | append (text : List Char)
  | insert (text : List Char)
  | change (text : List Char)
  deriving DecidableEq, Repr

structure LineEdit where
  first : Option LineAddress := none
  last : Option LineAddress := none
  negated : Bool := false
  action : LineAction
  deriving DecidableEq, Repr

namespace LineEdit

/-! ## Reading edits -/

/-- The text up to a delimiter that is not quoted. -/
def delimited? (d : Char) : List Char → Option (List Char × List Char)
  | [] => none
  | '\\' :: c :: cs => (delimited? d cs).map fun (text, rest) ↦
    (if c = d then c :: text else '\\' :: c :: text, rest)
  | c :: cs =>
    if c = d then some ([], cs)
    else (delimited? d cs).map fun (text, rest) ↦ (c :: text, rest)

def number? (cs : List Char) : Option (Nat × List Char) :=
  let ds := cs.takeWhile Char.isDigit
  (String.ofList ds).toNat?.map fun n ↦ (n, cs.drop ds.length)

def skipBlanks (cs : List Char) : List Char := cs.dropWhile fun c ↦ c = ' ' || c = '\t'

/-- An address at the start of a text, if there is one. -/
def address? (extended : Bool) (cs : List Char) : Option (Option LineAddress × List Char) :=
  match cs with
  | '$' :: rest => some (some .last, rest)
  | '/' :: rest => do
    let (text, rest) ← delimited? '/' rest
    some (some (.matching (← Regex.ofChars? extended text)), rest)
  | cs =>
    match number? cs with
    | none => some (none, cs)
    | some (n, '~' :: rest) => (number? rest).map fun (step, rest) ↦ (some (.every n step), rest)
    | some (n, rest) => some (some (.number n), rest)

def replacement : List Char → List Replacement
  | [] => []
  | '\\' :: c :: cs =>
    (if c.isDigit then .group (c.toNat - 48)
      else .text (match c with
        | 'n' => '\n'
        | 't' => '\t'
        | c => c)) :: replacement cs
  | '&' :: cs => .group 0 :: replacement cs
  | c :: cs => .text c :: replacement cs

/-- What follows the delimiters of a substitution. -/
structure Flags where
  which : Nat := 1
  andLater : Bool := false
  shows : Bool := false
  ignoresCase : Bool := false

def flags : Nat → Flags → List Char → Flags × List Char
  | 0, f, cs => (f, cs)
  | fuel + 1, f, cs =>
    match cs with
    | 'g' :: cs => flags fuel { f with andLater := true } cs
    | 'p' :: cs => flags fuel { f with shows := true } cs
    | 'i' :: cs | 'I' :: cs => flags fuel { f with ignoresCase := true } cs
    | cs =>
      match number? cs with
      | some (n, cs) => flags fuel { f with which := n } cs
      | none => (f, cs)

/-- A text that takes up the rest of a line. -/
def lineArgument (cs : List Char) : List Char × List Char :=
  let cs := skipBlanks cs
  let cs := match cs with
    | '\\' :: rest => (match skipBlanks rest with
      | '\n' :: rest => rest
      | rest => rest)
    | cs => cs
  (cs.takeWhile (· ≠ '\n') |>.filter (· ≠ '\\'), cs.dropWhile (· ≠ '\n'))

/-- What an edit does, from the letter on. -/
def action? (extended : Bool) : List Char → Option (LineAction × List Char)
  | 's' :: d :: cs => do
    let (pattern, cs) ← delimited? d cs
    let (parts, cs) ← delimited? d cs
    let (f, cs) := flags cs.length {} cs
    let r ← Regex.ofChars? extended pattern
    some (.substitute r f.ignoresCase (replacement parts) f.which f.andLater f.shows, cs)
  | 'y' :: d :: cs => do
    let (source, cs) ← delimited? d cs
    let (target, cs) ← delimited? d cs
    if source.length = target.length then some (.translate source target, cs) else none
  | 'd' :: cs => some (.delete, cs)
  | 'p' :: cs => some (.print, cs)
  | '=' :: cs => some (.printNumber, cs)
  | 'q' :: cs =>
    let code := number? (skipBlanks cs)
    some (.quit (UInt8.ofNat ((code.map Prod.fst).getD 0)) true, (code.map Prod.snd).getD cs)
  | 'Q' :: cs =>
    let code := number? (skipBlanks cs)
    some (.quit (UInt8.ofNat ((code.map Prod.fst).getD 0)) false, (code.map Prod.snd).getD cs)
  | 'a' :: cs => some ((lineArgument cs).map .append id)
  | 'i' :: cs => some ((lineArgument cs).map .insert id)
  | 'c' :: cs => some ((lineArgument cs).map .change id)
  | _ => none

def all? (extended : Bool) : Nat → List Char → Option (List LineEdit)
  | 0, _ => none
  | fuel + 1, cs => do
    let cs := cs.dropWhile fun c ↦ c = ' ' || c = '\t' || c = '\n' || c = ';'
    match cs with
    | [] => some []
    | '#' :: cs => all? extended fuel (cs.dropWhile (· ≠ '\n'))
    | cs =>
      let (first, cs) ← address? extended cs
      let (last, cs) ← match skipBlanks cs with
        | ',' :: cs => address? extended (skipBlanks cs)
        | cs => some (none, cs)
      let (negated, cs) := match skipBlanks cs with
        | '!' :: cs => (true, skipBlanks cs)
        | cs => (false, cs)
      let (action, cs) ← action? extended cs
      match skipBlanks cs with
      | [] | ';' :: _ | '\n' :: _ | '#' :: _ =>
        (all? extended fuel cs).map fun es ↦ ⟨first, last, negated, action⟩ :: es
      | _ => none

/-! ## Carrying edits out -/

structure Line where
  number : Nat
  isLast : Bool
  text : List Char

def Line.isAt (l : Line) : LineAddress → Bool
  | .number n => l.number = n
  | .last => l.isLast
  | .matching r => r.occursIn ⟨l.text, false⟩
  | .every first step =>
    if step = 0 then l.number = first
    else first ≤ l.number && (l.number - first) % step = 0

/-- Whether a range is over with a line. -/
def Line.ends (l : Line) (starts : Bool) : LineAddress → Bool
  | .number n => n ≤ l.number
  | a => !starts && l.isAt a

/-- Whether an edit applies to a line, and whether it is in its range after it. -/
def applies (e : LineEdit) (inRange : Bool) (l : Line) : Bool × Bool :=
  let (applies, inRange) := match e.first, e.last with
    | none, _ => (true, inRange)
    | some a, none => (l.isAt a, inRange)
    | some a, some b =>
      if inRange then (true, !l.ends false b)
      else if l.isAt a then (true, !l.ends true b)
      else (false, false)
  (applies != e.negated, inRange)

structure Edited where
  text : List Char
  /-- The lines that are shown before it, and after it. -/
  before : List (List Char) := []
  after : List (List Char) := []
  deleted : Bool := false
  /-- The code of the end after this line. -/
  quits : Option UInt8 := none

/-- A line with matches replaced, and whether there were any to replace. -/
def substituted (parts : List Replacement) (which : Nat) (andLater : Bool) :
    Nat → List Regex.Segment → List Char × Bool
  | _, [] => ([], false)
  | n, .plain c :: rest =>
    let (text, found) := substituted parts which andLater n rest
    (c :: text, found)
  | n, .matched old groups :: rest =>
    let (text, found) := substituted parts which andLater (n + 1) rest
    if n + 1 = which || (andLater && which < n + 1) then
      (parts.flatMap (fun
        | .text c => [c]
        | .group 0 => old
        | .group i => (groups.lookup i).getD []) ++ text, true)
    else (old ++ text, found)

def perform (a : LineAction) (number : Nat) (d : Edited) : Edited :=
  match a with
  | .substitute r ignoresCase parts which andLater shows =>
    match substituted parts which andLater 0 (r.split ⟨d.text, ignoresCase⟩) with
    | (text, true) => { d with text, before := d.before ++ if shows then [text] else [] }
    | (_, false) => d
  | .delete => { d with deleted := true }
  | .print => { d with before := d.before ++ [d.text] }
  | .printNumber => { d with before := d.before ++ [(toString number).toList] }
  | .quit code shows => { d with quits := some code, deleted := d.deleted || !shows }
  | .translate source target =>
    { d with text := d.text.map fun c ↦ (target[source.idxOf c]?).getD c }
  | .append text => { d with after := d.after ++ [text] }
  | .insert text => { d with before := d.before ++ [text] }
  | .change text => { d with before := d.before ++ [text], deleted := true }

/-- Carries edits out on a line, until it is deleted or nothing more is to be done. -/
def editLine (number : Nat) (isLast : Bool) : List (LineEdit × Bool) → Edited →
    Edited × List (LineEdit × Bool)
  | [], d => (d, [])
  | (e, inRange) :: rest, d =>
    let (applies, inRange) := e.applies inRange ⟨number, isLast, d.text⟩
    let d := if applies then perform e.action number d else d
    if applies && (d.deleted || d.quits.isSome) then (d, (e, inRange) :: rest)
    else
      let (d, rest) := editLine number isLast rest d
      (d, (e, inRange) :: rest)

/-- Carries edits out on lines; `silent` shows only what edits show. -/
def editLines (silent : Bool) : Nat → List (LineEdit × Bool) → List (List UInt8) →
    List UInt8 × UInt8
  | _, _, [] => ([], 0)
  | n, edits, line :: rest =>
    let (d, edits) := editLine (n + 1) rest.isEmpty edits { text := byteChars (lineText line) }
    let ending : List UInt8 := if line.contains 10 then [10] else []
    let shown := d.before.flatMap (fun t ↦ charBytes t ++ [10]) ++
      (if silent || d.deleted then [] else charBytes d.text ++ ending) ++
      d.after.flatMap fun t ↦ charBytes t ++ [10]
    match d.quits with
    | some code => (shown, code)
    | none =>
      let (others, code) := editLines silent (n + 1) edits rest
      (shown ++ others, code)

end LineEdit

/-- Edits files, or shows them edited. -/
def edit : Tool := fun c ↦ do
  match Options.ofArguments? "nrEsiuz" "e" c.arguments with
  | none => return .failure
  | some (os, operands) =>
    let given := os.filterMap fun (o, text) ↦ if o = 'e' then some text else none
    let (scripts, files) := match given, operands with
      | [], script :: files => ([script], files)
      | scripts, files => (scripts, files)
    let text := byteText ("\n".intercalate scripts)
    match LineEdit.all? (os.has 'E' || os.has 'r') (text.length + 1) text, scripts with
    | none, _ | _, [] => return .failure
    | some edits, _ =>
      let edited (content : ByteArray) : List UInt8 × UInt8 :=
        LineEdit.editLines (os.has 'n') 0 (edits.map fun e ↦ (e, false)) (lines content)
      let (found, all) ← readAll c (sources files)
      if os.has 'i' then
        found.forM fun (p, content) ↦ do
          let _ ← c.write p (bytesOf (edited content).1)
        return ⟨.exited (if all then 0 else 4), .empty, false⟩
      else
        let (output, code) := edited ((found.map Prod.snd).foldl (· ++ ·) .empty)
        let code := if code = 0 && !all then 2 else code
        return ⟨.exited code, bytesOf output, (sources files).contains "-"⟩

end HeapSentry.Command.Tool
