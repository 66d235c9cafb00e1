import HeapSentry.Command.Pattern
import HeapSentry.Command.Reader
import HeapSentry.Command.Tool

/-!
# Shells

What a shell knows while it runs a script, and what it can do by itself: keep variables, split
texts into fields, and send what is written to where its descriptors lead.
-/

namespace HeapSentry.Command

open Storage

inductive Port where
  | console
  | nowhere
  | file (path : String)
  /-- Output that is gathered, by how many others were begun before it. -/
  | gathered (level : Nat)
  deriving DecidableEq, Repr

/-- The number by which a script knows the process of the first shell. -/
def firstProcess : Nat := 4096

structure Shell where
  dialect : Dialect := .standard
  /-- The number by which a script knows its own process.  Those of the shells that started it come
  before it. -/
  process : Nat := firstProcess
  /-- The first is the name of the script. -/
  parameters : List String := ["sh"]
  bindings : List (String × String) := []
  /-- The names of the variables that other shells get to know. -/
  exported : List String := []
  functions : List (String × Script) := []
  status : UInt8 := 0
  /-- The signal that killed the last command, if one did. -/
  killedBy : Option Nat := none
  /-- The status of the last command whose output became a part of a word. -/
  taken : Option UInt8 := none
  detached : UInt8 := 0
  /-- Where relative paths start; nothing stands for the directory of the machine. -/
  directory : String := ""
  ports : List (Nat × Port) := [(1, .console), (2, .nowhere)]
  gathered : List ByteArray := []
  /-- What is left of the input. -/
  input : ByteArray := .empty
  /-- The letters of the options that are set. -/
  options : List Char := []
  /-- The variables that keep their values. -/
  constants : List String := []
  /-- Signals for shells that started this one, by process. -/
  sent : List (Nat × Nat) := []
  /-- How many loops are being run, inside one another. -/
  loops : Nat := 0
  /-- What variables were before they became those of the function that is being run. -/
  locals : Option (List (String × Option String)) := none
  /-- What to do on some signals, by their names without the first letters, and at the exit. -/
  traps : List (String × String) := []

abbrev ShellM := StateT Shell OnMachine

/-- What follows a command. -/
inductive Course where
  | goesOn
  | breaks (levels : Nat)
  | continues (levels : Nat)
  | returns
  | exits
  | dies (signal : Nat)
  deriving DecidableEq, Repr

namespace Shell

def onMachine {α : Type} (a : OnMachine α) : ShellM α := StateT.lift a

def endWith (code : UInt8) : ShellM Course := do
  modify fun s ↦ { s with status := code, killedBy := none }
  return .goesOn

/-- The end after a fault that a script does not survive. -/
def fatal (code : UInt8) : ShellM Course := do
  let _ ← endWith code
  return .exits

/-- A fault in a word, with the code that it ends a script with. -/
def fault {α : Type} (standard extended : UInt8) : ShellM (Option α) := do
  let _ ← endWith (if (← get).dialect = .standard then standard else extended)
  return none

def hasOption (s : Shell) (c : Char) : Bool := s.options.contains c

/-! ## Variables -/

def assign (name value : String) : ShellM Unit :=
  modify fun s ↦ { s with bindings := (name, value) :: s.bindings.filter (·.1 ≠ name) }

def here : ShellM String := do
  let s ← get
  if s.directory = "" then onMachine OnMachine.workingDir else return s.directory

/-- The value of a variable, or else the one that all programs see. -/
def valueOf? (name : String) : ShellM (Option String) := do
  let s ← get
  match s.bindings.lookup name with
  | some value => return some value
  | none =>
    if name = "PWD" then return some (← here)
    else if name = "IFS" then return some " \t\n"
    else onMachine (OnMachine.environment name)

/-- The texts that a parameter stands for. -/
def values (p : Parameter) : ShellM (Option (List String)) := do
  let s ← get
  match p with
  | .variable name => return (← valueOf? name).map fun v ↦ [v]
  | .positional i => return (s.parameters[i]?).map fun v ↦ [v]
  | .all _ => return some (s.parameters.drop 1)
  | .count => return some [toString (s.parameters.length - 1)]
  | .status => return some [toString s.status.toNat]
  | .process => return some [toString s.process]
  | .background => return some [toString (s.process + 1)]
  | .options => return some [String.ofList s.options]

def numbers (s : Shell) : Arithmetic.Variables :=
  s.bindings.map fun (name, value) ↦ (name, (leadingInteger value.toList).1)

/-! ## Fields -/

/-- The fields that a word has become so far; the last one may still grow. -/
structure Fields where
  complete : List (List MarkedChar) := []
  growing : Option (List MarkedChar) := none
  /-- Whether blanks ended the last field. -/
  blankEnded : Bool := false

namespace Fields

def extend (f : Fields) (cs : List MarkedChar) : Fields :=
  ⟨f.complete, some (f.growing.getD [] ++ cs), false⟩

def quote (f : Fields) (text : String) : Fields := f.extend (text.toList.map fun c ↦ (c, true))

def close (f : Fields) : Fields := ⟨f.complete ++ f.growing.toList, none, f.blankEnded⟩

/-- Adds a character of a text that is split.  Blanks end a field that there is; other separators
end one that may be empty. -/
def splitChar (separators : String) (f : Fields) (c : Char) : Fields :=
  if !separators.contains c then f.extend [(c, false)]
  else if c = ' ' || c = '\t' || c = '\n' then
    { f.close with blankEnded := f.blankEnded || f.growing.isSome }
  else if f.growing.isNone && f.blankEnded then { f with blankEnded := false }
  else ⟨f.complete ++ [f.growing.getD []], none, false⟩

def splice (separators : String) (f : Fields) (text : String) : Fields :=
  text.toList.foldl (splitChar separators) f

/-- Adds texts of which each but the first starts a field. -/
def join (f : Fields) : List String → Fields
  | [] => f
  | first :: rest => rest.foldl (fun f text ↦ f.close.quote text) (f.quote first)

def toList (f : Fields) : List (List MarkedChar) := f.close.complete

def whole (f : Fields) : List MarkedChar := List.intercalate [(' ', true)] f.toList

end Fields

def plainText (cs : List MarkedChar) : String := String.ofList (cs.map Prod.fst)

/-- How texts are taken into a word. -/
structure Taking where
  splits : Bool
  separators : String

/-- Adds the texts of a parameter. -/
def addValues (t : Taking) (p : Parameter) (quoted : Bool) (f : Fields) (texts : List String) :
    Fields :=
  match p, quoted || !t.splits with
  | .all true, true =>
    f.quote ((String.ofList (t.separators.toList.take 1)).intercalate texts)
  | .all false, true => if t.splits then f.join texts else f.quote (" ".intercalate texts)
  | .all _, false => (texts.foldl (fun (f, first) text ↦
      ((if first then f else f.close).splice t.separators text, false)) (f, true)).1
  | _, true => texts.foldl Fields.quote f
  | _, false => texts.foldl (Fields.splice t.separators) f

/-! ## Braces -/

/-- The parts of a word up to the closing brace, between commas; and the rest. -/
def braceParts? : Nat → Word → Option (List Word × Word)
  | _, [] => none
  | depth, (.text ['\x7d'], false) :: rest =>
    if depth = 0 then some ([[]], rest)
    else (braceParts? (depth - 1) rest).map (addToFirst (.text ['\x7d'], false))
  | depth, (.text ['\x7b'], false) :: rest =>
    (braceParts? (depth + 1) rest).map (addToFirst (.text ['\x7b'], false))
  | depth, (.text [','], false) :: rest =>
    if depth = 0 then (braceParts? 0 rest).map fun (parts, rest) ↦ ([] :: parts, rest)
    else (braceParts? depth rest).map (addToFirst (.text [','], false))
  | depth, piece :: rest => (braceParts? depth rest).map (addToFirst piece)
where
  addToFirst (piece : Piece × Bool) : List Word × Word → List Word × Word
    | (part :: parts, rest) => ((piece :: part) :: parts, rest)
    | ([], rest) => ([[piece]], rest)

/-- The numbers from one to another, if a part of a word says so. -/
def numberRange? (w : Word) : Option (List Word) := do
  let text := String.ofList (Script.literal w).1
  match text.splitOn ".." with
  | [first, last] =>
    let (i, j) := (← first.toInt?, ← last.toInt?)
    let word (i : Int) : Word := [(.text (toString i).toList, false)]
    some ((List.range ((j - i).natAbs + 1)).map fun (n : Nat) ↦
      word (if i ≤ j then i + n else i - n))
  | _ => none

/-- The words that a word with braces means. -/
def unbrace : Nat → Word → List Word
  | 0, w => [w]
  | _ + 1, [] => [[]]
  | fuel + 1, (.text ['\x7b'], false) :: rest =>
    let alone := (unbrace fuel rest).map ((.text ['\x7b'], false) :: ·)
    match braceParts? 0 rest with
    | none => alone
    | some (parts, after) =>
      let choices := match parts with
        | [part] => numberRange? part
        | parts => some (parts.flatMap (unbrace fuel))
      match choices with
      | none => alone
      | some choices =>
        let endings := unbrace fuel after
        choices.flatMap fun choice ↦ endings.map (choice ++ ·)
  | fuel + 1, piece :: rest => (unbrace fuel rest).map (piece :: ·)

/-- The files that a field is a pattern of; without any it is a text. -/
def paths (field : List MarkedChar) : ShellM (List String) := do
  let s ← get
  if s.hasOption 'f' || !Pattern.isSpecial field then return [plainText field]
  let name := (field.reverse.takeWhile (·.1 ≠ '/')).reverse
  let above := plainText (field.take (field.length - name.length))
  let dir := if above = "" then "." else above
  match ← onMachine (OnMachine.entries (({ directory := s.directory } : Call).path dir)) with
  | .error _ => return [plainText field]
  | .ok found =>
    let names := found.map Prod.fst
    let hidden := name.head?.map Prod.fst = some '.'
    let pattern := Pattern.ofChars name
    match names.filter fun n ↦ (hidden || !n.startsWith ".") && pattern.accepts n.toList with
    | [] => return [plainText field]
    | found => return found.map (above ++ ·)

/-! ## Descriptors -/

def port (s : Shell) (descriptor : Nat) : Port := (s.ports.lookup descriptor).getD .nowhere

def setPort (descriptor : Nat) (p : Port) : ShellM Unit :=
  modify fun s ↦ { s with ports := (descriptor, p) :: s.ports.filter (·.1 ≠ descriptor) }

def emit (descriptor : Nat) (output : ByteArray) : ShellM Unit := do
  match (← get).port descriptor with
  | .console =>
    if output.size ≠ 0 then
      onMachine (OnMachine.print ((String.fromUTF8? output).getD ""))
  | .nowhere => return
  | .file path =>
    match ← onMachine (OnMachine.read path) with
    | .ok content =>
      let _ ← onMachine (OnMachine.write path (content ++ output))
    | .error _ => return
  | .gathered level =>
    modify fun s ↦ { s with gathered := s.gathered.modify level (· ++ output) }

/-- Makes a file ready to be written to; without `append` it is emptied. -/
def openFile (append : Bool) (path : String) : ShellM (Option Port) := do
  let s ← get
  if path = Command.nowhere then return some .nowhere
  else if path = "/dev/stdout" then return some (s.port 1)
  else if path = "/dev/stderr" then return some (s.port 2)
  else
    let path := ({ directory := s.directory } : Call).path path
    let content : ByteArray := match ← onMachine (OnMachine.read path) with
      | .ok content => if append then content else ByteArray.empty
      | .error _ => ByteArray.empty
    if (← onMachine (OnMachine.write path content)).isOk then return some (.file path)
    else return none

/-- Lets a descriptor lead to where a redirection with some text says; answers whether it can. -/
def redirect (descriptor : Nat) (kind : RedirectionKind) (text : String) : ShellM Bool := do
  let s ← get
  match kind with
  | .text =>
    if descriptor = 0 then set { s with input := text.toUTF8 }
    return true
  | .input =>
    match ← onMachine (({ directory := s.directory, input := s.input } : Call).read text) with
    | .ok content =>
      if descriptor = 0 then set { s with input := content }
      return true
    | .error _ => return false
  | .output append =>
    match ← openFile append text with
    | some p =>
      setPort descriptor p
      return true
    | none => return false
  | .duplicate =>
    if text = "-" then
      setPort descriptor .nowhere
      return true
    match text.toNat? with
    | some n =>
      if descriptor = 0 then return n = 0
      match s.ports.lookup n with
      | some p =>
        setPort descriptor p
        return true
      | none => return false
    | none =>
      if s.dialect = .standard then return false
      match ← openFile false text with
      | some p =>
        setPort descriptor p
        setPort 2 p
        return true
      | none => return false

/-- The text that some output becomes in a word: without the ends of its last lines. -/
def outputText (output : ByteArray) : String :=
  let bytes := output.toList.filter (· ≠ 0)
  let text := (String.fromUTF8? (bytesOf bytes)).getD
    (String.ofList (bytes.map fun b ↦ if b < 128 then Char.ofNat b.toNat else '\ufffd'))
  (text.toList.reverse.dropWhile (· = '\n')).reverse |> String.ofList

/-- Runs something whose output is gathered. -/
def gathering {α : Type} (act : ShellM α) : ShellM (α × ByteArray) := do
  let s ← get
  let level := s.gathered.length
  set { s with
    gathered := s.gathered ++ [ByteArray.empty]
    ports := (1, .gathered level) :: s.ports.filter (·.1 ≠ 1) }
  let a ← act
  let output := ((← get).gathered[level]?).getD .empty
  modify fun t ↦ { t with gathered := t.gathered.take level, ports := s.ports }
  return (a, output)

/-- Runs something in a copy of the shell, of which only what was written and read stays. -/
def apart (act : ShellM Course) : ShellM Course := do
  let before ← get
  let course ← act
  let after ← get
  set { before with
    gathered := after.gathered, input := after.input, status := after.status, taken := after.taken }
  match course with
  | .dies signal => return .dies signal
  | _ => return .goesOn

/-! ## Signals -/

/-- The signal that is named by its number or its name. -/
def signal? (d : Dialect) (name : String) : Option Nat :=
  match name.toNat? with
  | some n => if n ≤ Status.lastSignal then some n else none
  | none =>
    let upper := name.toUpper
    let full := if d = .extended && upper.startsWith "SIG" then upper else "SIG" ++ upper
    if d = .standard && full = "SIGSTKFLT" then none else Status.signalOfName? full

/-- What a trap is kept under. -/
def trapName? (d : Dialect) (name : String) : Option String :=
  if name = "0" || name.toUpper = "EXIT" then some "EXIT"
  else (signal? d name).bind fun n ↦
    some (((Status.signalName? n).map fun name ↦ (name.drop 3).toString).getD (toString n))

/-! ## What a shell does by itself -/

/-- A number that ends something.  It must fit a word of 32 bits, unless less strictness allows
more. -/
def exitCode? (d : Dialect) (text : String) : Option UInt8 :=
  let digits (cs : List Char) : Option Nat :=
    if cs.isEmpty || !cs.all Char.isDigit then none else (String.ofList cs).toNat?
  match d with
  | .standard => (digits text.toList).bind fun n ↦
    if n < 2147483648 then some (UInt8.ofNat n) else none
  | .extended =>
    match text.toList with
    | '-' :: cs => (digits cs).bind fun n ↦
      if n ≤ 9223372036854775808 then some (0 - UInt8.ofNat n) else none
    | '+' :: cs | cs => (digits cs).bind fun n ↦
      if n < 9223372036854775808 then some (UInt8.ofNat n) else none

/-- Ends the script, or a function of it. -/
def leave (course : Course) : List String → ShellM Course
  | [] => return course
  | text :: rest => do
    let d := (← get).dialect
    match exitCode? d text with
    | none => fatal 2
    | some code =>
      if d = .extended && !rest.isEmpty then endWith 1
      else
        let _ ← endWith code
        return course

/-- Takes a name with a value, or a name alone. -/
def declare (exports : Bool) (text : String) : ShellM Unit := do
  let name := String.ofList (text.toList.takeWhile (· ≠ '='))
  if name.length < text.length then
    assign name (String.ofList (text.toList.drop (name.length + 1)))
  if exports then modify fun s ↦ { s with exported := name :: s.exported }

/-- Takes a name with a value, or a name alone, for as long as a function is run. -/
def declareLocal (text : String) : ShellM Unit := do
  let name := String.ofList (text.toList.takeWhile (· ≠ '='))
  modify fun s ↦ { s with
    locals := s.locals.map fun ls ↦ (name, s.bindings.lookup name) :: ls }
  declare false text

/-- Gives the variables of a function back what they were. -/
def forgetLocals : ShellM Unit :=
  modify fun s ↦ { s with
    bindings := (s.locals.getD []).foldl (fun vs (name, old) ↦
      (old.toList.map fun v ↦ (name, v)) ++ vs.filter (·.1 ≠ name)) s.bindings }

def changeOptions (on : Bool) (letters : List Char) : ShellM Unit :=
  modify fun s ↦
    let others := s.options.filter fun c ↦ !letters.contains c
    { s with options := if on then others ++ letters else others }

def optionLetter? (name : String) : Option Char :=
  [("errexit", 'e'), ("nounset", 'u'), ("noglob", 'f'), ("xtrace", 'x'), ("verbose", 'v'),
    ("pipefail", 'P'), ("allexport", 'a'), ("noexec", 'n')].lookup name

/-- The options that only a shell with less strictness knows. -/
def isKnownOption (d : Dialect) (name : String) : Bool :=
  (optionLetter? name).isSome && (d = .extended || name ≠ "pipefail")

def setAll : List String → ShellM Course
  | [] => endWith 0
  | "--" :: rest | "-" :: rest => do
    modify fun s ↦ { s with parameters := s.parameters.take 1 ++ rest }
    endWith 0
  | argument :: rest => do
    match argument.toList, rest with
    | [sign, 'o'], name :: rest =>
      let d := (← get).dialect
      if !isKnownOption d name then
        if d = .standard then fatal 2 else endWith 2
      else
        changeOptions (sign = '-') (optionLetter? name).toList
        setAll rest
    | '-' :: c :: cs, rest =>
      changeOptions true (c :: cs)
      setAll rest
    | '+' :: c :: cs, rest =>
      changeOptions false (c :: cs)
      setAll rest
    | _, rest =>
      modify fun s ↦ { s with parameters := s.parameters.take 1 ++ argument :: rest }
      endWith 0

/-- Drops positional parameters; too many cannot be dropped. -/
def shift (n : Nat) : ShellM Course := do
  let s ← get
  if n < s.parameters.length then
    set { s with parameters := s.parameters.take 1 ++ s.parameters.drop (n + 1) }
    endWith 0
  else if s.dialect = .standard then fatal 2
  else endWith 1

/-- The names of a path without steps upwards. -/
def resolve (path : String) : String :=
  "/" ++ "/".intercalate ((Path.names path).foldl
    (fun ns n ↦ if n = ".." then ns.dropLast else ns ++ [n]) [])

def changeDirectory (p : String) : ShellM Course := do
  let old ← here
  let path := resolve (Path.join old p)
  if p ≠ "" && (← onMachine (OnMachine.entries path)).isOk then
    assign "OLDPWD" old
    modify fun s ↦ { s with directory := path, bindings := s.bindings.filter (·.1 ≠ "PWD") }
    endWith 0
  else if p = "" then endWith 0
  else endWith (if (← get).dialect = .standard then 2 else 1)

/-- The first line of the input, and whether it has an end; a backslash joins lines and quotes. -/
def readLine (raw : Bool) : List Char → List MarkedChar × Bool × List Char
  | [] => ([], false, [])
  | '\n' :: cs => ([], true, cs)
  | '\\' :: c :: cs =>
    if raw then
      let (line, ended, rest) := readLine raw (c :: cs)
      (('\\', false) :: line, ended, rest)
    else
      let (line, ended, rest) := readLine raw cs
      (if c = '\n' then line else (c, true) :: line, ended, rest)
  | c :: cs =>
    let (line, ended, rest) := readLine raw cs
    ((c, false) :: line, ended, rest)

/-- Gives the parts of a line to variables; the last one gets all that is left. -/
def assignParts (separators : String) : List String → List MarkedChar → ShellM Unit
  | [], _ => return
  | [name], line =>
    let isBlank : MarkedChar → Bool := fun (c, quoted) ↦
      !quoted && separators.contains c && (c = ' ' || c = '\t')
    let kept := ((line.dropWhile isBlank).reverse.dropWhile isBlank).reverse
    assign name (plainText kept)
  | name :: names, line => do
    let separates : MarkedChar → Bool := fun (c, quoted) ↦ !quoted && separators.contains c
    let isBlank : MarkedChar → Bool := fun x ↦ separates x && (x.1 = ' ' || x.1 = '\t')
    let line := line.dropWhile isBlank
    let rest := line.dropWhile fun x ↦ !separates x
    assign name (plainText (line.takeWhile fun x ↦ !separates x))
    let rest := rest.dropWhile isBlank
    assignParts separators names (match rest with
      | x :: more => if separates x then more else rest
      | [] => [])

def readInto (arguments : List String) : ShellM Course := do
  match Options.ofArguments? "r" "p" arguments with
  | none => endWith 2
  | some (os, names) =>
    let s ← get
    let text := (String.fromUTF8? s.input).getD ""
    let (line, ended, rest) := readLine (os.has 'r') text.toList
    set { s with input := (String.ofList rest).toUTF8 }
    let separators := (← valueOf? "IFS").getD ""
    assignParts separators (if names.isEmpty then ["REPLY"] else names) line
    endWith (if ended then 0 else 1)

/-- Keeps what is to be done on signals. -/
def trap (arguments : List String) : ShellM Course := do
  let d := (← get).dialect
  let forget (names : List String) : ShellM Course := do
    let names := names.filterMap (trapName? d)
    modify fun s ↦ { s with traps := s.traps.filter fun (n, _) ↦ !names.contains n }
    endWith 0
  match arguments.dropWhile (· = "--") with
  | [] => endWith 0
  | "-" :: names => forget names
  | [name] => forget [name]
  | action :: names =>
    if action.toList.all Char.isDigit && action ≠ "" then forget (action :: names)
    else
      match names.mapM (trapName? d) with
      | none => endWith 1
      | some names =>
        modify fun s ↦ { s with
          traps := names.map (fun n ↦ (n, action)) ++
            s.traps.filter fun (n, _) ↦ !names.contains n }
        endWith 0

/-- The commands whose faults end a script. -/
def isSpecial (name : String) : Bool :=
  [":", ".", "break", "continue", "eval", "exec", "exit", "export", "readonly", "return", "set",
    "shift", "times", "trap", "unset"].contains name

/-- What a shell does by itself without running other commands. -/
def builtin? (name : String) (arguments : List String) : Option (ShellM Course) :=
  let count? := match arguments with
    | [] => some 1
    | text :: _ => text.toNat?
  match name with
  | ":" | "times" | "umask" | "ulimit" | "hash" | "alias" | "unalias" | "jobs" | "fg" | "bg" =>
    some (endWith 0)
  | "exit" => some (leave .exits arguments)
  | "return" => some do
    if (← get).dialect = .extended && (← get).locals.isNone then endWith 1
    else leave .returns arguments
  | "break" | "continue" => some do
    let loops := (← get).loops
    match count? with
    | some (n + 1) =>
      let _ ← endWith 0
      if loops = 0 then return .goesOn
      let n := min n (loops - 1)
      return if name = "break" then .breaks n else .continues n
    | _ => fatal 2
  | "export" => some do
    (arguments.filter fun a ↦ !a.startsWith "-").forM (declare true)
    endWith 0
  | "local" => some do
    match (← get).locals with
    | none => if (← get).dialect = .standard then fatal 2 else endWith 1
    | some _ =>
      (arguments.filter fun a ↦ !a.startsWith "-").forM declareLocal
      endWith 0
  | "readonly" => some do
    let texts := arguments.filter fun a ↦ !a.startsWith "-"
    texts.forM (declare false)
    let names := texts.map fun a ↦ String.ofList (a.toList.takeWhile (· ≠ '='))
    modify fun s ↦ { s with constants := names ++ s.constants }
    endWith 0
  | "declare" | "typeset" => some do
    (arguments.filter fun a ↦ !a.startsWith "-").forM (declare false)
    endWith 0
  | "unset" => some do
    modify fun s ↦ { s with
      bindings := s.bindings.filter fun (n, _) ↦ !arguments.contains n
      functions := if arguments.head? = some "-v" then s.functions
        else s.functions.filter fun (n, _) ↦ !arguments.contains n }
    endWith 0
  | "set" => some (setAll arguments)
  | "shift" => some (match count? with
    | some n => shift n
    | none => fatal 2)
  | "cd" => some do
    match arguments.filter fun a ↦ a ≠ "-L" && a ≠ "-P" with
    | [] => changeDirectory ((← valueOf? "HOME").getD "")
    | "-" :: _ => changeDirectory ((← valueOf? "OLDPWD").getD "")
    | p :: _ => changeDirectory p
  | "pwd" => some do
    emit 1 ((← here) ++ "\n").toUTF8
    endWith 0
  | "read" => some (readInto arguments)
  | "trap" => some (trap arguments)
  | "wait" => some do
    let detached := (← get).detached
    endWith (if arguments.isEmpty then 0 else detached)
  | _ => none

end Shell

end HeapSentry.Command
