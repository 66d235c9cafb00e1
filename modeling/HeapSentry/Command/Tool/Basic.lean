import HeapSentry.Command.Escape
import HeapSentry.Command.Status
import HeapSentry.Machine

/-!
# Tools

A tool is called with arguments and some input.  It ends with a status and has some output; what it
would say about errors is left out.
-/

namespace HeapSentry.Command

open Storage

structure Call where
  arguments : List String := []
  input : ByteArray := .empty
  /-- Where relative paths start; nothing stands for the directory of the machine. -/
  directory : String := ""

/-- What a tool leaves: how it ended and what it wrote to its output. -/
structure Ending where
  status : Status
  output : ByteArray := .empty
  /-- Whether the input was read. -/
  tookInput : Bool := false

namespace Ending

def success (output : String) : Ending := ⟨.success, output.toUTF8, false⟩

def failure : Ending := ⟨.failure, .empty, false⟩

def answer (b : Bool) : Ending := ⟨if b then .success else .failure, .empty, false⟩

end Ending

abbrev Tool := Call → OnMachine Ending

namespace Tool

/-- A tool that does nothing but end. -/
def ending (status : Status) : Tool := fun _ ↦ return ⟨status, .empty, false⟩

end Tool

/-! ## Options -/

/-- Options by letter, with their values. -/
abbrev Options := List (Char × String)

namespace Options

/-- The options of one argument, and the last of them if its value is in the next argument. -/
def ofLetters? (plain valued : List Char) : List Char → Option (Options × Option Char)
  | [] => some ([], none)
  | c :: cs =>
    if valued.contains c then
      if cs.isEmpty then some ([], some c) else some ([(c, String.ofList cs)], none)
    else if plain.contains c then
      (ofLetters? plain valued cs).map fun (os, last) ↦ ((c, "") :: os, last)
    else none

/-- Options, wherever they stand, and the other arguments. -/
def ofArguments? (plain valued : String) : List String → Option (Options × List String)
  | [] => some ([], [])
  | "--" :: rest => some ([], rest)
  | argument :: rest =>
    match argument.toList with
    | '-' :: c :: cs => do
      let (found, last) ← ofLetters? plain.toList valued.toList (c :: cs)
      match last, rest with
      | none, rest =>
        let (others, operands) ← ofArguments? plain valued rest
        some (found ++ others, operands)
      | some o, value :: rest =>
        let (others, operands) ← ofArguments? plain valued rest
        some (found ++ (o, value) :: others, operands)
      | some _, [] => none
    | _ => do
      let (others, operands) ← ofArguments? plain valued rest
      some (others, argument :: operands)

def has (os : Options) (c : Char) : Bool := os.any (·.1 == c)

end Options

/-- A number of bytes or lines, with a letter for thousands. -/
def amount? (text : String) : Option Nat :=
  let ds := text.toList.takeWhile Char.isDigit
  let factor? := match text.toList.drop ds.length with
    | [] => some 1
    | ['b'] => some 512
    | ['k'] | ['K'] => some 1024
    | ['M'] => some 1048576
    | ['k', 'B'] => some 1000
    | ['M', 'B'] => some 1000000
    | _ => none
  do some ((← (String.ofList ds).toNat?) * (← factor?))

/-- A count with the sign that was put before it. -/
def signedAmount? (text : String) : Option (Char × Nat) :=
  match text.toList with
  | '-' :: cs => (amount? (String.ofList cs)).map fun n ↦ ('-', n)
  | '+' :: cs => (amount? (String.ofList cs)).map fun n ↦ ('+', n)
  | _ => (amount? text).map fun n ↦ (' ', n)

/-! ## Files -/

/-- The file that holds nothing and keeps nothing. -/
def nowhere : String := "/dev/null"

namespace Call

def path (c : Call) (p : String) : String := if p = "" then "" else Path.join c.directory p

def read (c : Call) (p : String) : OnMachine (Except FileError ByteArray) :=
  if p = "-" || p = "/dev/stdin" then return .ok c.input
  else if p = nowhere then return .ok .empty
  else OnMachine.read (c.path p)

/-- The start of a file, which may be one that never ends. -/
def readStart (c : Call) (p : String) (n : Nat) : OnMachine (Except FileError ByteArray) := do
  if p = "/dev/zero" then return .ok ⟨(List.replicate n 0).toArray⟩
  else return (← c.read p).map fun content ↦ content.extract 0 n

def write (c : Call) (p : String) (content : ByteArray) : OnMachine (Except FileError Unit) :=
  if p = nowhere then return .ok () else OnMachine.write (c.path p) content

def exists? (c : Call) (p : String) : OnMachine Bool := OnMachine.exists? (c.path p)

def isDirectory (c : Call) (p : String) : OnMachine Bool := do
  return (← OnMachine.entries (c.path p)).isOk

/-- Where a file that is put somewhere ends up: in a directory, or at the place itself. -/
def target (c : Call) (source place : String) : OnMachine String := do
  if ← c.isDirectory place then
    return Path.join place ((Path.fileName? source).getD "")
  else return place

end Call

end HeapSentry.Command
