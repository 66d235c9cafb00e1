import HeapSentry.Command.Tool.Basic

/-!
# Tests

A test asks about texts, numbers and files; it answers with its status.
-/

namespace HeapSentry.Command.Tool

/-- What a test comes to; one that is badly made has no answer. -/
abbrev Verdict := Option Bool

def unaryTest? (c : Call) (name operand : String) : Option (OnMachine Verdict) :=
  let onFile (b : OnMachine Bool) : Option (OnMachine Verdict) := some (some <$> b)
  match name with
  | "-n" => some (return some (operand ≠ ""))
  | "-z" => some (return some (operand = ""))
  | "-e" | "-a" | "-r" | "-w" => onFile (c.exists? operand)
  | "-f" => onFile do
    return (← c.exists? operand) && operand ≠ nowhere && !(← c.isDirectory operand)
  | "-d" | "-x" => onFile (c.isDirectory operand)
  | "-s" => onFile do
    match ← OnMachine.size (c.path operand) with
    | .ok n => return n > 0
    | .error _ => return false
  | "-c" => onFile (return operand = nowhere)
  | "-h" | "-L" | "-p" | "-S" | "-b" | "-g" | "-u" | "-k" | "-t" => some (return some false)
  | _ => none

def numberTest (f : Int → Int → Bool) (a b : String) : OnMachine Verdict :=
  match leadingDecimal? a, leadingDecimal? b with
  | some a, some b => return some (f a b)
  | _, _ => return none
where
  leadingDecimal? (text : String) : Option Int :=
    let cs := text.toList.filter (· ≠ ' ')
    match cs with
    | '-' :: ds => (digits? ds).map fun n ↦ -(n : Int)
    | '+' :: ds => (digits? ds).map Int.ofNat
    | ds => (digits? ds).map Int.ofNat
  digits? (ds : List Char) : Option Nat :=
    if ds.isEmpty || !ds.all Char.isDigit then none else (String.ofList ds).toNat?

def binaryTest? (c : Call) (a sign b : String) : Option (OnMachine Verdict) :=
  match sign with
  | "=" | "==" => some (return some (a = b))
  | "!=" => some (return some (a ≠ b))
  | "<" => some (return some (a < b))
  | ">" => some (return some (b < a))
  | "-eq" => some (numberTest (fun a b ↦ a = b) a b)
  | "-ne" => some (numberTest (fun a b ↦ a ≠ b) a b)
  | "-lt" => some (numberTest (fun a b ↦ a < b) a b)
  | "-le" => some (numberTest (fun a b ↦ a ≤ b) a b)
  | "-gt" => some (numberTest (fun a b ↦ a > b) a b)
  | "-ge" => some (numberTest (fun a b ↦ a ≥ b) a b)
  | "-nt" | "-ot" => some do return some ((← c.exists? a) && !(← c.exists? b))
  | "-ef" => some do
    return some ((← c.exists? a) && Storage.Path.names (c.path a) = Storage.Path.names (c.path b))
  | _ => none

mutual

/-- Tests of which one has to hold; what is left of the arguments. -/
def anyOf (c : Call) : Nat → List String → OnMachine (Verdict × List String)
  | 0, rest => return (none, rest)
  | fuel + 1, arguments => do
    let (first, rest) ← allOf c fuel arguments
    match rest with
    | "-o" :: rest => do
      let (second, rest) ← anyOf c fuel rest
      return (do some ((← first) || (← second)), rest)
    | rest => return (first, rest)

/-- Tests that have to hold together. -/
def allOf (c : Call) : Nat → List String → OnMachine (Verdict × List String)
  | 0, rest => return (none, rest)
  | fuel + 1, arguments => do
    let (first, rest) ← single c fuel arguments
    match rest with
    | "-a" :: rest => do
      let (second, rest) ← allOf c fuel rest
      return (do some ((← first) && (← second)), rest)
    | rest => return (first, rest)

/-- One test.  A sign between two operands counts more than a letter before one. -/
def single (c : Call) : Nat → List String → OnMachine (Verdict × List String)
  | 0, rest => return (none, rest)
  | fuel + 1, arguments => do
    let other : OnMachine (Verdict × List String) :=
      match arguments with
      | "!" :: rest@(_ :: _) => do
        let (v, rest) ← single c fuel rest
        return (v.map (!·), rest)
      | "(" :: rest@(_ :: _) => do
        match ← anyOf c fuel rest with
        | (v, ")" :: rest) => return (v, rest)
        | (_, rest) => return (none, rest)
      | name :: operand :: rest =>
        match unaryTest? c name operand with
        | some t => do return (← t, rest)
        | none => return (some (name ≠ ""), operand :: rest)
      | [text] => return (some (text ≠ ""), [])
      | [] => return (none, [])
    match arguments with
    | a :: sign :: b :: rest =>
      match binaryTest? c a sign b with
      | some t => return (← t, rest)
      | none => other
    | _ => other

end

/-- The status of a test, which has to take up all its arguments. -/
def testArguments (c : Call) (arguments : List String) : OnMachine Ending := do
  match arguments with
  | [] => return .failure
  | [text] => return .answer (text ≠ "")
  | arguments =>
    match ← anyOf c (4 * arguments.length + 4) arguments with
    | (some b, []) => return .answer b
    | _ => return ⟨.exited 2, .empty, false⟩

def test : Tool := fun c ↦ testArguments c c.arguments

/-- A test that ends with a bracket. -/
def bracketTest : Tool := fun c ↦
  match c.arguments.reverse with
  | "]" :: arguments => testArguments c arguments.reverse
  | _ => return ⟨.exited 2, .empty, false⟩

end HeapSentry.Command.Tool
