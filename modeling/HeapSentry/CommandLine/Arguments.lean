import HeapSentry.CommandLine.Invocation

/-!
# Reading arguments

Arguments are read from the left to the right; the first fault or request for help decides.  An
option is checked when what follows it has been seen.
-/

namespace HeapSentry.CommandLine

/-- What was read at one place. -/
structure Level where
  place : Place
  /-- Options with values that were checked. -/
  given : List (OptionName × String) := []
  /-- The last option, if it is not checked yet, with its value if it was seen. -/
  pending : Option (OptionName × Option String) := none
  positionals : List String := []
  /-- Whether all that follows has no name. -/
  literal : Bool := false
  deriving DecidableEq, Repr

namespace Level

/-- Takes over an option, unless it was given before. -/
def give (l : Level) (name : OptionName) (value : String) : Parsed Level :=
  if name.accepts value ∧ (l.given.lookup name).isNone then
    .ok { l with given := l.given ++ [(name, value)], pending := none }
  else .invalid

/-- Checks the last option. -/
def resolve (l : Level) : Parsed Level :=
  match l.pending with
  | none => .ok l
  | some (name, some value) => l.give name value
  | some (_, none) => .invalid

def awaitsValue (l : Level) : Bool := l.pending matches some (_, none)

/-- Adds an argument without a name. -/
def addPositional (l : Level) (argument : String) : Parsed Level := do
  let l ← l.resolve
  if l.positionals.length < l.place.positionals ∧ argument ≠ "" then
    .ok { l with positionals := l.positionals ++ [argument] }
  else .invalid

def splitOption (text : List Char) : String × Option String :=
  let name := text.takeWhile (· ≠ '=')
  (String.ofList name,
    if name.length < text.length then some (String.ofList (text.drop (name.length + 1))) else none)

def addLong (l : Level) (text : List Char) : Parsed Level :=
  let (name, value) := splitOption text
  if name = "help" then
    if value.isSome then .invalid else l.resolve.bind fun _ ↦ .help
  else
    match l.place.options.find? (·.text == name), value with
    | none, _ => .invalid
    | some o, some value => do (← l.resolve).give o value
    | some o, none => do
      let l ← l.resolve
      .ok { l with pending := some (o, none) }

def addShort (l : Level) (text : List Char) : Parsed Level :=
  if text.head? = some 'h' then l.resolve.bind fun _ ↦ .help else .invalid

/-- Takes an argument that may be the value of an option. -/
def addPlain (l : Level) (argument : String) : Parsed Level :=
  match l.pending with
  | some (name, none) => .ok { l with pending := some (name, some argument) }
  | _ => l.addPositional argument

def add (l : Level) (argument : String) : Parsed Level :=
  if l.literal then l.addPositional argument
  else
    match argument.toList with
    | ['-', '-'] => .ok { l with literal := true }
    | '-' :: '-' :: text => l.addLong text
    | '-' :: c :: text => l.addShort (c :: text)
    | _ => l.addPlain argument

def addAll (l : Level) : List String → Parsed Level
  | [] => l.resolve
  | argument :: rest => do (← l.add argument).addAll rest

end Level

/-! ## Tasks -/

/-- The place after the name of a task. -/
def place? (argument : String) : Option Place :=
  if argument = "analyze" then some .analyze
  else if argument = "watch" then some .watch
  else none

def namesHelp : List String → Bool
  | [] => true
  | [name] => name = "help" || (place? name).isSome
  | _ => false

/-- The general options of two places; the inner one counts more. -/
def General.ofLevels (outer inner : Level) : General :=
  let value (name : OptionName) := (inner.given.lookup name).or (outer.given.lookup name)
  { config := value .config
    logFormat := ((value .logFormat).bind fun v ↦ (LogFormat.ofName v).toOption).getD .text
    logFile := value .logFile }

/-- The task that arguments after its name describe. -/
def Task.ofLevel? (l : Level) : Option Task :=
  match l.place with
  | .top => none
  | .analyze => l.positionals.head?.map fun heap ↦
    .analyze heap ((l.given.lookup .reason).getD "manual") (l.given.lookup .output)
  | .watch => some (.watch ((l.given.lookup .pid).bind pid?)
      ((l.given.lookup .intervalMs).bind millis?) (l.given.lookup .uploadDir))

/-- Reads the arguments up to the name of the task, and then the others. -/
def parseFrom (outer : Level) : List String → Parsed Invocation
  | [] => .invalid
  | argument :: rest =>
    if !outer.literal ∧ !outer.awaitsValue ∧ argument = "help" then
      if namesHelp rest then .help else .invalid
    else
      match if outer.literal ∨ outer.awaitsValue then none else place? argument with
      | some place => do
        let inner ← Level.addAll { place } rest
        let outer ← outer.resolve
        let task ← Parsed.ofOption (Task.ofLevel? inner)
        .ok ⟨.ofLevels outer inner, task⟩
      | none => do parseFrom (← outer.add argument) rest

/-- Reads the arguments of the program. -/
def parse (arguments : List String) : Parsed Invocation := parseFrom { place := .top } arguments

end HeapSentry.CommandLine
