import HeapSentry.LogFormat

/-!
# Invocations

What the arguments of the program ask for.  General options may stand before or after the name of
the task, and there they count more.
-/

namespace HeapSentry.CommandLine

/-- Where settings and the log are. -/
structure General where
  config : Option String := none
  logFormat : LogFormat := .text
  logFile : Option String := none
  deriving DecidableEq, Repr

inductive Task where
  | analyze (heap reason : String) (output : Option String)
  /-- Watches a process until its heap is dumped and analysed. -/
  | watch (pid : Option Nat) (intervalMs : Option Nat) (uploadDir : Option String)
  deriving DecidableEq, Repr

structure Invocation where
  general : General
  task : Task
  deriving DecidableEq, Repr

/-- What becomes of arguments. -/
inductive Parsed (α : Type) where
  | ok (a : α)
  /-- They ask for help. -/
  | help
  | invalid
  deriving DecidableEq, Repr

namespace Parsed

def bind {α β : Type} : Parsed α → (α → Parsed β) → Parsed β
  | .ok a, f => f a
  | .help, _ => .help
  | .invalid, _ => .invalid

instance : Monad Parsed where
  pure := .ok
  bind := bind

def ofOption {α : Type} : Option α → Parsed α
  | some a => .ok a
  | none => .invalid

end Parsed

/-! ## Options -/

inductive OptionName where
  | config | logFormat | logFile | reason | output | pid | intervalMs | uploadDir
  deriving DecidableEq, Repr

def OptionName.text : OptionName → String
  | .config => "config"
  | .logFormat => "log-format"
  | .logFile => "log-file"
  | .reason => "reason"
  | .output => "output"
  | .pid => "pid"
  | .intervalMs => "interval-ms"
  | .uploadDir => "upload-dir"

/-- Where arguments stand: before the name of a task or after it. -/
inductive Place where
  | top | analyze | watch
  deriving DecidableEq, Repr

def Place.options : Place → List OptionName
  | .top => [.config, .logFormat, .logFile]
  | .analyze => [.config, .logFormat, .logFile, .reason, .output]
  | .watch => [.config, .logFormat, .logFile, .pid, .intervalMs, .uploadDir]

def Place.positionals : Place → Nat
  | .analyze => 1
  | _ => 0

/-- An integer with an optional sign. -/
def integer? (text : String) : Option Int :=
  match text.toList with
  | '-' :: ds => (digits? ds).map fun n ↦ -(n : Int)
  | '+' :: ds | ds => (digits? ds).map Int.ofNat
where
  digits? (ds : List Char) : Option Nat :=
    if ds ≠ [] ∧ ds.all Char.isDigit then some (ds.foldl (fun n c ↦ n * 10 + (c.toNat - 48)) 0)
    else none

def pid? (text : String) : Option Nat :=
  (integer? text).bind fun i ↦ if 0 ≤ i ∧ i ≤ 0xffffffff then some i.toNat else none

/-- A number of milliseconds, without a minus sign. -/
def millis? (text : String) : Option Nat :=
  (integer? text).bind fun i ↦
    if 0 ≤ i ∧ i ≤ 0xffffffffffffffff ∧ ¬ text.startsWith "-" then some i.toNat else none

def OptionName.accepts (name : OptionName) (value : String) : Bool :=
  match name with
  | .reason => true
  | .logFormat => (LogFormat.ofName value).isOk
  | .pid => (pid? value).isSome
  | .intervalMs => (millis? value).isSome
  | .config | .logFile | .output | .uploadDir => value ≠ ""

end HeapSentry.CommandLine
