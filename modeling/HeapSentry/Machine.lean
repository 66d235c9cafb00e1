import HeapSentry.Activity
import HeapSentry.Storage.FileTree

/-!
# Machines

What a program can ask of the machine that it runs on: its files, clocks, processes and console.  A
machine is also a value, on which activities can be carried out.
-/

namespace HeapSentry

open Storage

namespace Machine

structure Platform where
  os : String := "linux"
  osVersion : String := ""
  arch : String := "x86_64"
  deriving DecidableEq, Repr

/-- What can be seen of a process.  Threads and descriptors of which nothing can be read still
count. -/
structure ProcessFacts where
  residentBytes : Nat
  virtualBytes : Nat
  threadNames : List (Option String)
  fdTargets : List (Option String)
  deriving DecidableEq, Repr

/-- The memory of the machine, in bytes. -/
structure MemoryFacts where
  total : Nat
  free : Nat
  available : Nat
  deriving DecidableEq, Repr

inductive Request where
  | read (path : String)
  | size (path : String)
  | write (path : String) (content : ByteArray)
  | makeDirs (path : String)
  | copy (source target : String)
  | remove (path : String)
  /-- Removes a directory with nothing in it. -/
  | removeDir (path : String)
  /-- What is in a directory, by name and in that order, and whether it is a directory itself. -/
  | entries (dir : String)
  /-- Where relative paths start. -/
  | workingDir
  /-- The value that a name has for all programs. -/
  | environment (name : String)
  /-- Milliseconds since the epoch. -/
  | wallClock
  /-- Seconds since some moment. -/
  | stopwatch
  | platform
  | memory
  /-- The number of the process that asks. -/
  | ownProcess
  | process (pid : Nat)
  | print (text : String)
  /-- Tells the user what went wrong. -/
  | complain (text : String)
  | log (line : String)
  /-- Lets the log go to a file, which must exist. -/
  | logTo (path : String)

abbrev Answer : Request → Type
  | .read _ => Except FileError ByteArray
  | .size _ => Except FileError Nat
  | .write _ _ | .makeDirs _ | .copy _ _ | .remove _ | .removeDir _ => Except FileError Unit
  | .entries _ => Except FileError (List (String × Bool))
  | .workingDir => String
  | .environment _ => Option String
  | .wallClock => Int
  | .stopwatch => Float
  | .platform => Platform
  | .memory => MemoryFacts
  | .ownProcess => Nat
  | .process _ => Option ProcessFacts
  | .print _ | .complain _ | .log _ | .logTo _ => Unit

end Machine

/-- A machine.  Its clocks stand still. -/
structure Machine where
  files : FileTree := .empty
  /-- Where relative paths start. -/
  workingDir : String := "/"
  environment : List (String × String) := []
  nowMs : Int := 0
  platform : Machine.Platform := {}
  memory : Machine.MemoryFacts := ⟨0, 0, 0⟩
  ownProcess : Nat := 1
  processes : List (Nat × Machine.ProcessFacts) := []
  /-- What was printed, the last text first. -/
  printed : List String := []
  /-- The file that the log goes to; otherwise it goes to the console. -/
  logFile : Option String := none

namespace Machine

/-- The absolute path that a path stands for; no path stands for nothing. -/
def absolute (m : Machine) (path : String) : String :=
  if path = "" then "" else Path.join m.workingDir path

/-- The absolute path of one that the machine takes at all. -/
def accept (m : Machine) (path : String) : Except FileError String :=
  if Path.isAcceptable path then .ok (m.absolute path) else .error .invalidName

/-- Keeps the tree that an operation leaves, if it succeeded. -/
def settle (m : Machine) (result : Except FileError FileTree) : Except FileError Unit × Machine :=
  match result with
  | .ok files => (.ok (), { m with files })
  | .error e => (.error e, m)

def logLine (m : Machine) (line : String) : Machine :=
  match m.logFile with
  | none => m
  | some path =>
    match m.files.read path with
    | .error _ => m
    | .ok content => (m.settle (m.files.write path (content ++ (line ++ "\n").toUTF8))).2

/-- What the machine answers and what becomes of it. -/
def perform (m : Machine) : (r : Request) → Answer r × Machine
  | .read path => (m.accept path >>= m.files.read, m)
  | .size path => (m.accept path >>= m.files.size, m)
  | .write path content => m.settle (m.accept path >>= fun p ↦ m.files.write p content)
  | .makeDirs path =>
    match m.accept path with
    | .error e => (.error e, m)
    | .ok path =>
      let (result, files) := m.files.makeDirs path
      (result, { m with files })
  | .copy source target =>
    m.settle (do m.files.copy (← m.accept source) (← m.accept target))
  | .remove path => m.settle (m.accept path >>= m.files.remove)
  | .removeDir path => m.settle (m.accept path >>= m.files.removeDir)
  | .entries dir => (m.accept dir >>= m.files.entries, m)
  | .workingDir => (m.workingDir, m)
  | .environment name => (m.environment.lookup name, m)
  | .wallClock => (m.nowMs, m)
  | .stopwatch => ((0.0 : Float), m)
  | .platform => (m.platform, m)
  | .memory => (m.memory, m)
  | .ownProcess => (m.ownProcess, m)
  | .process pid => (m.processes.lookup pid, m)
  | .complain _ => ((), m)
  | .print text => ((), { m with printed := text :: m.printed })
  | .log line => ((), m.logLine line)
  | .logTo path => ((), { m with logFile := some (m.absolute path) })

end Machine

abbrev OnMachine (α : Type) := Activity Machine.Answer α

def Machine.run {α : Type} (m : Machine) (a : OnMachine α) : α × Machine :=
  a.runOn Machine.perform m

namespace OnMachine

open Machine

def read (path : String) : OnMachine (Except FileError ByteArray) :=
  Activity.request (Request.read path)

def size (path : String) : OnMachine (Except FileError Nat) := Activity.request (Request.size path)

def write (path : String) (content : ByteArray) : OnMachine (Except FileError Unit) :=
  Activity.request (Request.write path content)

def makeDirs (path : String) : OnMachine (Except FileError Unit) :=
  Activity.request (Request.makeDirs path)

def copy (source target : String) : OnMachine (Except FileError Unit) :=
  Activity.request (Request.copy source target)

def remove (path : String) : OnMachine (Except FileError Unit) :=
  Activity.request (Request.remove path)

def removeDir (path : String) : OnMachine (Except FileError Unit) :=
  Activity.request (Request.removeDir path)

def entries (dir : String) : OnMachine (Except FileError (List (String × Bool))) :=
  Activity.request (Request.entries dir)

/-- The names of the files in a directory, in increasing order. -/
def list (dir : String) : OnMachine (Except FileError (List String)) := do
  return (← entries dir).map fun found ↦ (found.filter (!·.2)).map Prod.fst

def workingDir : OnMachine String := Activity.request Request.workingDir

def environment (name : String) : OnMachine (Option String) :=
  Activity.request (Request.environment name)

def wallClock : OnMachine Int := Activity.request Request.wallClock

def stopwatch : OnMachine Float := Activity.request Request.stopwatch

def platform : OnMachine Platform := Activity.request Request.platform

def memory : OnMachine MemoryFacts := Activity.request Request.memory

def ownProcess : OnMachine Nat := Activity.request Request.ownProcess

def process (pid : Nat) : OnMachine (Option ProcessFacts) := Activity.request (Request.process pid)

def complain (text : String) : OnMachine Unit := Activity.request (Request.complain text)

def print (text : String) : OnMachine Unit := Activity.request (Request.print text)

def log (line : String) : OnMachine Unit := Activity.request (Request.log line)

def logTo (path : String) : OnMachine Unit := Activity.request (Request.logTo path)

/-- The text of a file; a file that is not text has none. -/
def readText (path : String) : OnMachine (Option String) := do
  match ← read path with
  | .ok content => return String.fromUTF8? content
  | .error _ => return none

def exists? (path : String) : OnMachine Bool := do return (← size path).isOk

end OnMachine

end HeapSentry
