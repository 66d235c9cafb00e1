import HeapSentry.CommandLine.Program
import HeapSentry.ProcessStatus
import Std.Time.DateTime.Timestamp

/-!
# The program on the real machine

Every request of the library is carried out here; what to request is decided there.
-/

namespace HeapSentry.Live

open Storage Supervisor

/-! ## Files -/

def fileError (e : IO.Error) : FileError :=
  match e with
  | .noFileOrDirectory .. => .notFound
  | _ => .isADirectory

/-- The answer of something that can fail. -/
def attempt {α : Type} (act : IO α) : IO (Except FileError α) := do
  try return .ok (← act)
  catch e => return .error (fileError e)

def size (path : String) : IO Nat := do
  let here ← IO.currentDir
  return (← (here / path).metadata).byteSize.toNat

/-- What is in a directory, by name, and whether it is a directory itself. -/
def entries (dir : String) : IO (List (String × Bool)) := do
  let here ← IO.currentDir
  let mut found := []
  for entry in ← (here / dir).readDir do
    found := (entry.fileName, ← entry.path.isDir) :: found
  return found.mergeSort fun a b ↦ a.1 ≤ b.1

def makeDirs (path : String) : IO Unit := do
  unless path = "" do IO.FS.createDirAll path

def copy (source target : String) : IO Unit := do
  IO.FS.writeBinFile target (← IO.FS.readBinFile source)

/-! ## Processes -/

def optional {α : Type} (act : IO α) : IO (Option α) := do
  try return some (← act)
  catch _ => return none

def threadName (pid : Nat) (thread : String) : IO (Option String) :=
  optional do
    let text ← IO.FS.readFile s!"/proc/{pid}/task/{thread}/comm"
    return text.trimAsciiEnd.toString

def fdTarget (pid : Nat) (fd : String) : IO (Option String) :=
  optional do return (← IO.FS.realPath s!"/proc/{pid}/fd/{fd}").toString

/-- The names in a directory of the system; none if it cannot be read. -/
def systemNames (dir : String) : IO (List String) := do
  let here ← IO.currentDir
  match ← optional (here / dir).readDir with
  | some entries => return entries.toList.map (·.fileName)
  | none => return []

def process (pid : Nat) : IO (Option Machine.ProcessFacts) := do
  match ← optional (IO.FS.readFile s!"/proc/{pid}/status") with
  | none => return none
  | some text =>
    let threads ← (← systemNames s!"/proc/{pid}/task").mapM (threadName pid)
    let fds ← (← systemNames s!"/proc/{pid}/fd").mapM (fdTarget pid)
    return some (ProcessStatus.process text threads fds)

def ownProcess : IO Nat := do
  let here ← IO.FS.realPath "/proc/self"
  return ((here.fileName.getD "").toNat?).getD 0

/-! ## The machine -/

abbrev LogFile := IO.Ref (Option String)

def log (file : LogFile) (line : String) : IO Unit := do
  match ← file.get with
  | none => IO.eprintln line
  | some path =>
    let handle ← IO.FS.Handle.mk path .append
    handle.putStrLn line

def perform (file : LogFile) : (r : Machine.Request) → IO (Machine.Answer r)
  | .read path => attempt (IO.FS.readBinFile path)
  | .size path => attempt (size path)
  | .write path content => attempt (IO.FS.writeBinFile path content)
  | .makeDirs path => attempt (makeDirs path)
  | .copy source target => attempt (copy source target)
  | .remove path => attempt (IO.FS.removeFile path)
  | .removeDir path => attempt (IO.FS.removeDir path)
  | .entries dir => attempt (entries dir)
  | .workingDir => do return (← IO.currentDir).toString
  | .environment name => IO.getEnv name
  | .wallClock => do return (← Std.Time.Timestamp.now).toMillisecondsSinceUnixEpoch.val
  | .stopwatch => do return (← IO.monoNanosNow).toFloat / 1000000000.0
  | .platform => return {}
  | .memory => do
    return ProcessStatus.memory ((← optional (IO.FS.readFile "/proc/meminfo")).getD "")
  | .ownProcess => ownProcess
  | .process pid => process pid
  | .print text => IO.print text
  | .complain text => IO.eprintln text
  | .log line => log file line
  | .logTo path => file.set (some path)

def onMachine {α : Type} (file : LogFile) (a : OnMachine α) : IO α := a.run (perform file)

/-! ## The supervisor -/

/-- Carries out a request of the supervisor.  What it remembers is kept in a world. -/
def performSupervised (file : LogFile) (watch : CommandLine.Watch) (world : IO.Ref World) :
    (r : Supervisor.Request) → IO (Supervisor.Answer r)
  | .machine r | .service r => perform file r
  | .poll nowMs => do
    let dump := watch.setup.settings.dump
    let reading ← onMachine file (Pressure.takeSnapshot watch.pid dump.heapLimitBytes)
    let threads ← onMachine file (Pressure.threadNames watch.pid)
    let fds ← onMachine file (Pressure.fdTargets watch.pid)
    world.modifyGet fun w ↦ World.perform watch.setup.settings
      { w with process := { w.process with
          snapshots := [reading.toOption], threadNames := fun _ ↦ threads
          fdTargets := fun _ ↦ fds } } (.poll nowMs)
  | .dumpHeap path =>
    onMachine file (Pressure.dumpByCommand watch.pid watch.setup.settings.dump.command path)
  | r => world.modifyGet fun w ↦ w.perform watch.setup.settings r

/-- Runs tasks until there is an outcome.  Other tasks go before the next poll. -/
partial def serve (file : LogFile) (watch : CommandLine.Watch) (world : IO.Ref World) :
    IO Unit := do
  let memory := (← world.get).memory
  let next := (World.takeTask? (!·.isPoll) memory.tasks).map (false, ·)
  let later := (World.takeTask? Task.isPoll memory.tasks).map (true, ·)
  match next.or (if memory.outcome.isSome then none else later) with
  | none => return
  | some (polls, task, tasks) =>
    world.modify (·.remember ({ · with tasks }))
    (task.activity watch.setup).run (performSupervised file watch world)
    if polls then IO.sleep (UInt32.ofNat watch.setup.settings.monitor.loopIntervalMs)
    serve file watch world

/-- Watches a process until there is an outcome. -/
def watchOver (file : LogFile) (watch : CommandLine.Watch) : IO CommandLine.ExitCode := do
  let world ← IO.mkRef (watch.world {} 0)
  if ← watch.start.run (performSupervised file watch world) then
    IO.sleep (UInt32.ofNat watch.setup.settings.monitor.initialDelayMs)
    serve file watch world
    onMachine file (CommandLine.conclude (← world.get).memory.outcome)
  else return .failed

end HeapSentry.Live

open HeapSentry in
/-- Runs the program; the answer is the exit code. -/
def main (arguments : List String) : IO UInt32 := do
  let file ← IO.mkRef none
  match ← Live.onMachine file (CommandLine.run arguments) with
  | .exit code => return UInt32.ofNat code.number
  | .watch watch => return UInt32.ofNat (← Live.watchOver file watch).number
