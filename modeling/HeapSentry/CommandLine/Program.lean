import HeapSentry.CommandLine.Arguments
import HeapSentry.Pressure.DumpCommand
import HeapSentry.Pressure.Reading
import HeapSentry.Settings.Reader
import HeapSentry.Supervisor.World

/-!
# The program

The program analyses one heap document, or watches a process until the supervisor has come to an
outcome.
-/

namespace HeapSentry.CommandLine

open Storage Supervisor

inductive ExitCode where
  | success | failed | badArguments
  deriving DecidableEq, Repr

def ExitCode.number : ExitCode → Nat
  | .success => 0
  | .failed => 1
  | .badArguments => 2

/-! ## Places -/

/-- What the program calls its own directories. -/
def directoryName : String := "oomwatch"

def configPath (home : String) : String :=
  Path.join (Path.join (Path.join home ".config") directoryName) "config.toml"

def storageRoot (settings : Settings) (home : String) : String :=
  settings.storage.rootDir.getD (Path.join (Path.join home ".local/share") directoryName)

/-! ## Settings and log -/

/-- The settings of a file; where they cannot be read there are the defaults. -/
def loadSettings (path : String) : OnMachine Settings := do
  match ← OnMachine.readText path with
  | none => return {}
  | some text =>
    match Settings.ofText? text with
    | some settings => return settings
    | none =>
      OnMachine.log s!"invalid settings in {path}, using defaults"
      return {}

/-- Makes the log file; answers whether there is one if there has to be one. -/
def openLog : Option String → OnMachine Bool
  | none => return true
  | some path => do
    match ← OnMachine.makeDirs ((Path.parent? path).getD "") with
    | .error _ => return false
    | .ok () =>
      match ← OnMachine.write path .empty with
      | .error _ => return false
      | .ok () =>
        OnMachine.logTo path
        return true

/-! ## Analysing -/

/-- Gives a report out, to a file or to the console. -/
def giveOut (report : Report) (output : Option String) : OnMachine ExitCode := do
  match output with
  | none =>
    OnMachine.print (report.text ++ "\n")
    return .success
  | some path =>
    match ← report.save path with
    | .ok () =>
      OnMachine.log s!"report written to {path}"
      return .success
    | .error e =>
      OnMachine.complain e.message
      return .failed

def analyze (settings : Settings) (heap reason : String) (output : Option String) :
    OnMachine ExitCode := do
  let platform ← OnMachine.platform
  let now ← OnMachine.wallClock
  let info : Report.RunningInfo := {
    os := platform.os
    arch := platform.arch
    appVersion := settings.general.appVersion
    nowTime := UInt64.ofNat (now.toNat / 1000)
    dumpReason := reason
    monitorVersion }
  let analyst : Report.Analyst := { limits := settings.analysis }
  match ← analyst.analyze heap info with
  | .ok report => giveOut report output
  | .error e =>
    OnMachine.complain s!"failed to analyze {heap}: {e.message}"
    return .failed

/-! ## Watching -/

/-- A process to be watched by a supervisor with a ledger. -/
structure Watch where
  pid : Nat
  setup : Setup
  ledger : Ledger

/-- Gets ready to watch a process. -/
def Watch.prepare (settings : Settings) (home : String) (pid : Option Nat)
    (uploadDir : Option String) : OnMachine Watch := do
  let store : DumpStore := ⟨storageRoot settings home⟩
  let kept ← LedgerFile.load store.ledgerPath
  let own ← OnMachine.ownProcess
  let since ← OnMachine.stopwatch
  return {
    pid := pid.getD own
    setup := {
      settings, store, since
      analyst := { limits := settings.analysis }
      ledgerPath := some store.ledgerPath
      uploads := uploadDir.map UploadDir.mk }
    ledger := kept.ledger }

def Watch.start (w : Watch) : Supervised Bool := do
  match ← Supervisor.start w.setup true with
  | .ok true =>
    Supervised.onMachine (OnMachine.log s!"watching process {w.pid}")
    return true
  | .ok false =>
    Supervised.onMachine (OnMachine.complain "monitor did not start")
    return false
  | .error e =>
    Supervised.onMachine (OnMachine.complain e.message)
    return false

/-- Tells what came of watching. -/
def conclude : Option Outcome → OnMachine ExitCode
  | some (.finished path) => do
    OnMachine.print (path ++ "\n")
    return .success
  | some (.failed message) => do
    OnMachine.complain message
    return .failed
  | some .emptyDump => do
    OnMachine.log "heap dump was empty"
    return .success
  | none => return .success

/-! ## Both -/

/-- What is left to do when arguments, log and settings are dealt with. -/
inductive Next where
  | exit (code : ExitCode)
  | watch (w : Watch)

/-- Does a task as far as it needs no supervisor. -/
def Task.perform (settings : Settings) (home : String) : Task → OnMachine Next
  | .analyze heap reason output => do
    return .exit (← CommandLine.analyze settings heap reason output)
  | .watch pid intervalMs uploadDir => do
    let monitor := settings.monitor
    let loopIntervalMs := intervalMs.getD monitor.loopIntervalMs
    let settings := { settings with monitor := { monitor with loopIntervalMs } }
    return .watch (← Watch.prepare settings home pid uploadDir)

/-- Runs the program up to the point where it would watch. -/
def run (arguments : List String) : OnMachine Next := do
  match parse arguments with
  | .help => return .exit .success
  | .invalid =>
    OnMachine.complain "these arguments cannot be understood"
    return .exit .badArguments
  | .ok invocation =>
    if !(← openLog invocation.general.logFile) then
      OnMachine.complain "cannot open the log file"
      return .exit .failed
    let home := (← OnMachine.environment "HOME").getD "/"
    let settings ← loadSettings (invocation.general.config.getD (configPath home))
    invocation.task.perform settings home

/-! ## In a world -/

/-- Runs the command of the settings for the process. -/
def Watch.dumpTool (w : Watch) : DumpTool where
  dump path m := m.run (Pressure.dumpByCommand w.pid w.setup.settings.dump.command path)

/-- A world in which a process of a machine stays as it is for some polls. -/
def Watch.world (w : Watch) (m : Machine) (polls : Nat) : World where
  machine := m
  memory := { session := { ledger := w.ledger } }
  process := {
    snapshots := List.replicate polls
      (m.run (Pressure.takeSnapshot w.pid w.setup.settings.dump.heapLimitBytes)).1.toOption
    threadNames := fun _ ↦ (m.run (Pressure.threadNames w.pid)).1
    fdTargets := fun _ ↦ (m.run (Pressure.fdTargets w.pid)).1
    dumpTool := w.dumpTool }

/-- Watches until no snapshots are left. -/
def Watch.runIn (w : Watch) (world : World) : ExitCode × Machine :=
  let (started, world) := world.run w.setup.settings w.start
  if started then
    let world := world.quiesce w.setup
    world.machine.run (conclude world.memory.outcome)
  else (.failed, world.machine)

/-- Runs the program on a machine, with some polls at most. -/
def runOn (m : Machine) (polls : Nat) (arguments : List String) : ExitCode × Machine :=
  match m.run (run arguments) with
  | (.exit code, m) => (code, m)
  | (.watch w, m) => w.runIn (w.world m polls)

end HeapSentry.CommandLine
