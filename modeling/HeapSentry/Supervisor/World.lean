import HeapSentry.Supervisor.Calls

/-!
# Worlds

A world is a value that a supervisor can live in: a machine, the memory of the supervisor, the
host, and a watched process whose snapshots are known beforehand.
-/

namespace HeapSentry.Supervisor

open Pressure Storage

/-- What writes dumps.  It is told a path, and may do anything to the machine. -/
structure DumpTool where
  dump : String → Machine → Except ProbeError Unit × Machine

namespace DumpTool

/-- Writes a content, or nothing at all, and does not say so where it cannot. -/
def writes (content : Option ByteArray) : DumpTool where
  dump path m := (.ok (), match content with
    | none => m
    | some content => (m.perform (.write path content)).2)

def fails (e : ProbeError) : DumpTool := ⟨fun _ m ↦ (.error e, m)⟩

end DumpTool

structure Process where
  /-- The snapshots to come; where there is none, the process cannot be read. -/
  snapshots : List (Option Snapshot) := []
  /-- The names of its threads, by how often they were listed before. -/
  threadNames : Nat → List String := fun _ ↦ []
  /-- What its descriptors lead to, by how often they were listed before. -/
  fdTargets : Nat → List String := fun _ ↦ []
  /-- What was listed so far. -/
  listed : List Capture := []
  /-- What is free on the disk. -/
  freeBytes : Nat := 0xffffffffffffffff
  dumpTool : DumpTool := .writes none
  /-- How often a dump was asked for. -/
  dumps : Nat := 0

structure World where
  machine : Machine := {}
  memory : Memory := {}
  host : Host := {}
  process : Process := {}
  /-- What was announced, the last event first. -/
  events : List Event := []

namespace World

/-- Takes over the session after a call to start. -/
def started (w : World) (version : String) (result : Bool × Session) : Start × World :=
  let before := w.memory.session.ledger.firstLaunchMs version
  let changed := if result.1 && before.isNone then some result.2.ledger else none
  (⟨result.1, changed⟩, { w with memory := { w.memory with session := result.2 } })

/-- Takes over the session after a call to stop. -/
def stopped (w : World) (result : Bool × Session) : Bool × World :=
  (result.1, { w with memory := { w.memory with session := result.2 } })

/-- Polls the watched process.  A snapshot is used up only while the loop runs. -/
def poll (settings : Settings) (w : World) (nowMs : Int) : PollOutcome × World :=
  let session := w.memory.session
  let result := session.poll settings {
    nowMs
    reading := w.process.snapshots.head?.join
    threadNames := w.process.threadNames (w.process.listed.count .threadNames)
    fdTargets := w.process.fdTargets (w.process.listed.count .fdTargets)
    hasSpace := settings.storage.minFreeBytes ≤ w.process.freeBytes }
  let snapshots := if session.loop.phase == .running then w.process.snapshots.drop 1
    else w.process.snapshots
  (result.outcome, { w with
    memory := { w.memory with session := { session with loop := result.next } }
    process := { w.process with snapshots, listed := result.captures ++ w.process.listed } })

/-- Has the tool write a dump. -/
def dumpHeap (w : World) (path : String) : Except ProbeError Unit × World :=
  let (result, machine) := w.process.dumpTool.dump path w.machine
  (result, { w with machine, process := { w.process with dumps := w.process.dumps + 1 } })

def remember (w : World) (change : Memory → Memory) : World :=
  { w with memory := change w.memory }

/-- What a request is answered and what becomes of the world. -/
def perform (settings : Settings) (w : World) : (r : Request) → Answer r × World
  | .machine r | .service r =>
    let (answer, machine) := w.machine.perform r
    (answer, { w with machine })
  | .host => (w.host, w)
  | .start primary nowMs =>
    let version := settings.general.appVersion
    w.started version (w.memory.session.start version primary nowMs)
  | .stop => w.stopped w.memory.session.stop
  | .background => w.stopped w.memory.session.background
  | .foreground primary nowMs =>
    let version := settings.general.appVersion
    w.started version (w.memory.session.foreground version primary nowMs)
  | .poll nowMs => w.poll settings nowMs
  | .claimLaunch => (!w.memory.launched, w.remember ({ · with launched := true }))
  | .claimRecovery => (!w.memory.recovered, w.remember ({ · with recovered := true }))
  | .generation => (w.memory.generation, w)
  | .endGeneration => ((), w.remember fun m ↦ { m with generation := m.generation + 1 })
  | .sighting => (w.memory.sighting, w)
  | .dumpHeap path => w.dumpHeap path
  | .defer job => ((), w.remember fun m ↦ { m with deferred := m.deferred ++ [job] })
  | .takeDeferred => (w.memory.deferred, w.remember ({ · with deferred := [] }))
  | .countAnalysis =>
    let session := w.memory.session.increment settings.general.appVersion
    (session.ledger, w.remember ({ · with session }))
  | .spawn task => ((), w.remember fun m ↦ { m with tasks := m.tasks ++ [task] })
  | .publish outcome => ((), w.remember ({ · with outcome := some outcome }))
  | .announce event => ((), { w with events := event :: w.events })

def run {α : Type} (settings : Settings) (w : World) (a : Supervised α) : α × World :=
  a.runOn (perform settings) w

/-! ## Tasks -/

/-- Removes the first task of some kind. -/
def takeTask? (kind : Task → Bool) : List Task → Option (Task × List Task)
  | [] => none
  | task :: rest =>
    if kind task then some (task, rest)
    else (takeTask? kind rest).map fun (found, others) ↦ (found, task :: others)

/-- Runs the first task of some kind as a whole. -/
def runTask? (setup : Setup) (kind : Task → Bool) (w : World) : Option World :=
  (takeTask? kind w.memory.tasks).map fun (task, tasks) ↦
    ((w.remember ({ · with tasks })).run setup.settings (task.activity setup)).2

/-- Runs tasks that do not poll, up to `fuel` of them. -/
def settle (setup : Setup) : Nat → World → World
  | 0, w => w
  | fuel + 1, w =>
    match w.runTask? setup (!·.isPoll) with
    | none => w
    | some w => settle setup fuel w

/-- Polls while there are snapshots, up to `fuel` times. -/
def pollAll (setup : Setup) : Nat → World → World
  | 0, w => w
  | fuel + 1, w =>
    if w.process.snapshots.isEmpty then w
    else
      match w.runTask? setup Task.isPoll with
      | none => w
      | some w => pollAll setup fuel w

/-- Runs tasks until none is left but one that polls in vain.  Tasks that do not poll start no other
tasks, and each poll uses up a snapshot or ends polling. -/
def quiesce (setup : Setup) (w : World) : World :=
  let w := w.settle setup w.memory.tasks.length
  let w := w.pollAll setup (w.process.snapshots.length + w.memory.tasks.length)
  w.settle setup w.memory.tasks.length

end World

end HeapSentry.Supervisor
