import HeapSentry.Supervisor.Basic

/-!
# What the supervisor asks for

Besides what it asks of the machine, the supervisor looks at its memory and changes it, one step at
a time, and deals with the watched process and the host.
-/

namespace HeapSentry.Supervisor

open Pressure Storage

/-- How a call to start went, with the ledger if it has to be saved. -/
structure Start where
  started : Bool
  changed : Option Ledger

inductive Request where
  | machine (r : Machine.Request)
  /-- What the analysis of a dump asks of the machine. -/
  | service (r : Machine.Request)
  | host
  | start (primary : Bool) (nowMs : Int)
  | stop
  | background
  | foreground (primary : Bool) (nowMs : Int)
  | poll (nowMs : Int)
  /-- Asks for the right to hand off the dump; only the first gets it. -/
  | claimLaunch
  /-- Asks for the right to sort out what earlier runs left; only the first gets it. -/
  | claimRecovery
  | generation
  | endGeneration
  | sighting
  /-- Has the heap of the watched process written to a file. -/
  | dumpHeap (path : String)
  | defer (job : Job)
  /-- Takes all analyses that wait. -/
  | takeDeferred
  /-- Counts an analysis in the ledger. -/
  | countAnalysis
  | spawn (task : Task)
  | publish (outcome : Outcome)
  | announce (event : Event)

abbrev Answer : Request → Type
  | .machine r | .service r => Machine.Answer r
  | .host => Host
  | .start _ _ | .foreground _ _ => Start
  | .stop | .background | .claimLaunch | .claimRecovery => Bool
  | .poll _ => PollOutcome
  | .generation => Nat
  | .sighting => Sighting
  | .dumpHeap _ => Except ProbeError Unit
  | .takeDeferred => List Job
  | .countAnalysis => Ledger
  | .endGeneration | .defer _ | .spawn _ | .publish _ | .announce _ => Unit

end HeapSentry.Supervisor

namespace HeapSentry

/-- An activity of the supervisor. -/
abbrev Supervised (α : Type) := Activity Supervisor.Answer α

namespace Supervised

open Supervisor Storage Pressure

/-- An activity on the machine as one of the supervisor. -/
def onMachine {α : Type} (a : OnMachine α) : Supervised α :=
  a.through fun r ↦ Activity.request (Request.machine r)

/-- An activity on the machine as the analysis of a dump. -/
def inService {α : Type} (a : OnMachine α) : Supervised α :=
  a.through fun r ↦ Activity.request (Request.service r)

def wallClock : Supervised Int := onMachine OnMachine.wallClock

def host : Supervised Host := Activity.request Request.host

def start (primary : Bool) (nowMs : Int) : Supervised Start :=
  Activity.request (Request.start primary nowMs)

def stop : Supervised Bool := Activity.request Request.stop

def background : Supervised Bool := Activity.request Request.background

def foreground (primary : Bool) (nowMs : Int) : Supervised Start :=
  Activity.request (Request.foreground primary nowMs)

def poll (nowMs : Int) : Supervised PollOutcome := Activity.request (Request.poll nowMs)

def claimLaunch : Supervised Bool := Activity.request Request.claimLaunch

def claimRecovery : Supervised Bool := Activity.request Request.claimRecovery

def generation : Supervised Nat := Activity.request Request.generation

def endGeneration : Supervised Unit := Activity.request Request.endGeneration

def sighting : Supervised Sighting := Activity.request Request.sighting

def dumpHeap (path : String) : Supervised (Except ProbeError Unit) :=
  Activity.request (Request.dumpHeap path)

def defer (job : Job) : Supervised Unit := Activity.request (Request.defer job)

def takeDeferred : Supervised (List Job) := Activity.request Request.takeDeferred

def countAnalysis : Supervised Ledger := Activity.request Request.countAnalysis

def spawn (task : Task) : Supervised Unit := Activity.request (Request.spawn task)

def publish (outcome : Outcome) : Supervised Unit := Activity.request (Request.publish outcome)

def announce (event : Event) : Supervised Unit := Activity.request (Request.announce event)

end Supervised

end HeapSentry
