import HeapSentry.Pressure.TriggerLoop
import HeapSentry.Storage.Ledger

/-!
# Sessions

A session is a trigger loop with the ledger that limits it.  Whenever the loop starts, the launch is
recorded.
-/

namespace HeapSentry.Pressure

open Storage

structure Session where
  loop : TriggerLoop := {}
  ledger : Ledger := .empty

/-- What a session can see besides its own ledger. -/
structure Surroundings where
  nowMs : Int
  reading : Option Snapshot
  threadNames : List String
  fdTargets : List String
  hasSpace : Bool

/-- The view of a poll of some version. -/
def Surroundings.view (s : Surroundings) (ledger : Ledger) (version : String) : View :=
  ⟨s.nowMs, s.reading, s.threadNames, s.fdTargets, ledger.analysisCount version,
    ledger.firstLaunchMs version, s.hasSpace⟩

namespace Session

/-- Records a launch if the loop was started. -/
def launched (s : Session) (version : String) (nowMs : Int) (started : Bool × TriggerLoop) :
    Bool × Session :=
  let ledger := if started.1 then s.ledger.recordLaunch version nowMs else s.ledger
  (started.1, ⟨started.2, ledger⟩)

def start (s : Session) (version : String) (primary : Bool) (nowMs : Int) : Bool × Session :=
  s.launched version nowMs (s.loop.start primary)

def stop (s : Session) : Bool × Session := s.loop.stop.map id fun loop ↦ { s with loop }

def background (s : Session) : Bool × Session :=
  s.loop.background.map id fun loop ↦ { s with loop }

def foreground (s : Session) (version : String) (primary : Bool) (nowMs : Int) : Bool × Session :=
  s.launched version nowMs (s.loop.foreground primary)

def poll (s : Session) (settings : Settings) (around : Surroundings) : TriggerLoop.Poll :=
  s.loop.poll settings (around.view s.ledger settings.general.appVersion)

def increment (s : Session) (version : String) : Session :=
  { s with ledger := s.ledger.increment version }

end Session

end HeapSentry.Pressure
