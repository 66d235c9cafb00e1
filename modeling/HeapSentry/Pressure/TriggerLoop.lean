import HeapSentry.Pressure.Tracker

/-!
# The trigger loop

The loop polls the watched process while it is running.  Once it has decided to dump the heap it
never runs again.
-/

namespace HeapSentry.Pressure

inductive Phase where
  | stopped | running
  /-- A dump was decided. -/
  | terminated
  deriving DecidableEq, Repr

/-- The reasons of one poll, in the order of the trackers. -/
structure Decision where
  reasons : List Reason
  deriving DecidableEq, Repr

def Decision.joined (d : Decision) : String := ", ".intercalate (d.reasons.map Reason.label)

inductive PollOutcome where
  | idle
  | disabled (d : Decision)
  | rateLimited (d : Decision)
  | insufficientSpace (d : Decision)
  | triggered (d : Decision)
  | probeFailed
  | stopped
  | terminated
  deriving DecidableEq, Repr

namespace PollOutcome

def continues : PollOutcome → Bool
  | .triggered _ | .stopped | .terminated => false
  | _ => true

def decision? : PollOutcome → Option Decision
  | .disabled d | .rateLimited d | .insufficientSpace d | .triggered d => some d
  | _ => none

/-- Whether free space was asked for. -/
def askedSpace : PollOutcome → Bool
  | .insufficientSpace _ | .triggered _ => true
  | _ => false

end PollOutcome

/-- What a poll may look at. -/
structure View where
  /-- Milliseconds since the epoch. -/
  nowMs : Int
  reading : Option Snapshot
  threadNames : List String
  fdTargets : List String
  /-- How often the version was analysed. -/
  analysisCount : Nat
  /-- When the version was first launched. -/
  firstLaunchMs : Option Nat
  /-- Whether there is space for a dump. -/
  hasSpace : Bool

structure TriggerLoop where
  phase : Phase := .stopped
  trackers : List Tracker := Tracker.fresh
  last : Option Snapshot := none
  hasDumped : Bool := false
  /-- Whether the loop was running when the host went to the background. -/
  resumeOnForeground : Bool := false
  threadList : List String := []
  fdList : List String := []

namespace TriggerLoop

/-- Starts the loop; answers whether it now runs. -/
def start (l : TriggerLoop) (primary : Bool) : Bool × TriggerLoop :=
  if primary && l.phase == .stopped then (true, { l with phase := .running }) else (false, l)

/-- Stops the loop; answers whether it ran. -/
def stop (l : TriggerLoop) : Bool × TriggerLoop :=
  if l.phase == .running then (true, { l with phase := .stopped }) else (false, l)

/-- Stops the loop and remembers whether to take it up again. -/
def background (l : TriggerLoop) : Bool × TriggerLoop :=
  stop { l with resumeOnForeground := l.phase == .running }

def foreground (l : TriggerLoop) (primary : Bool) : Bool × TriggerLoop :=
  if !l.resumeOnForeground || l.hasDumped then (false, l)
  else start { l with resumeOnForeground := false } primary

/-- Whether the version may not be analysed again: often enough, or too late. -/
def rateLimited (settings : Settings) (v : View) : Bool :=
  !settings.general.debug
    && (settings.limits.analysisMaxTimesPerVersion ≤ v.analysisCount
      || v.firstLaunchMs.any fun first ↦
        v.nowMs - first > (settings.limits.analysisPeriodSeconds * 1000 : Nat))

/-- What comes of the reasons of a poll. -/
def judge (settings : Settings) (v : View) (d : Decision) : PollOutcome :=
  if d.reasons.isEmpty then .idle
  else if !settings.monitor.enableDumpAnalysis then .disabled d
  else if rateLimited settings v then .rateLimited d
  else if !v.hasSpace then .insufficientSpace d
  else .triggered d

def list (v : View) (l : TriggerLoop) : Capture → TriggerLoop
  | .nothing => l
  | .threadNames => { l with threadList := v.threadNames }
  | .fdTargets => { l with fdList := v.fdTargets }

/-- Shows a snapshot to all trackers. -/
def sweep (m : Settings.Monitor) (previous : Option Snapshot) (current : Snapshot)
    (trackers : List Tracker) : List (Verdict × Tracker) :=
  trackers.map (Tracker.track m previous current)

/-- What the trackers that are counting want listed. -/
def capturesOf (swept : List (Verdict × Tracker)) : List Capture :=
  swept.filterMap fun (verdict, t) ↦ if verdict = .counting then some t.capture else none

structure Poll where
  outcome : PollOutcome
  captures : List Capture := []
  next : TriggerLoop

/-- Looks at a snapshot while running. -/
def observe (settings : Settings) (v : View) (current : Snapshot) (l : TriggerLoop) : Poll :=
  let swept := sweep settings.monitor l.last current l.trackers
  let captures := capturesOf swept
  let outcome := judge settings v ⟨swept.filterMap fun (verdict, _) ↦ verdict.reason?⟩
  let seen := captures.foldl (list v)
    { l with trackers := swept.map Prod.snd, last := some current }
  let next := match outcome with
    | .triggered _ => { seen with phase := .terminated, hasDumped := true }
    | _ => seen
  { outcome, captures, next }

/-- Looks at the watched process once. -/
def poll (settings : Settings) (v : View) (l : TriggerLoop) : Poll :=
  match l.phase, v.reading with
  | .stopped, _ => { outcome := .stopped, next := l }
  | .terminated, _ => { outcome := .terminated, next := l }
  | .running, none => { outcome := .probeFailed, next := l }
  | .running, some current => observe settings v current l

end TriggerLoop

end HeapSentry.Pressure
