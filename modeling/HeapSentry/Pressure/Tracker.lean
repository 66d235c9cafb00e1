import HeapSentry.Pressure.Snapshot
import HeapSentry.Pressure.Streak
import HeapSentry.Settings.Basic

/-!
# Trackers

Each tracker watches one indicator.  Most of them ask for several samples in a row before they give
a reason to dump the heap.
-/

namespace HeapSentry.Pressure

inductive Reason where
  | heapOom | highWatermark | hugeDelta | threadOom | fdOom | lowDeviceMemory | heapVelocity
  deriving DecidableEq, Repr

def Reason.label : Reason → String
  | .heapOom => "reason_heap_oom"
  | .highWatermark => "reason_fast_huge_high_watermark"
  | .hugeDelta => "reason_fast_huge_delta"
  | .threadOom => "reason_thread_oom"
  | .fdOom => "reason_fd_oom"
  | .lowDeviceMemory => "reason_lmk_oom"
  | .heapVelocity => "reason_heap_velocity"

inductive Verdict where
  | quiet
  /-- Over the limit, but not for long enough. -/
  | counting
  | triggered (reason : Reason)
  deriving DecidableEq, Repr

namespace Verdict

def reason? : Verdict → Option Reason
  | .triggered reason => some reason
  | _ => none

def isOver : Verdict → Bool
  | .quiet => false
  | _ => true

end Verdict

/-- What is listed while a tracker is over its limit. -/
inductive Capture where
  | nothing | threadNames | fdTargets
  deriving DecidableEq, Repr

/-- How far a count may fall between two samples of a streak. -/
def countGap : Nat := 50

/-- How far the share of the heap in use may fall between two samples of a streak. -/
def heapRateGap : Float := 0.05

/-- The verdict on a sample once it is recorded. -/
def verdictOf {α : Type} (s : Streak α) (pressing : Bool) (limit : Nat) (reason : Reason) :
    Verdict :=
  if !pressing then .quiet else if limit ≤ s.count then .triggered reason else .counting

/-- Records a sample and judges it. -/
def debounce {α : Type} (s : Streak α) (pressing : Bool) (sample : α) (limit : Nat)
    (reason : Reason) : Verdict × Streak α :=
  let s := s.record pressing sample
  (verdictOf s pressing limit reason, s)

/-! ## The indicators -/

/-- A heap that is nearly full or grew much is a reason at once; one that stays fuller than it
should is a reason after a while. -/
def trackHeap (m : Settings.Monitor) (previous : Option Snapshot) (current : Snapshot)
    (s : Streak Float) : Verdict × Streak Float :=
  let rate := current.heap.rate.toFloat
  let grown := match previous with
    | none => 0
    | some p => current.heap.used - p.heap.used
  if rate > m.forceDumpHeapMaxThreshold.toFloat then
    (.triggered .highWatermark, s.extend rate)
  else if grown > m.forceDumpHeapDeltaThresholdKb * 1024 then
    (.triggered .hugeDelta, s.extend rate)
  else
    let threshold := (m.heapThresholdFor current.heap.max).toFloat
    let pressing := rate > threshold && rate ≥ s.last - heapRateGap
    debounce s pressing rate m.maxOverThresholdCount .heapOom

/-- Whether a count is over its limit and has not fallen far. -/
def countOver (limit : Nat) (s : Streak Nat) (sample : Nat) : Bool :=
  limit < sample && s.last ≤ sample + countGap

def trackThreads (m : Settings.Monitor) (current : Snapshot) (s : Streak Nat) :
    Verdict × Streak Nat :=
  debounce s (countOver m.threadThreshold s current.threads) current.threads
    m.maxOverThresholdCount .threadOom

def trackFds (m : Settings.Monitor) (current : Snapshot) (s : Streak Nat) : Verdict × Streak Nat :=
  debounce s (countOver m.fdThreshold s current.fds) current.fds m.maxOverThresholdCount .fdOom

def trackDevice (m : Settings.Monitor) (current : Snapshot) (s : Streak Float) :
    Verdict × Streak Float :=
  let rate := current.device.rate
  debounce s (rate < m.deviceMemoryThreshold) rate.toFloat m.maxOverThresholdCount .lowDeviceMemory

/-- The growth of the heap between two snapshots in kibibytes a second, if time has passed. -/
def growthRate? (previous current : Snapshot) : Option Float :=
  match current.secondsSince? previous with
  | none => none
  | some elapsed =>
    if elapsed ≤ 0.0 then none
    else
      let grown := UInt64.ofNat (current.heap.used - previous.heap.used)
      some (grown.toFloat / 1024.0 / elapsed)

/-- Fast growth is a reason at once. -/
def trackVelocity (m : Settings.Monitor) (previous : Option Snapshot) (current : Snapshot) :
    Verdict × Float :=
  match previous.bind (growthRate? · current) with
  | none => (.quiet, 0.0)
  | some rate =>
    let limit := (UInt64.ofNat m.heapGrowthRateThresholdKbPerSec).toFloat
    (if rate > limit then .triggered .heapVelocity else .quiet, rate)

/-! ## All trackers -/

/-- A tracker with what it remembers. -/
inductive Tracker where
  | heap (s : Streak Float)
  | thread (s : Streak Nat)
  | fd (s : Streak Nat)
  | physicalMemory (s : Streak Float)
  | heapVelocity (rate : Float)

namespace Tracker

/-- All trackers in the order in which they report. -/
def fresh : List Tracker :=
  [.heap ⟨0, 0.0⟩, .thread ⟨0, 0⟩, .fd ⟨0, 0⟩, .physicalMemory ⟨0, 0.0⟩, .heapVelocity 0.0]

def name : Tracker → String
  | .heap _ => "heap"
  | .thread _ => "thread"
  | .fd _ => "fd"
  | .physicalMemory _ => "physical_memory"
  | .heapVelocity _ => "heap_velocity"

def capture : Tracker → Capture
  | .thread _ => .threadNames
  | .fd _ => .fdTargets
  | _ => .nothing

def reset : Tracker → Tracker
  | .heap _ => .heap ⟨0, 0.0⟩
  | .thread _ => .thread ⟨0, 0⟩
  | .fd _ => .fd ⟨0, 0⟩
  | .physicalMemory _ => .physicalMemory ⟨0, 0.0⟩
  | .heapVelocity _ => .heapVelocity 0.0

def count : Tracker → Nat
  | .heap s | .physicalMemory s => s.count
  | .thread s | .fd s => s.count
  | .heapVelocity _ => 0

def last : Tracker → Float
  | .heap s | .physicalMemory s => s.last
  | .thread s | .fd s => (UInt64.ofNat s.last).toFloat
  | .heapVelocity rate => rate

/-- Looks at a snapshot and the one before it. -/
def track (m : Settings.Monitor) (previous : Option Snapshot) (current : Snapshot) :
    Tracker → Verdict × Tracker
  | .heap s => (trackHeap m previous current s).map id .heap
  | .thread s => (trackThreads m current s).map id .thread
  | .fd s => (trackFds m current s).map id .fd
  | .physicalMemory s => (trackDevice m current s).map id .physicalMemory
  | .heapVelocity _ => (trackVelocity m previous current).map id .heapVelocity

end Tracker

end HeapSentry.Pressure
