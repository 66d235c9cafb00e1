/-!
# Settings

What can be configured, with its defaults.
-/

namespace HeapSentry

def mebibyte : Nat := 1024 * 1024

namespace Settings

structure General where
  /-- Counters and file names are kept apart by version. -/
  appVersion : String := "0.1.0"
  /-- Lifts the limits on how often a version is analysed. -/
  debug : Bool := false

structure Monitor where
  loopIntervalMs : Nat := 15000
  initialDelayMs : Nat := 0
  /-- The share of the heap that may be in use; by default it depends on the size of the heap. -/
  heapThreshold : Option Float32 := none
  fdThreshold : Nat := 1000
  threadThreshold : Nat := 750
  /-- The share of the device memory that should be available. -/
  deviceMemoryThreshold : Float32 := 0.05
  /-- How often in a row a sample has to be over its threshold. -/
  maxOverThresholdCount : Nat := 3
  forceDumpHeapMaxThreshold : Float32 := 0.90
  forceDumpHeapDeltaThresholdKb : Nat := 350000
  heapGrowthRateThresholdKbPerSec : Nat := 350000 / 15
  enableDumpAnalysis : Bool := true

structure Limits where
  analysisMaxTimesPerVersion : Nat := 5
  analysisPeriodDays : Nat := 15

structure Analysis where
  bigBitmapPixels : Nat := 768 * 1366 + 1
  bigPrimitiveArrayBytes : Nat := 256 * 1024
  bigObjectArrayBytes : Nat := 256 * 1024

structure Storage where
  rootDir : Option String := none
  minFreeBytes : Nat := 1258291

structure Dump where
  /-- The command that writes a dump, with placeholders for the process and the file. -/
  command : List String := []
  /-- The size of the heap where it is measured by the resident memory of the process. -/
  heapLimitBytes : Option Nat := none

/-- Smaller heaps may be fuller. -/
def defaultHeapThreshold (heapMaxBytes : Nat) : Float32 :=
  let megabytes := heapMaxBytes / mebibyte
  if megabytes ≥ 512 - 10 then 0.8
  else if megabytes ≥ 256 - 10 then 0.85
  else 0.9

/-- The share of a heap of some size that may be in use. -/
def Monitor.heapThresholdFor (m : Monitor) (heapMaxBytes : Nat) : Float32 :=
  m.heapThreshold.getD (defaultHeapThreshold heapMaxBytes)

def Limits.analysisPeriodSeconds (l : Limits) : Nat := l.analysisPeriodDays * (24 * 60 * 60)

end Settings

structure Settings where
  general : Settings.General := {}
  monitor : Settings.Monitor := {}
  limits : Settings.Limits := {}
  analysis : Settings.Analysis := {}
  storage : Settings.Storage := {}
  dump : Settings.Dump := {}

end HeapSentry
