import HeapSentry.Heap.Object

/-!
# Reports

A report tells under what circumstances a heap was dumped and what was found in it.
-/

namespace HeapSentry.Report

/-- The circumstances of a dump. -/
structure RunningInfo where
  jvmMaxMb : UInt64 := 0
  jvmUsedMb : UInt64 := 0
  vssMb : UInt64 := 0
  rssMb : UInt64 := 0
  threadCount : UInt32 := 0
  fdCount : UInt32 := 0
  threadList : List String := []
  fdList : List String := []
  os : String := ""
  osVersion : String := ""
  arch : String := ""
  appVersion : String := ""
  currentPage : String := ""
  usageSeconds : UInt64 := 0
  /-- Seconds since the epoch. -/
  nowTime : UInt64 := 0
  deviceMemTotalMb : UInt64 := 0
  deviceMemAvailableMb : UInt64 := 0
  dumpReason : String := ""
  monitorVersion : String := ""
  /-- Seconds spent on classification. -/
  filterInstanceTime : Option Float := none
  /-- Seconds spent on the search for paths. -/
  findGcPathTime : Option Float := none

/-- One step of a path. -/
structure PathItem where
  reference : String
  referenceType : String
  declaredClass : Option String
  deriving DecidableEq, Repr

/-- A group of leaks with a path to its first object. -/
structure GcPath where
  instanceCount : UInt64
  leakReason : String
  gcRoot : String
  signature : String
  path : List PathItem
  deriving DecidableEq, Repr

structure ClassInfo where
  className : String
  instanceCount : UInt64
  leakInstanceCount : UInt64
  deriving DecidableEq, Repr

structure LeakObject where
  className : String
  size : UInt64
  objectId : UInt64
  extDetail : Option String
  deriving DecidableEq, Repr

end HeapSentry.Report

namespace HeapSentry

structure Report where
  runningInfo : Report.RunningInfo := {}
  gcPaths : List Report.GcPath := []
  classInfos : List Report.ClassInfo := []
  leakObjects : List Report.LeakObject := []
  analysisDone : Bool := false
  /-- How often the analysis was taken up again after a crash. -/
  reAnalysisTimes : UInt32 := 0

end HeapSentry
