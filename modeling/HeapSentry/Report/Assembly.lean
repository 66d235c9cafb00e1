import HeapSentry.Leak.Classification
import HeapSentry.Leak.Findings
import HeapSentry.Report.Basic

/-!
# Assembling reports

Application leaks come before the library leak.
-/

namespace HeapSentry.Report

open Leak

def PathItem.ofHop (h : Hop) : PathItem := ⟨h.display, h.kind.name, h.declaringClass⟩

/-- The last step of a path. -/
def PathItem.ofLeaking (l : Leaking) : PathItem := ⟨l.className, l.kindName, none⟩

def GcPath.ofGroup (g : Group) : GcPath where
  instanceCount := UInt64.ofNat g.objects.length
  leakReason := g.trace.leaking.reason
  gcRoot := g.trace.root.description
  signature := g.signature
  path := g.trace.path.map PathItem.ofHop ++ [.ofLeaking g.trace.leaking]

def ClassInfo.ofTally (t : Tally) : ClassInfo :=
  ⟨t.className, UInt64.ofNat t.instances, UInt64.ofNat t.leaks⟩

def LeakObject.ofBigObject (o : BigObject) : LeakObject :=
  ⟨o.className, o.size, Heap.ObjectId.untagged o.objectId, o.detail⟩

def assemble (info : RunningInfo) (c : Classification) (f : Findings) : Report where
  runningInfo := info
  gcPaths := (f.application ++ f.library).map GcPath.ofGroup
  classInfos := c.tallies.map ClassInfo.ofTally
  leakObjects := c.bigObjects.map LeakObject.ofBigObject
  analysisDone := true
  reAnalysisTimes := 0

end HeapSentry.Report
