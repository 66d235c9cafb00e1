import HeapSentry.Heap.DocumentFormat
import HeapSentry.Machine
import HeapSentry.Report.Assembly
import HeapSentry.Report.Format

/-!
# Analysing dumps

A dump is indexed, its objects are classified, the ways to the candidates are searched, and a
report is assembled.  The first stage that fails ends the analysis.
-/

namespace HeapSentry.Report

open Storage

inductive AnalysisError where
  | index (fault : Heap.Fault)
  | emptyDump (path : String)
  | classify (fault : Heap.Fault)
  | findPaths (fault : Heap.Fault)
  /-- A file could not be used. -/
  | file (path : String)
  | dump (reason : String)
  /-- The indexer broke down. -/
  | panicked (message : String)
  deriving DecidableEq, Repr

namespace AnalysisError

def message : AnalysisError → String
  | .index _ => "failed to index heap dump"
  | .emptyDump path => s!"heap dump {path} is empty"
  | .classify _ => "leak classification failed"
  | .findPaths _ => "gc path search failed"
  | .file path => s!"i/o error on {path}"
  | .dump reason => s!"heap dump failed: {reason}"
  | .panicked message => s!"analysis panicked: {message}"

/-- The fault of the heap behind an error. -/
def fault? : AnalysisError → Option Heap.Fault
  | .index fault | .classify fault | .findPaths fault => some fault
  | _ => none

end AnalysisError

/-- What makes graphs of dumps. -/
inductive Indexer where
  /-- Dumps are heap documents. -/
  | documents
  | fails (fault : Heap.Fault)
  | breaksDown (message : String)

def indexDocument (path : String) : OnMachine (Except Heap.Fault Heap.Graph) := do
  match ← OnMachine.readText path with
  | none => return .error (.unreadable path)
  | some text =>
    match Heap.Document.graphOfText path text with
    | .error fault => return .error fault
    | .ok g =>
      OnMachine.log s!"indexed heap document {path}: {g.size} objects"
      return .ok g

def Indexer.index (path : String) : Indexer → OnMachine (Except AnalysisError Heap.Graph)
  | .documents => do return (← indexDocument path).mapError .index
  | .fails fault => return .error (.index fault)
  | .breaksDown message => return .error (.panicked message)

/-- How dumps are analysed. -/
structure Analyst where
  indexer : Indexer := .documents
  limits : Settings.Analysis := {}
  matchers : List Leak.Matcher := Leak.Matcher.catalogue

namespace Analyst

/-- The report on a graph; the two times are measured. -/
def analyzeGraph (a : Analyst) (g : Heap.Graph) (info : RunningInfo) :
    OnMachine (Except AnalysisError Report) := do
  let begun ← OnMachine.stopwatch
  match Leak.classify g a.limits with
  | .error fault => return .error (.classify fault)
  | .ok classification =>
    let classified ← OnMachine.stopwatch
    match Leak.findPaths g classification.candidates a.matchers with
    | .error fault => return .error (.findPaths fault)
    | .ok findings =>
      let searched ← OnMachine.stopwatch
      let info := { info with
        filterInstanceTime := some (classified - begun)
        findGcPathTime := some (searched - classified) }
      return .ok (assemble info classification findings)

/-- The report on the dump in a file. -/
def analyze (a : Analyst) (hprof : String) (info : RunningInfo) :
    OnMachine (Except AnalysisError Report) := do
  match ← OnMachine.size hprof with
  | .error _ => return .error (.file hprof)
  | .ok 0 => return .error (.emptyDump hprof)
  | .ok _ =>
    match ← a.indexer.index hprof with
    | .error e => return .error e
    | .ok g => a.analyzeGraph g info

end Analyst

def save (r : Report) (path : String) : OnMachine (Except AnalysisError Unit) := do
  return (← OnMachine.write path r.text.toUTF8).mapError fun _ ↦ .file path

end HeapSentry.Report
