import HeapSentry.Leak.Trace

/-!
# Findings

Candidates that can be reached are grouped by the signature of their traces, apart for application
and library leaks.  Of the library leaks only the first group is kept.
-/

namespace HeapSentry.Leak

open Heap

/-- A candidate that was reached. -/
structure Member where
  trace : Trace
  /-- What describes the library that the trace leads through. -/
  library : Option String
  deriving DecidableEq, Repr

/-- Candidates of one signature, with the trace of the first. -/
structure Group where
  signature : String
  trace : Trace
  objects : List ObjectId
  library : Option String
  deriving DecidableEq, Repr

structure Findings where
  application : List Group := []
  library : List Group := []
  unreachable : List ObjectId := []
  deriving DecidableEq, Repr

def Group.insert (signature : String) (m : Member) : List Group → List Group
  | [] => [⟨signature, m.trace, [m.trace.leaking.object], m.library⟩]
  | group :: groups =>
    if group.signature = signature then
      { group with objects := group.objects ++ [m.trace.leaking.object] } :: groups
    else group :: Group.insert signature m groups

/-- Groups members in order of discovery. -/
def Group.ofMembers (members : List Member) : List Group :=
  members.foldl (fun groups m ↦ Group.insert m.trace.signature m groups) []

/-- The search for the objects of some candidates. -/
def searchFor (g : Graph) (candidates : List Candidate) (matchers : List Matcher) : Search :=
  Search.ofGraph g matchers (.ofList (candidates.map Candidate.object))

/-- The member for a discovered object, told by the first candidate with it. -/
def Member.ofSearch (g : Graph) (s : Search) (candidates : List Candidate) (id : ObjectId) :
    Except Fault Member :=
  match candidates.find? (·.object == id) with
  | none => .error (.unknownObject id)
  | some c => do
    let trace ← Trace.ofSearch g s c
    .ok ⟨trace, s.visits[id]?.bind Visit.library⟩

def sortCandidates (g : Graph) (candidates : List Candidate) (matchers : List Matcher) :
    Except Fault Findings := do
  let s := searchFor g candidates matchers
  let members ← s.found.toList.mapM (Member.ofSearch g s candidates)
  .ok {
    application := Group.ofMembers (members.filter (·.library.isNone))
    library := Group.ofMembers (members.filter (·.library.isSome))
    unreachable := (candidates.map Candidate.object).filter (!s.found.contains ·) }

/-- Keeps at most one group of library leaks. -/
def Findings.truncate (f : Findings) : Findings := { f with library := f.library.take 1 }

/-- Sorts candidates by how they are reached, keeping the first group of library leaks. -/
def findPaths (g : Graph) (candidates : List Candidate) (matchers : List Matcher) :
    Except Fault Findings := do
  let all ← sortCandidates g candidates matchers
  .ok all.truncate

end HeapSentry.Leak
