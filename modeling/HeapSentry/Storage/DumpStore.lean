import HeapSentry.Machine

/-!
# Dumps on disk

A storage root holds dumps with their reports, named after version and time, and dumps that were
taken by hand.  A report that is empty says that an analysis began and never ended.
-/

namespace HeapSentry.Storage

/-- An operation on a path failed. -/
structure PathFailure where
  path : String
  deriving DecidableEq, Repr

def PathFailure.message (f : PathFailure) : String := s!"i/o error on {f.path}"

/-- The answer of an operation on a path, with the path in case of failure. -/
def onPath {α : Type} (path : String) : Except FileError α → Except PathFailure α
  | .ok a => .ok a
  | .error _ => .error ⟨path⟩

/-- Removes a file if it can be removed. -/
def removeQuietly (path : String) : OnMachine Unit := do
  let _ ← OnMachine.remove path

/-- A dump and the report next to it. -/
structure DumpPair where
  hprof : String
  json : String
  deriving DecidableEq, Repr

namespace DumpPair

def ofHprof (hprof : String) : DumpPair := ⟨hprof, Path.withExtension hprof "json"⟩

/-- Leaves an empty report, so that an analysis that never ends is not begun again. -/
def markInProgress (p : DumpPair) : OnMachine (Except FileError Unit) :=
  OnMachine.write p.json .empty

def delete (p : DumpPair) : OnMachine Unit := do
  removeQuietly p.hprof
  removeQuietly p.json

end DumpPair

/-- What is left of earlier runs. -/
structure StaleScan where
  /-- Dumps of this version whose analysis never began. -/
  reanalyze : List DumpPair := []
  deleted : List String := []
  /-- Dumps that were taken by hand. -/
  manual : List String := []
  deriving DecidableEq, Repr

/-- A storage root. -/
structure DumpStore where
  root : String
  deriving DecidableEq, Repr

namespace DumpStore

def analysisDir (s : DumpStore) : String := Path.join s.root "analysis"

def manualDir (s : DumpStore) : String := Path.join s.root "manual"

def ledgerPath (s : DumpStore) : String := Path.join s.root "ledger.json"

/-- What the names of all dumps of a version start with. -/
def versionMark (version : String) : String := version ++ "_"

/-- The name of a dump; times before the epoch count as the epoch. -/
def dumpName (version : String) (nowMs : Int) : String :=
  let millis := nowMs.toNat
  s!"{versionMark version}{millis}.hprof"

/-- The place for a new dump. -/
def newPair (s : DumpStore) (version : String) (nowMs : Int) :
    OnMachine (Except PathFailure DumpPair) := do
  match ← OnMachine.makeDirs s.analysisDir with
  | .ok () => return .ok (.ofHprof (Path.join s.analysisDir (dumpName version nowMs)))
  | .error _ => return .error ⟨s.analysisDir⟩

/-- The files of a directory in order; a directory that is missing has none. -/
def listFiles (dir : String) : OnMachine (Except PathFailure (List String)) := do
  match ← OnMachine.list dir with
  | .ok names => return .ok (names.map (Path.join dir))
  | .error .notFound => return .ok []
  | .error _ => return .error ⟨dir⟩

/-- Sorts out one file: it is removed if it is of another version or of an analysis that began. -/
def sortOut (version : String) (scan : StaleScan) (path : String) : OnMachine StaleScan := do
  let name := (Path.fileName? path).getD ""
  if !name.startsWith (versionMark version) then
    removeQuietly path
    return { scan with deleted := scan.deleted ++ [path] }
  else if Path.extension? path ≠ some "hprof" then
    return scan
  else
    let pair := DumpPair.ofHprof path
    if ← OnMachine.exists? pair.json then
      pair.delete
      return { scan with deleted := scan.deleted ++ [pair.hprof, pair.json] }
    else
      return { scan with reanalyze := scan.reanalyze ++ [pair] }

/-- Sorts out files one after the other. -/
def sortOutAll (version : String) : StaleScan → List String → OnMachine StaleScan
  | scan, [] => pure scan
  | scan, path :: paths => do
    let scan ← sortOut version scan path
    sortOutAll version scan paths

/-- Sorts out what earlier runs left. -/
def scanStale (s : DumpStore) (version : String) : OnMachine (Except PathFailure StaleScan) := do
  match ← listFiles s.analysisDir with
  | .error e => return .error e
  | .ok paths =>
    let scan ← sortOutAll version {} paths
    match ← listFiles s.manualDir with
    | .error e => return .error e
    | .ok manual => return .ok { scan with manual }

end DumpStore

end HeapSentry.Storage
