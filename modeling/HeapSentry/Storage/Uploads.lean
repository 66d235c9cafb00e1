import HeapSentry.Machine

/-!
# Uploads

Reports and dumps are uploaded by copying them to a directory.  A copy that fails does no harm.
-/

namespace HeapSentry.Storage

/-- Whether a dump is what was captured or a reduced form of it. -/
inductive DumpKind where
  | stripped | origin
  deriving DecidableEq, Repr

def DumpKind.dirName : DumpKind → String
  | .stripped => "stripped"
  | .origin => "origin"

/-- A directory that takes uploads. -/
structure UploadDir where
  dir : String
  deriving DecidableEq, Repr

namespace UploadDir

def reportDir (u : UploadDir) : String := Path.join u.dir "reports"

def dumpDir (u : UploadDir) (kind : DumpKind) : String :=
  Path.join (Path.join u.dir "hprof") kind.dirName

/-- Copies a file to a directory, which is made if it is missing. -/
def copyInto (path dir : String) : OnMachine Unit := do
  match Path.fileName? path with
  | none => return
  | some name =>
    match ← OnMachine.makeDirs dir with
    | .error _ => return
    | .ok () =>
      let _ ← OnMachine.copy path (Path.join dir name)

def uploadReport (u : UploadDir) (path : String) : OnMachine Unit := copyInto path u.reportDir

def uploadDump (u : UploadDir) (kind : DumpKind) (path : String) : OnMachine Unit :=
  copyInto path (u.dumpDir kind)

end UploadDir

end HeapSentry.Storage
