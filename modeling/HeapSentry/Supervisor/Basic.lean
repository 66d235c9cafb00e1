import HeapSentry.Pressure.Probe
import HeapSentry.Pressure.Session
import HeapSentry.Report.Analysis
import HeapSentry.Storage.LedgerFile
import HeapSentry.Storage.Uploads

/-!
# The supervisor

The supervisor polls the watched process, has its heap dumped once, and has the dump analysed.
While the host is in the background the analysis is put off.
-/

namespace HeapSentry.Supervisor

open Pressure Report Storage

/-- The version of the supervisor itself. -/
def monitorVersion : String := "0.1.0"

/-- The reason given for analyses that are taken up again. -/
def reanalysisReason : String := "reanalysis"

structure Job where
  pair : DumpPair
  info : RunningInfo
  reAnalysisTimes : UInt32

/-- What came of the dump. -/
inductive Outcome where
  | finished (reportPath : String)
  | failed (message : String)
  | emptyDump
  deriving DecidableEq, Repr

/-- What is told to those who listen. -/
inductive Event where
  | reportUploaded (path : String) (report : Report)
  | dumpUploaded (kind : DumpKind) (path : String)
  | succeeded (path : String) (report : Report)
  | failed (error : AnalysisError)

/-- What the host knows about itself. -/
structure Host where
  /-- Only the primary process is supervised. -/
  primary : Bool := true
  foreground : Bool := true
  page : String := ""

/-- Why the supervisor could not be called. -/
inductive CallError where
  /-- There is nothing to run tasks on. -/
  | noRuntime
  deriving DecidableEq, Repr

def CallError.message : CallError → String
  | .noRuntime => "monitor must be started from inside a tokio runtime"

/-- What stays the same while the supervisor lives. -/
structure Setup where
  settings : Settings
  store : DumpStore
  analyst : Analyst
  /-- Where the ledger is kept, if it is kept on disk. -/
  ledgerPath : Option String := none
  /-- Where reports are uploaded to. -/
  uploads : Option UploadDir := none
  /-- Where dumps are uploaded to, if not to the same place. -/
  dumpUploads : Option UploadDir := uploads
  /-- When the supervisor was set up, by the stopwatch. -/
  since : Float := 0.0

def Setup.version (s : Setup) : String := s.settings.general.appVersion

/-- What runs besides the calls. -/
inductive Task where
  /-- Polls until the supervisor has moved on from a generation. -/
  | poll (generation : Nat)
  | handOff (reason : String)
  | reanalyze (pairs : List DumpPair)
  | flush (jobs : List Job)

def Task.isPoll : Task → Bool
  | .poll _ => true
  | _ => false

/-- What the supervisor remembers. -/
structure Memory where
  session : Session := {}
  /-- Whether the dump was handed off. -/
  launched : Bool := false
  /-- Whether what earlier runs left was sorted out. -/
  recovered : Bool := false
  /-- Analyses that wait for the foreground. -/
  deferred : List Job := []
  outcome : Option Outcome := none
  /-- Grows whenever polling has to end. -/
  generation : Nat := 0
  /-- Tasks that have not begun. -/
  tasks : List Task := []

/-- What the loop has seen last. -/
structure Sighting where
  last : Option Snapshot
  threadList : List String
  fdList : List String

def Memory.sighting (m : Memory) : Sighting :=
  ⟨m.session.loop.last, m.session.loop.threadList, m.session.loop.fdList⟩

end HeapSentry.Supervisor
