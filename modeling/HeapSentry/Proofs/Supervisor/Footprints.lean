import HeapSentry.Proofs.Supervisor.Rules

/-!
# What activities ask for

Most of what the supervisor does is of no concern to others: it looks around, writes and removes a
few files that are known beforehand, and tells what it does.
-/

namespace HeapSentry

open Storage

namespace Machine.Request

/-- Whether a request neither lists nor removes a directory, leaves the log where it is and changes
nothing but some files and directories. -/
def Within (files : String → Prop) : Request → Prop
  | .entries _ | .removeDir _ | .logTo _ => False
  | .write path _ | .makeDirs path | .remove path | .copy _ path => files path
  | _ => True

/-- Whether a request only reads a file, looks at the clock or writes to the log. -/
def IsQuiet : Request → Prop
  | .read _ | .stopwatch | .log _ => True
  | _ => False

theorem Within.imp {files others : String → Prop} (h : ∀ path, files path → others path)
    {r : Request} (hr : r.Within files) : r.Within others := by
  cases r with
  | write path content => exact h path hr
  | makeDirs path => exact h path hr
  | copy source target => exact h target hr
  | remove path => exact h path hr
  | removeDir path => exact hr
  | entries dir => exact hr
  | logTo path => exact hr
  | _ => trivial

end Machine.Request

open Machine.Request (IsQuiet Within)

namespace Storage

/-- Whether a path is the one of the ledger or of the directory that it is in. -/
def LedgerFile.Owns (f : LedgerFile) (path : String) : Prop :=
  path = f.path ∨ Path.parent? f.path = some path

theorem LedgerFile.asks_makeRoom (f : LedgerFile) : f.makeRoom.Asks (Within f.Owns) := by
  rw [LedgerFile.makeRoom]
  cases hparent : Path.parent? f.path with
  | none => trivial
  | some parent => exact ⟨.inr hparent, fun _ ↦ trivial⟩

theorem LedgerFile.asks_save (f : LedgerFile) : f.save.Asks (Within f.Owns) := by
  rw [LedgerFile.save]
  refine Activity.asks_bind f.asks_makeRoom fun room ↦ ?_
  cases room with
  | error e => trivial
  | ok u => exact ⟨.inl rfl, fun _ ↦ trivial⟩

theorem DumpPair.asks_delete (p : DumpPair) :
    p.delete.Asks (Within fun path ↦ path = p.hprof ∨ path = p.json) :=
  ⟨.inl rfl, fun _ ↦ ⟨.inr rfl, fun _ ↦ trivial⟩⟩

/-- Whether files are copied to a path if they are put in a directory. -/
def Receives (dir target : String) : Prop :=
  target = dir ∨ ∃ source name, Path.fileName? source = some name ∧ target = Path.join dir name

/-- Whether a path is one that uploads are copied to. -/
def UploadDir.Takes (u : UploadDir) (target : String) : Prop :=
  Receives u.reportDir target ∨ ∃ kind, Receives (u.dumpDir kind) target

theorem DumpStore.asks_sortOut (version : String) (scan : StaleScan) (path : String) :
    (DumpStore.sortOut version scan path).Asks
      (Within fun file ↦ file = path ∨ file = (DumpPair.ofHprof path).json) := by
  rw [DumpStore.sortOut]
  split
  · exact ⟨.inl rfl, fun _ ↦ trivial⟩
  · split
    · trivial
    · refine Activity.asks_bind ⟨trivial, fun _ ↦ trivial⟩ fun found ↦ ?_
      cases found with
      | false => trivial
      | true => exact Activity.asks_bind (DumpPair.asks_delete _) fun _ ↦ trivial

theorem DumpStore.asks_sortOutAll (version : String) (scan : StaleScan) (paths : List String) :
    (DumpStore.sortOutAll version scan paths).Asks (Within fun file ↦
      ∃ path ∈ paths, file = path ∨ file = (DumpPair.ofHprof path).json) := by
  induction paths generalizing scan with
  | nil => trivial
  | cons path paths ih =>
      refine Activity.asks_bind ((asks_sortOut version scan path).imp fun _ ↦ ?_) fun next ↦ ?_
      · exact Machine.Request.Within.imp fun _ h ↦ ⟨path, List.mem_cons_self, h⟩
      · refine (ih next).imp fun _ ↦ Machine.Request.Within.imp ?_
        rintro file ⟨other, hother, h⟩
        exact ⟨other, List.mem_cons_of_mem _ hother, h⟩

theorem UploadDir.asks_copyInto (path dir : String) :
    (copyInto path dir).Asks (Within (Receives dir)) := by
  rw [copyInto]
  cases hname : Path.fileName? path with
  | none => trivial
  | some name =>
      refine ⟨.inl rfl, fun made ↦ ?_⟩
      cases made with
      | error e => trivial
      | ok u => exact ⟨.inr ⟨path, name, hname, rfl⟩, fun _ ↦ trivial⟩

theorem UploadDir.asks_uploadReport (u : UploadDir) (path : String) :
    (u.uploadReport path).Asks (Within u.Takes) :=
  (asks_copyInto path _).imp fun _ ↦ Within.imp fun _ h ↦ .inl h

theorem UploadDir.asks_uploadDump (u : UploadDir) (kind : DumpKind) (path : String) :
    (u.uploadDump kind path).Asks (Within u.Takes) :=
  (asks_copyInto path _).imp fun _ ↦ Within.imp fun _ h ↦ .inr ⟨kind, h⟩

theorem DumpStore.asks_newPair (s : DumpStore) (version : String) (nowMs : Int) :
    (s.newPair version nowMs).Asks (Within (· = s.analysisDir)) := by
  refine Activity.asks_bind (Activity.asks_request rfl) fun made ↦ ?_
  cases made with
  | error e => trivial
  | ok u => trivial

end Storage

namespace Report

theorem asks_save (r : Report) (path : String) : (r.save path).Asks (Within (· = path)) :=
  Activity.asks_bind (Activity.asks_request rfl) fun _ ↦ trivial

theorem asks_indexDocument (path : String) : (indexDocument path).Asks IsQuiet := by
  have hread : (OnMachine.readText path).Asks IsQuiet := by
    refine Activity.asks_bind (Activity.asks_request trivial) fun content ↦ ?_
    cases content with
    | error e => trivial
    | ok bytes => trivial
  have hlog (line : String) : (OnMachine.log line).Asks IsQuiet := Activity.asks_request trivial
  refine Activity.asks_bind hread fun text ↦ ?_
  split
  · trivial
  · split
    · trivial
    · exact Activity.asks_bind (hlog _) fun _ ↦ trivial

theorem asks_index (indexer : Indexer) (path : String) : (indexer.index path).Asks IsQuiet := by
  cases indexer with
  | documents => exact Activity.asks_bind (asks_indexDocument path) fun _ ↦ trivial
  | fails fault => trivial
  | breaksDown message => trivial

theorem asks_analyzeGraph (a : Analyst) (g : Heap.Graph) (info : RunningInfo) :
    (a.analyzeGraph g info).Asks IsQuiet := by
  have hclock : OnMachine.stopwatch.Asks IsQuiet := Activity.asks_request trivial
  refine Activity.asks_bind hclock fun begun ↦ ?_
  split
  · trivial
  · refine Activity.asks_bind hclock fun classified ↦ ?_
    split
    · trivial
    · exact Activity.asks_bind hclock fun searched ↦ trivial

/-- What an analysis does once it knows the size of the dump. -/
def Analyst.proceed (a : Analyst) (hprof : String) (info : RunningInfo) :
    Except FileError Nat → OnMachine (Except AnalysisError Report)
  | .error _ => return .error (.file hprof)
  | .ok 0 => return .error (.emptyDump hprof)
  | .ok _ => do
    match ← a.indexer.index hprof with
    | .error e => return .error e
    | .ok g => a.analyzeGraph g info

theorem Analyst.analyze_eq (a : Analyst) (hprof : String) (info : RunningInfo) :
    a.analyze hprof info = OnMachine.size hprof >>= a.proceed hprof info := by
  rw [Analyst.analyze]
  congr 1

theorem Analyst.asks_proceed (a : Analyst) (hprof : String) (info : RunningInfo)
    (size : Except FileError Nat) : (a.proceed hprof info size).Asks IsQuiet := by
  cases size with
  | error e => trivial
  | ok n =>
      cases n with
      | zero => trivial
      | succ n =>
          refine Activity.asks_bind (asks_index a.indexer hprof) fun indexed ↦ ?_
          cases indexed with
          | error e => trivial
          | ok g => exact asks_analyzeGraph a g info

end Report

namespace Supervisor

open Report Supervised

/-- Whether a request looks around, tells something or changes some files. -/
def Request.Within (files : String → Prop) : Request → Prop
  | .machine r => r.Within files
  | .host | .sighting | .announce _ => True
  | _ => False

variable {α : Type} {files : String → Prop}

theorem asks_onMachine {a : OnMachine α} (h : a.Asks (Machine.Request.Within files)) :
    (onMachine a).Asks (Request.Within files) := by
  have hembed (r : Machine.Request) (hr : r.Within files) :
      (Activity.request (Request.machine r) : Supervised _).Asks (Request.Within files) :=
    Activity.asks_request hr
  exact Activity.asks_through hembed h

/-- Whether a request is a quiet one of an analysis. -/
def Request.IsQuiet : Request → Prop
  | .service r => r.IsQuiet
  | _ => False

theorem asks_inService {a : OnMachine α} (h : a.Asks Machine.Request.IsQuiet) :
    (inService a).Asks Request.IsQuiet := by
  have hembed (r : Machine.Request) (hr : r.IsQuiet) :
      (Activity.request (Request.service r) : Supervised _).Asks Request.IsQuiet :=
    Activity.asks_request hr
  exact Activity.asks_through hembed h

/-- The paths that are written for the ledger. -/
def Setup.KeepsLedgerAt (setup : Setup) (path : String) : Prop :=
  ∃ file ∈ setup.ledgerPath, path = file ∨ Path.parent? file = some path

/-- The paths that uploads are copied to. -/
def Setup.UploadsTo (setup : Setup) (path : String) : Prop :=
  ∃ u, (u ∈ setup.uploads ∨ u ∈ setup.dumpUploads) ∧ u.Takes path

theorem asks_saveLedger (setup : Setup) (ledger : Ledger) :
    (saveLedger setup ledger).Asks (Request.Within setup.KeepsLedgerAt) := by
  rw [saveLedger]
  cases hpath : setup.ledgerPath with
  | none => trivial
  | some path =>
      have hsave : (LedgerFile.save ⟨path, ledger⟩).Asks
          (Machine.Request.Within setup.KeepsLedgerAt) := by
        refine (LedgerFile.asks_save _).imp fun _ ↦ Machine.Request.Within.imp ?_
        exact fun file hfile ↦ ⟨path, hpath, hfile⟩
      refine Activity.asks_bind (asks_onMachine hsave) fun saved ↦ ?_
      cases saved with
      | error e => exact Activity.asks_request trivial
      | ok u => trivial

theorem asks_saveChanged (setup : Setup) (changed : Option Ledger) :
    (saveChanged setup changed).Asks (Request.Within setup.KeepsLedgerAt) := by
  cases changed with
  | none => trivial
  | some ledger => exact asks_saveLedger setup ledger

theorem asks_circumstances (setup : Setup) (reason : String) (files : String → Prop) :
    (circumstances setup reason).Asks (Request.Within files) :=
  ⟨trivial, fun _ ↦ ⟨trivial, fun _ ↦ ⟨trivial, fun _ ↦ ⟨trivial, fun _ ↦ ⟨trivial,
    fun _ ↦ trivial⟩⟩⟩⟩⟩

theorem asks_announce (event : Event) (files : String → Prop) :
    (announce event).Asks (Request.Within files) :=
  Activity.asks_request trivial

theorem asks_fail (pair : Option DumpPair) (e : AnalysisError) :
    (fail pair e).Asks (Request.Within fun path ↦ ∃ p ∈ pair, path = p.hprof ∨ path = p.json) := by
  have htell (outcome : Outcome) :
      (announce (.failed e) >>= fun _ ↦ (pure outcome : Supervised Outcome)).Asks
        (Request.Within fun path ↦ ∃ p ∈ pair, path = p.hprof ∨ path = p.json) :=
    Activity.asks_bind (asks_announce _ _) fun _ ↦ trivial
  cases pair with
  | none => exact htell _
  | some pair =>
      have hdelete : pair.delete.Asks (Machine.Request.Within fun path ↦
          ∃ p ∈ some pair, path = p.hprof ∨ path = p.json) :=
        pair.asks_delete.imp fun _ ↦ Machine.Request.Within.imp fun _ h ↦ ⟨pair, rfl, h⟩
      exact Activity.asks_bind (asks_onMachine hdelete) fun _ ↦ htell _

theorem asks_upload {u : UploadDir} {setup : Setup} (hu : u ∈ setup.uploads ∨ u ∈ setup.dumpUploads)
    {a : OnMachine Unit} (h : a.Asks (Machine.Request.Within u.Takes)) :
    (onMachine a).Asks (Request.Within setup.UploadsTo) :=
  Supervisor.asks_onMachine (h.imp fun _ ↦ Machine.Request.Within.imp fun _ hr ↦ ⟨u, hu, hr⟩)

theorem asks_uploadReport (setup : Setup) (path : String) (r : Report) :
    (uploadReport setup path r).Asks (Request.Within setup.UploadsTo) := by
  rw [uploadReport]
  cases hu : setup.uploads with
  | none => trivial
  | some u =>
      refine Activity.asks_bind (asks_announce _ _) fun _ ↦ ?_
      exact asks_upload (.inl hu) (u.asks_uploadReport path)

theorem asks_uploadDump (setup : Setup) (kind : DumpKind) (path : String) :
    (uploadDump setup kind path).Asks (Request.Within setup.UploadsTo) := by
  rw [uploadDump]
  cases hu : setup.dumpUploads with
  | none => trivial
  | some u =>
      refine Activity.asks_bind (asks_announce _ _) fun _ ↦ ?_
      exact asks_upload (.inr hu) (u.asks_uploadDump kind path)

theorem asks_deliver (setup : Setup) (pair : DumpPair) (r : Report) :
    (deliver setup pair r).Asks (Request.Within setup.UploadsTo) := by
  refine Activity.asks_bind (asks_uploadReport setup _ _) fun _ ↦ ?_
  refine Activity.asks_bind (asks_uploadDump setup _ _) fun _ ↦ ?_
  exact Activity.asks_bind (asks_announce _ _) fun _ ↦ trivial

theorem asks_uploadManual (setup : Setup) (paths : List String) :
    (uploadManual setup paths).Asks (Request.Within setup.UploadsTo) := by
  induction paths with
  | nil => trivial
  | cons path paths ih => exact Activity.asks_bind (asks_uploadDump setup _ path) fun _ ↦ ih

end Supervisor

end HeapSentry
