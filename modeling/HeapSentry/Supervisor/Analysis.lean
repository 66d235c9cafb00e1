import HeapSentry.Supervisor.Request

/-!
# Handing off and analysing

A dump is handed off once.  Each analysis leaves a marker before it begins, so that it is not begun
again if it never ends; one that fails removes the dump together with its report.
-/

namespace HeapSentry.Supervisor

open Pressure Report Storage Supervised

def saveLedger (setup : Setup) (ledger : Ledger) : Supervised Unit := do
  match setup.ledgerPath with
  | none => return
  | some path =>
    match ← onMachine (LedgerFile.save ⟨path, ledger⟩) with
    | .ok () => return
    | .error e => onMachine (OnMachine.log s!"failed to save the ledger: {e.message}")

/-- What a snapshot tells about the circumstances. -/
def describe (s : Snapshot) (info : RunningInfo) : RunningInfo :=
  { info with
    jvmMaxMb := UInt64.ofNat (s.heap.max / mebibyte)
    jvmUsedMb := UInt64.ofNat (s.heap.used / mebibyte)
    vssMb := UInt64.ofNat (s.vssKb / 1024)
    rssMb := UInt64.ofNat (s.rssKb / 1024)
    threadCount := UInt32.ofNat s.threads
    fdCount := UInt32.ofNat s.fds
    deviceMemTotalMb := UInt64.ofNat (s.device.totalKb / 1024)
    deviceMemAvailableMb := UInt64.ofNat (s.device.availableKb / 1024) }

/-- The circumstances as they are now. -/
def circumstances (setup : Setup) (reason : String) : Supervised RunningInfo := do
  let seen ← sighting
  let platform ← onMachine OnMachine.platform
  let host ← host
  let moment ← onMachine OnMachine.stopwatch
  let now ← wallClock
  let info : RunningInfo := {
    threadList := seen.threadList
    fdList := seen.fdList
    os := platform.os
    osVersion := platform.osVersion
    arch := platform.arch
    appVersion := setup.version
    currentPage := host.page
    usageSeconds := (moment - setup.since).toUInt64
    nowTime := UInt64.ofNat (now.toNat / 1000)
    dumpReason := reason
    monitorVersion }
  return match seen.last with
    | none => info
    | some s => describe s info

/-- Gives up an analysis: its files go, and the listeners are told. -/
def fail (pair : Option DumpPair) (e : AnalysisError) : Supervised Outcome := do
  match pair with
  | none => pure ()
  | some pair => onMachine pair.delete
  announce (.failed e)
  return .failed e.message

def uploadReport (setup : Setup) (path : String) (report : Report) : Supervised Unit := do
  match setup.uploads with
  | none => return
  | some u =>
    announce (.reportUploaded path report)
    onMachine (u.uploadReport path)

def uploadDump (setup : Setup) (kind : DumpKind) (path : String) : Supervised Unit := do
  match setup.dumpUploads with
  | none => return
  | some u =>
    announce (.dumpUploaded kind path)
    onMachine (u.uploadDump kind path)

/-- Uploads a report and its dump, and tells the listeners. -/
def deliver (setup : Setup) (pair : DumpPair) (report : Report) : Supervised Outcome := do
  uploadReport setup pair.json report
  uploadDump setup .origin pair.hprof
  announce (.succeeded pair.json report)
  return .finished pair.json

/-- The report of a job, written next to the dump. -/
def report (setup : Setup) (job : Job) : Supervised (Except AnalysisError Report) := do
  match ← inService (setup.analyst.analyze job.pair.hprof job.info) with
  | .error e => return .error e
  | .ok r =>
    let r := { r with reAnalysisTimes := job.reAnalysisTimes }
    return (← onMachine (r.save job.pair.json)).map fun () ↦ r

def analyze (setup : Setup) (job : Job) : Supervised Outcome := do
  match ← onMachine job.pair.markInProgress with
  | .error _ => fail job.pair (.file job.pair.json)
  | .ok () =>
    let ledger ← countAnalysis
    saveLedger setup ledger
    match ← report setup job with
    | .ok r => deliver setup job.pair r
    | .error e => fail job.pair e

/-- What becomes of a dump that was taken: nothing if it is empty, and its analysis now or later. -/
def take (setup : Setup) (pair : DumpPair) (info : RunningInfo) : Supervised (Option Outcome) := do
  let size := match ← onMachine (OnMachine.size pair.hprof) with
    | .ok n => n
    | .error _ => 0
  if size = 0 then
    onMachine pair.delete
    return some .emptyDump
  else
    let job : Job := ⟨pair, info, 0⟩
    if (← host).foreground then
      return some (← analyze setup job)
    else
      defer job
      return none

/-- Dumps the heap and analyses it.  There is no outcome yet if the analysis is put off. -/
def handOff (setup : Setup) (reason : String) : Supervised (Option Outcome) := do
  let info ← circumstances setup reason
  match ← onMachine (setup.store.newPair setup.version (← wallClock)) with
  | .error e => return some (← fail none (.dump e.message))
  | .ok pair =>
    match ← dumpHeap pair.hprof with
    | .error e => return some (← fail pair (.dump e.message))
    | .ok () => take setup pair info

/-- Takes up analyses that never began. -/
def reanalyze (setup : Setup) : List DumpPair → Supervised Unit
  | [] => return
  | pair :: pairs => do
    let info ← circumstances setup reanalysisReason
    let _ ← analyze setup ⟨pair, info, 1⟩
    reanalyze setup pairs

/-- Does jobs that were put off. -/
def flush (setup : Setup) : List Job → Supervised Unit
  | [] => return
  | job :: jobs => do
    publish (← analyze setup job)
    flush setup jobs

/-- Uploads dumps that were taken by hand. -/
def uploadManual (setup : Setup) : List String → Supervised Unit
  | [] => return
  | path :: paths => do
    uploadDump setup .stripped path
    uploadManual setup paths

/-- Sorts out what earlier runs left. -/
def recover (setup : Setup) : Supervised Unit := do
  match ← onMachine (setup.store.scanStale setup.version) with
  | .error e => onMachine (OnMachine.log s!"failed to scan old dump files: {e.message}")
  | .ok scan =>
    uploadManual setup scan.manual
    if scan.reanalyze ≠ [] then spawn (.reanalyze scan.reanalyze)

end HeapSentry.Supervisor
