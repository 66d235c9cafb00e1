import HeapSentry.Supervisor.Analysis

/-!
# Calls and tasks

The host calls the supervisor; what takes long runs in tasks.
-/

namespace HeapSentry.Supervisor

open Pressure Storage Supervised

def saveChanged (setup : Setup) : Option Ledger → Supervised Unit
  | none => return
  | some ledger => saveLedger setup ledger

/-- Begins to poll, and at the first time sorts out what earlier runs left. -/
def start (setup : Setup) (inRuntime : Bool) : Supervised (Except CallError Bool) := do
  if !inRuntime then return .error .noRuntime
  let host ← host
  let result ← Supervised.start host.primary (← wallClock)
  saveChanged setup result.changed
  if !result.started then return .ok false
  if ← claimRecovery then recover setup
  spawn (.poll (← generation))
  return .ok true

def stop : Supervised Unit := do
  let _ ← Supervised.stop
  endGeneration

/-- Ends polling until the host is back. -/
def onBackground : Supervised Unit := do
  if ← background then endGeneration

/-- Takes up polling, and the analyses that were put off. -/
def onForeground (setup : Setup) (inRuntime : Bool) : Supervised (Except CallError Unit) := do
  if !inRuntime then return .error .noRuntime
  let host ← host
  let result ← foreground host.primary (← wallClock)
  saveChanged setup result.changed
  if result.started then spawn (.poll (← generation))
  match ← takeDeferred with
  | [] => return .ok ()
  | jobs =>
    spawn (.flush jobs)
    return .ok ()

/-- One poll of a generation; polling goes on unless it has ended. -/
def pollOnce (gen : Nat) : Supervised Unit := do
  if (← generation) ≠ gen then return
  let outcome ← poll (← wallClock)
  match outcome with
  | .triggered d => if ← claimLaunch then spawn (.handOff d.joined)
  | _ => pure ()
  if outcome.continues then spawn (.poll gen)

def Task.activity (setup : Setup) : Task → Supervised Unit
  | .poll gen => pollOnce gen
  | .handOff reason => do
    match ← Supervisor.handOff setup reason with
    | some outcome => publish outcome
    | none => return
  | .reanalyze pairs => Supervisor.reanalyze setup pairs
  | .flush jobs => Supervisor.flush setup jobs

end HeapSentry.Supervisor
