import HeapSentry.Json.Decode
import HeapSentry.Json.Printer
import HeapSentry.Storage.DumpStore
import HeapSentry.Storage.Ledger

/-!
# Ledgers on disk

The file is written anew after each change.  A file that cannot be read starts an empty ledger, and
a change that cannot be written is kept in memory all the same.
-/

namespace HeapSentry.Storage

open Json

/-! ## The JSON form -/

def LedgerEntry.toJson (e : LedgerEntry) : Value :=
  .record [("analysis_count", some (.nat e.analysisCount)),
    ("first_launch_unix_ms", e.firstLaunchMs.map .nat)]

def LedgerEntry.decoder : Decoder LedgerEntry :=
  Decode.record "LedgerEntry"
    [Decode.required "analysis_count" Decode.uint32,
      Decode.defaulting "first_launch_unix_ms" (Decode.optional Decode.uint64) none]
    fun (analysisCount, firstLaunchMs, ()) ↦
      ⟨analysisCount.toNat, firstLaunchMs.map UInt64.toNat⟩

namespace Ledger

def toJson (l : Ledger) : Value :=
  .obj (l.entries.map fun (version, e) ↦ (version, e.toJson))

def text (l : Ledger) : String := l.toJson.pretty

def ofText? (text : String) : Option Ledger :=
  match decode (Decode.dictionary LedgerEntry.decoder) text with
  | .ok entries => some (ofEntries entries)
  | .error _ => none

end Ledger

/-! ## The file -/

structure LedgerFile where
  path : String
  ledger : Ledger

namespace LedgerFile

def load (path : String) : OnMachine LedgerFile := do
  let text ← OnMachine.readText path
  return ⟨path, (text >>= Ledger.ofText?).getD .empty⟩

def makeRoom (f : LedgerFile) : OnMachine (Except PathFailure Unit) := do
  match Path.parent? f.path with
  | none => return .ok ()
  | some parent => return onPath parent (← OnMachine.makeDirs parent)

def save (f : LedgerFile) : OnMachine (Except PathFailure Unit) := do
  match ← f.makeRoom with
  | .error e => return .error e
  | .ok () => return onPath f.path (← OnMachine.write f.path f.ledger.text.toUTF8)

def increment (f : LedgerFile) (version : String) :
    OnMachine (Except PathFailure Nat × LedgerFile) := do
  let f := { f with ledger := f.ledger.increment version }
  let saved ← f.save
  return (saved.map fun () ↦ f.ledger.analysisCount version, f)

def recordLaunch (f : LedgerFile) (version : String) (nowMs : Int) :
    OnMachine (Except PathFailure Unit × LedgerFile) := do
  if (f.ledger.firstLaunchMs version).isSome then return (.ok (), f)
  else
    let f := { f with ledger := f.ledger.recordLaunch version nowMs }
    return (← f.save, f)

end LedgerFile

end HeapSentry.Storage
