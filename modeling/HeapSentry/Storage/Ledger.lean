/-!
# Ledgers

A ledger keeps for each version how often it was analysed and when it was first launched.
-/

namespace HeapSentry.Storage

/-- What is kept of one version. -/
structure LedgerEntry where
  analysisCount : Nat := 0
  /-- Milliseconds since the epoch. -/
  firstLaunchMs : Option Nat := none
  deriving DecidableEq, Repr

/-- The entries of all versions, in increasing order of the versions. -/
structure Ledger where
  entries : List (String × LedgerEntry) := []
  deriving DecidableEq, Repr

/-- A time as it is kept: in 64 bits, with times before the epoch counting as the epoch. -/
def epochMs (nowMs : Int) : Nat := nowMs.toNat % UInt64.size

namespace Ledger

def empty : Ledger := {}

/-- Changes the entry of a version; a version without one starts with an empty entry. -/
def updateEntries (version : String) (change : LedgerEntry → LedgerEntry) :
    List (String × LedgerEntry) → List (String × LedgerEntry)
  | [] => [(version, change {})]
  | (v, e) :: rest =>
    if version < v then (version, change {}) :: (v, e) :: rest
    else if v = version then (v, change e) :: rest
    else (v, e) :: updateEntries version change rest

def update (l : Ledger) (version : String) (change : LedgerEntry → LedgerEntry) : Ledger :=
  ⟨updateEntries version change l.entries⟩

def entry (l : Ledger) (version : String) : LedgerEntry := (l.entries.lookup version).getD {}

def analysisCount (l : Ledger) (version : String) : Nat := (l.entry version).analysisCount

def firstLaunchMs (l : Ledger) (version : String) : Option Nat := (l.entry version).firstLaunchMs

def increment (l : Ledger) (version : String) : Ledger :=
  l.update version fun e ↦ { e with analysisCount := e.analysisCount + 1 }

/-- Records a launch unless there was one. -/
def recordLaunch (l : Ledger) (version : String) (nowMs : Int) : Ledger :=
  l.update version fun e ↦ { e with firstLaunchMs := e.firstLaunchMs <|> some (epochMs nowMs) }

def setCount (l : Ledger) (version : String) (count : Nat) : Ledger :=
  l.update version fun e ↦ { e with analysisCount := count }

def setFirstLaunch (l : Ledger) (version : String) (ms : Int) : Ledger :=
  l.update version fun e ↦ { e with firstLaunchMs := some (epochMs ms) }

/-- The ledger of a list of entries; the last one of a version counts. -/
def ofEntries (entries : List (String × LedgerEntry)) : Ledger :=
  entries.foldl (fun l (version, e) ↦ l.update version fun _ ↦ e) empty

end Ledger

end HeapSentry.Storage
