import HeapSentry.Pressure.Probe
import HeapSentry.Pressure.Snapshot

/-!
# Reading a process

Snapshots of a live process.  Its resident memory is taken as its heap.
-/

namespace HeapSentry.Pressure

/-- What memory is counted in. -/
def kibibyte : Nat := 1024

/-- The snapshot that the facts of one moment make. -/
def Snapshot.ofFacts (heapLimit : Option Nat) (takenAt : Nat) (memory : Machine.MemoryFacts)
    (process : Machine.ProcessFacts) : Snapshot where
  takenAt
  heap := .ofResident heapLimit process.residentBytes memory.total
  threads := process.threadNames.length
  vssKb := process.virtualBytes / kibibyte
  rssKb := process.residentBytes / kibibyte
  device := ⟨memory.total / kibibyte, memory.free / kibibyte, memory.available / kibibyte⟩
  fds := process.fdTargets.length

/-- A snapshot of a process, which may be gone. -/
def takeSnapshot (pid : Nat) (heapLimit : Option Nat) : OnMachine (Except ProbeError Snapshot) := do
  let memory ← OnMachine.memory
  match ← OnMachine.process pid with
  | none => return .error (.processGone pid)
  | some process =>
    let seconds ← OnMachine.stopwatch
    return .ok (.ofFacts heapLimit (seconds * 1000000000.0).toUInt64.toNat memory process)

def threadNames (pid : Nat) : OnMachine (List String) := do
  return ((← OnMachine.process pid).map (·.threadNames.filterMap id)).getD []

def fdTargets (pid : Nat) : OnMachine (List String) := do
  return ((← OnMachine.process pid).map (·.fdTargets.filterMap id)).getD []

end HeapSentry.Pressure
