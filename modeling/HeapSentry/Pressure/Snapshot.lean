/-!
# Snapshots

What is read of a process and its device at one moment.
-/

namespace HeapSentry.Pressure

/-- The quotient of two counts, each rounded to a 32-bit float. -/
def ratio (part whole : Nat) : Float32 :=
  (UInt64.ofNat part).toFloat32 / (UInt64.ofNat whole).toFloat32

/-- The managed heap, in bytes. -/
structure HeapUsage where
  max : Nat := 0
  total : Nat := 0
  free : Nat := 0
  deriving DecidableEq, Repr

namespace HeapUsage

def used (h : HeapUsage) : Nat := h.total - h.free

/-- The share that is in use; a heap without a size is empty. -/
def rate (h : HeapUsage) : Float32 := if h.max = 0 then 0 else ratio h.used h.max

/-- A heap of which nothing is known to be free. -/
def ofUsed (max used : Nat) : HeapUsage := ⟨max, used, 0⟩

/-- The resident memory of a process taken as its heap, out of a limit or of all memory. -/
def ofResident (limit : Option Nat) (residentBytes deviceBytes : Nat) : HeapUsage :=
  ofUsed (limit.getD deviceBytes) residentBytes

end HeapUsage

/-- The memory of the device, in kibibytes. -/
structure DeviceMemory where
  totalKb : Nat := 1
  freeKb : Nat := 1
  availableKb : Nat := 1
  deriving DecidableEq, Repr

/-- The share that is available; a device without memory has all of it. -/
def DeviceMemory.rate (m : DeviceMemory) : Float32 :=
  if m.totalKb = 0 then 1 else ratio m.availableKb m.totalKb

/-- Readings of one moment.  By default the process is idle and the device has memory. -/
structure Snapshot where
  /-- Nanoseconds after a fixed instant. -/
  takenAt : Nat
  heap : HeapUsage := {}
  threads : Nat := 0
  vssKb : Nat := 0
  rssKb : Nat := 0
  device : DeviceMemory := {}
  fds : Nat := 0
  deriving DecidableEq, Repr

/-- Seconds from one snapshot to a later one. -/
def Snapshot.secondsSince? (current previous : Snapshot) : Option Float :=
  if current.takenAt < previous.takenAt then none
  else
    let nanos := current.takenAt - previous.takenAt
    some ((UInt64.ofNat (nanos / 1000000000)).toFloat
      + (UInt64.ofNat (nanos % 1000000000)).toFloat / 1000000000.0)

end HeapSentry.Pressure
