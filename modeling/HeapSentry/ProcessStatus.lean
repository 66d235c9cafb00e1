import HeapSentry.Machine

/-!
# Status texts

The system tells about processes and memory in lines of a name, a colon and a number of kibibytes.
-/

namespace HeapSentry.ProcessStatus

/-- The number that stands in a line of some name. -/
def lineNumber? (name line : String) : Option Nat :=
  match line.splitOn ":" with
  | [key, value] =>
    let digits := (value.toList.dropWhile Char.isWhitespace).takeWhile Char.isDigit
    if key = name then (String.ofList digits).toNat? else none
  | _ => none

/-- The bytes that a text gives under a name. -/
def bytes? (name text : String) : Option Nat :=
  ((text.splitOn "\n").findSome? (lineNumber? name)).map (· * 1024)

def memory (text : String) : Machine.MemoryFacts :=
  let bytes (name : String) := (bytes? name text).getD 0
  ⟨bytes "MemTotal", bytes "MemFree", bytes "MemAvailable"⟩

/-- What a process shows, given its text and what is known of its threads and descriptors. -/
def process (text : String) (threadNames fdTargets : List (Option String)) :
    Machine.ProcessFacts :=
  let bytes (name : String) := (bytes? name text).getD 0
  ⟨bytes "VmRSS", bytes "VmSize", threadNames, fdTargets⟩

end HeapSentry.ProcessStatus
