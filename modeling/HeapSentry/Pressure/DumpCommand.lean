import HeapSentry.Command.Placeholder
import HeapSentry.Command.Run
import HeapSentry.Pressure.Probe

/-!
# Dumping by a command

The heap of a process is dumped by a command that is told the process and the file.
-/

namespace HeapSentry.Pressure

def dumpByCommand (pid : Nat) (command : List String) (path : String) :
    OnMachine (Except ProbeError Unit) := do
  match Command.dumpArguments pid path command with
  | [] => return .error .dumpUnsupported
  | program :: arguments =>
    match ← Command.run program arguments with
    | none => return .error (.path ⟨path⟩)
    | some status =>
      return if status.succeeded then .ok () else .error (.dumpFailed status.text)

end HeapSentry.Pressure
