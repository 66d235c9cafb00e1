import HeapSentry.Storage.DumpStore

/-!
# Probes

What can go wrong with the watched process: it may be gone, and its heap may not be dumped.
-/

namespace HeapSentry.Pressure

inductive ProbeError where
  | processGone (pid : Nat)
  | dumpUnsupported
  /-- The dump command ended with some status. -/
  | dumpFailed (status : String)
  | path (failure : Storage.PathFailure)
  deriving DecidableEq, Repr

def ProbeError.message : ProbeError → String
  | .processGone pid => s!"process {pid} is no longer running"
  | .dumpUnsupported => "no heap dump command configured"
  | .dumpFailed status => s!"heap dump command exited with {status}"
  | .path failure => failure.message

end HeapSentry.Pressure
