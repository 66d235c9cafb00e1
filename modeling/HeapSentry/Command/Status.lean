/-!
# How commands end
-/

namespace HeapSentry.Command

inductive Status where
  | exited (code : UInt8)
  | killed (signal : Nat)
  deriving DecidableEq, Repr

namespace Status

def success : Status := .exited 0

def failure : Status := .exited 1

def succeeded (s : Status) : Bool := s == success

/-- The code that a script sees. -/
def code : Status → UInt8
  | .exited code => code
  | .killed signal => UInt8.ofNat (128 + signal)

def signalNames : List String :=
  ["SIGHUP", "SIGINT", "SIGQUIT", "SIGILL", "SIGTRAP", "SIGABRT", "SIGBUS", "SIGFPE", "SIGKILL",
    "SIGUSR1", "SIGSEGV", "SIGUSR2", "SIGPIPE", "SIGALRM", "SIGTERM", "SIGSTKFLT", "SIGCHLD",
    "SIGCONT", "SIGSTOP", "SIGTSTP", "SIGTTIN", "SIGTTOU", "SIGURG", "SIGXCPU", "SIGXFSZ",
    "SIGVTALRM", "SIGPROF", "SIGWINCH", "SIGIO", "SIGPWR", "SIGSYS"]

def signalName? (signal : Nat) : Option String :=
  if signal = 0 then none else signalNames[signal - 1]?

/-- The last signal; those beyond the named ones have numbers only. -/
def lastSignal : Nat := 64

def signalOfName? (name : String) : Option Nat :=
  if name = "SIGRTMIN" then some 34
  else if name = "SIGRTMAX" then some lastSignal
  else (signalNames.findIdx? (· == name)).map (· + 1)

/-- Whether a signal does nothing to a process that has not asked for it. -/
def isHarmless (signal : Nat) : Bool :=
  match signalName? signal with
  | some name => ["SIGCHLD", "SIGCONT", "SIGURG", "SIGWINCH"].contains name
  | none => signal = 0

def text : Status → String
  | .exited code => s!"exit status: {code}"
  | .killed signal =>
    match signalName? signal with
    | some name => s!"signal: {signal} ({name})"
    | none => s!"signal: {signal}"

end Status

end HeapSentry.Command
