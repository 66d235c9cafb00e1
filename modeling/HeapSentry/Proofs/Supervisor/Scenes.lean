import HeapSentry.Supervisor.World

/-!
# Interleaved threads

The host may call the supervisor while other calls and tasks are under way.  A scene holds the
threads that have begun, each with what it has yet to do; a move lets one of them make its next
request.  So every order of the requests is a list of moves, and a list that ends early is a process
that dies.
-/

namespace HeapSentry.Supervisor

/-- What the host can call. -/
inductive Call where
  | start (inRuntime : Bool)
  | stop
  | background
  | foreground (inRuntime : Bool)
  deriving DecidableEq, Repr

/-- The activity of a call; what it answers concerns the host only. -/
def Call.activity (setup : Setup) : Call → Supervised Unit
  | .start inRuntime => do let _ ← Supervisor.start setup inRuntime
  | .stop => Supervisor.stop
  | .background => onBackground
  | .foreground inRuntime => do let _ ← onForeground setup inRuntime

/-- Why a thread was begun. -/
inductive Origin where
  | call (c : Call)
  | task (t : Task)

def Origin.activity (setup : Setup) : Origin → Supervised Unit
  | .call c => c.activity setup
  | .task t => t.activity setup

structure Thread where
  origin : Origin
  /-- What it has yet to do. -/
  rest : Supervised Unit

def Origin.thread (setup : Setup) (o : Origin) : Thread := ⟨o, o.activity setup⟩

def Thread.isDone (t : Thread) : Bool := t.rest matches .done _

/-- A request, with the number of the thread that made it and why that was begun. -/
structure Moment where
  thread : Nat
  origin : Origin
  request : Request
  answer : Answer request

structure Scene where
  world : World := {}
  /-- All threads that have begun, in that order. -/
  threads : List Thread := []
  /-- All requests so far, in their order. -/
  history : List Moment := []

inductive Move where
  /-- The host calls. -/
  | call (c : Call)
  /-- A task that waits begins. -/
  | begin (position : Nat)
  /-- A thread makes its next request. -/
  | step (thread : Nat)
  /-- The machine, the host or the watched process changes by itself. -/
  | surround (machine : Machine) (host : Host) (process : Process)

namespace World

/-- A world with a supervisor that was just set up. -/
def fresh (machine : Machine) (ledger : Storage.Ledger) (host : Host) (process : Process) : World :=
  { machine, memory := { session := { ledger } }, host, process }

/-- The world without one of the tasks that wait. -/
def withoutTask (w : World) (position : Nat) : World :=
  w.remember fun m ↦ { m with tasks := m.tasks.eraseIdx position }

def surrounded (w : World) (machine : Machine) (host : Host) (process : Process) : World :=
  { w with machine, host, process }

end World

namespace Scene

/-- Nothing was called yet. -/
def opening (w : World) : Scene := { world := w }

def enter (setup : Setup) (s : Scene) (o : Origin) : Scene :=
  { s with threads := s.threads ++ [o.thread setup] }

/-- Lets a thread make a request and go on with the answer. -/
def ask (setup : Setup) (s : Scene) (i : Nat) (o : Origin) (r : Request)
    (next : Answer r → Supervised Unit) : Scene :=
  let (answer, world) := s.world.perform setup.settings r
  { world
    threads := s.threads.set i ⟨o, next answer⟩
    history := s.history ++ [⟨i, o, r, answer⟩] }

/-- A move that is not possible changes nothing. -/
def handle (setup : Setup) (s : Scene) : Move → Scene
  | .call c => s.enter setup (.call c)
  | .begin position =>
    match s.world.memory.tasks[position]? with
    | none => s
    | some task =>
      { s with world := s.world.withoutTask position }.enter setup (.task task)
  | .step i =>
    match s.threads[i]? with
    | some ⟨o, .ask r next⟩ => s.ask setup i o r next
    | _ => s
  | .surround machine host process =>
    { s with world := s.world.surrounded machine host process }

def run (setup : Setup) (s : Scene) (moves : List Move) : Scene := moves.foldl (handle setup) s

@[simp] theorem run_nil (setup : Setup) (s : Scene) : s.run setup [] = s := rfl

@[simp] theorem run_cons (setup : Setup) (s : Scene) (move : Move) (moves : List Move) :
    s.run setup (move :: moves) = (s.handle setup move).run setup moves := rfl

theorem run_append (setup : Setup) (s : Scene) (moves more : List Move) :
    s.run setup (moves ++ more) = (s.run setup moves).run setup more :=
  List.foldl_append

end Scene

end HeapSentry.Supervisor
