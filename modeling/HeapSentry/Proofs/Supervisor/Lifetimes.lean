import HeapSentry.Proofs.Supervisor.Scenes

/-!
# Lives of a supervisor

A life begins with a supervisor that was just set up and may end after any move.
-/

namespace HeapSentry.Supervisor

structure Lifetime where
  setup : Setup
  machine : Machine
  ledger : Storage.Ledger
  host : Host
  process : Process
  moves : List Move

namespace Lifetime

def initial (l : Lifetime) : World := .fresh l.machine l.ledger l.host l.process

/-- What is there at the end. -/
def final (l : Lifetime) : Scene := (Scene.opening l.initial).run l.setup l.moves

end Lifetime

end HeapSentry.Supervisor
