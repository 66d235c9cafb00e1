/-!
# Streaks

A streak counts how often in a row something was over a limit, and keeps the last sample whether or
not it was.
-/

namespace HeapSentry.Pressure

structure Streak (α : Type) where
  count : Nat := 0
  last : α
  deriving DecidableEq, Repr

namespace Streak

variable {α : Type}

/-- One more sample over the limit. -/
def extend (s : Streak α) (sample : α) : Streak α := ⟨s.count + 1, sample⟩

/-- A sample that is not over the limit. -/
def settle (sample : α) : Streak α := ⟨0, sample⟩

def record (s : Streak α) (pressing : Bool) (sample : α) : Streak α :=
  if pressing then s.extend sample else settle sample

end Streak

end HeapSentry.Pressure
