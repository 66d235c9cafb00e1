import HeapSentry.Heap.Object

/-!
# Candidates

Objects that look as if they leaked.
-/

namespace HeapSentry.Leak

structure Candidate where
  object : Heap.ObjectId
  className : String
  reason : String
  deriving DecidableEq, Repr

end HeapSentry.Leak
