import HeapSentry.Digest.Sha256
import HeapSentry.Leak.Candidate
import HeapSentry.Leak.Search

/-!
# Leak traces

A trace tells how a leaking object is reached, by classes and fields.  Its signature leaves out the
fields, so that leaks of one cause have one signature.
-/

namespace HeapSentry.Leak

open Heap

structure Hop where
  originClass : String
  name : String
  kind : ReferenceKind
  declaringClass : Option String
  deriving DecidableEq, Repr

/-- The class and the field, or the class of the array. -/
def Hop.display (h : Hop) : String :=
  match h.kind with
  | .arrayEntry => h.originClass
  | _ => h.originClass ++ "." ++ h.name

/-- The object at the end of a trace. -/
structure Leaking where
  object : ObjectId
  className : String
  kindName : String
  reason : String
  deriving DecidableEq, Repr

structure Trace where
  root : RootKind
  path : List Hop
  leaking : Leaking
  deriving DecidableEq, Repr

namespace Trace

/-- The text that the signature is the digest of: the root, the class and kind of each reference,
and the class of the leaking object. -/
def outline (t : Trace) : String :=
  t.root.name ++ String.join (t.path.map fun h ↦ "\n" ++ h.originClass ++ "#" ++ h.kind.name)
    ++ "\n" ++ t.leaking.className

def signature (t : Trace) : String := Digest.Sha256.hexDigest t.outline

end Trace

/-- The class name of an object that must have one. -/
def classNameOf (g : Graph) (id : ObjectId) : Except Fault String :=
  match g.className? id with
  | some name => .ok name
  | none => .error (.unknownObject id)

/-- A reference by class names. -/
def Hop.ofReference (g : Graph) (r : Reference) : Except Fault Hop := do
  let originClass ← classNameOf g r.source
  .ok ⟨originClass, r.name, r.kind, (r.declaringClass >>= g.class?).map Heap.Class.name⟩

def Leaking.ofCandidate (g : Graph) (c : Candidate) : Except Fault Leaking :=
  match g.object? c.object with
  | none => .error (.unknownObject c.object)
  | some o => do
    let className ← classNameOf g c.object
    .ok ⟨c.object, className, o.kindName, c.reason⟩

/-- The trace of a candidate that a search has met. -/
def Trace.ofSearch (g : Graph) (s : Search) (c : Candidate) : Except Fault Trace := do
  let (root, way) := s.way c.object
  let path ← way.mapM (Hop.ofReference g)
  let leaking ← Leaking.ofCandidate g c
  .ok ⟨root, path, leaking⟩

end HeapSentry.Leak
