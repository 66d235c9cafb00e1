import HeapSentry.Leak.Candidate
import HeapSentry.Leak.Family
import HeapSentry.Settings.Basic

/-!
# Classification

One pass over a heap finds the objects that look leaked, counts the instances of watched classes and
lists what is large.  Of each class only so many objects become candidates.
-/

namespace HeapSentry.Leak

open Heap

/-- Candidates of one class at most. -/
def sameClassLimit : Nat := 45

/-- The instances of one class. -/
structure Tally where
  className : String
  instances : Nat
  leaks : Nat
  deriving DecidableEq, Repr

def Tally.count (t : Tally) (leaking : Bool) : Tally :=
  { t with
    instances := t.instances + 1
    leaks := if leaking then t.leaks + 1 else t.leaks }

/-- A large object, with its untagged id. -/
structure BigObject where
  className : String
  size : UInt64
  objectId : UInt64
  detail : Option String
  deriving DecidableEq, Repr

structure Classification where
  candidates : List Candidate := []
  tallies : List Tally := []
  bigObjects : List BigObject := []
  deriving DecidableEq, Repr

namespace Classification

def reason? (c : Classification) (id : ObjectId) : Option String :=
  (c.candidates.find? (·.object == id)).map Candidate.reason

def countOf (c : Classification) (className : String) : Nat :=
  c.candidates.countP (·.className == className)

def isEmpty (c : Classification) : Bool := c.candidates.isEmpty

/-- The ids of the candidates, in increasing order. -/
def ids (c : Classification) : List ObjectId :=
  ((c.candidates.map Candidate.object).mergeSort (· ≤ ·)).eraseReps

end Classification

/-! ## The rules -/

/-- Why an object is a candidate; what is large tells its size. -/
structure Flag where
  reason : String
  size : Option UInt64 := none
  detail : Option String := none
  deriving DecidableEq, Repr

/-- A fragment that has no manager any more although its life has begun.  A fragment without the
fields of the base class is none. -/
def isDetached (g : Graph) (base : Heap.Class) (i : Instance) : Bool :=
  let cleared := match g.field i base.name "mFragmentManager" with
    | .ok (.object none) => true
    | _ => false
  cleared && match g.boolField i base.name "mCalled" with
    | .ok called => called
    | .error _ => false

/-- The flag of an activity, which has to have its fields. -/
def activityFlag (g : Graph) (i : Instance) : Except Fault (Option Flag) := do
  let destroyed ← g.boolField i activityClassName "mDestroyed"
  let finished ← g.boolField i activityClassName "mFinished"
  .ok (if destroyed || finished then some { reason := "Activity Leak" } else none)

def fragmentFlag (g : Graph) (m : Markers) (i : Instance) : Option Flag :=
  if m.fragment.any (isDetached g · i) then some { reason := "Fragment Leak" } else none

/-- The flag of a bitmap, which has to have its fields.  Negative extents count as none. -/
def bitmapFlag (g : Graph) (limits : Settings.Analysis) (i : Instance) :
    Except Fault (Option Flag) := do
  let width ← g.intField i bitmapClassName "mWidth"
  let height ← g.intField i bitmapClassName "mHeight"
  let area := width.toInt.toNat * height.toInt.toNat
  let w := width.toInt
  let h := height.toInt
  .ok (if area ≥ limits.bigBitmapPixels then
    some ⟨s!"Bitmap Size Over Threshold, {w}x{h}", some (UInt64.ofNat area), some s!"{w} x {h}"⟩
  else none)

/-- The flag of an instance of some family. -/
def instanceFlag (g : Graph) (limits : Settings.Analysis) (m : Markers) (i : Instance) :
    Family → Except Fault (Option Flag)
  | .activity => activityFlag g i
  | .fragment => .ok (fragmentFlag g m i)
  | .bitmap => bitmapFlag g limits i
  | .tallyOnly | .other => .ok none

def primitiveArrayFlag (limits : Settings.Analysis) (a : PrimitiveArray) : Option Flag :=
  let size := a.byteSize
  if size.toNat ≥ limits.bigPrimitiveArrayBytes then
    some { reason := s!"Primitive Array Size Over Threshold, {size}", size := some size }
  else none

def objectArrayFlag (limits : Settings.Analysis) (a : ObjectArray) : Option Flag :=
  let size := a.byteSize
  if size.toNat ≥ limits.bigObjectArrayBytes then
    some { reason := s!"Object Array Size Over Threshold, {size}", size := some size }
  else none

/-- The name of a class, or another name if it is unknown. -/
def classNameOr (other : String) (g : Graph) (classId : ObjectId) : String :=
  match g.class? classId with
  | some c => c.name
  | none => other

/-- The class name of an object array; an array of an unknown class counts as one of objects. -/
def objectArrayClassName (g : Graph) (a : ObjectArray) : String :=
  classNameOr "java.lang.Object[]" g a.classId

/-! ## The pass -/

/-- What a pass has seen. -/
structure Survey where
  /-- The families of the classes met so far. -/
  families : Std.HashMap ObjectId Family := ∅
  tallies : Array Tally := #[]
  /-- The tally of each class. -/
  tallySlots : Std.HashMap ObjectId Nat := ∅
  candidates : Array Candidate := #[]
  /-- The number of candidates of each class name. -/
  accepted : Std.HashMap String Nat := ∅
  bigObjects : Array BigObject := #[]

namespace Survey

/-- The family of a class, looked up or found and kept. -/
def familyOf (g : Graph) (m : Markers) (s : Survey) (classId : ObjectId) : Family × Survey :=
  match s.families[classId]? with
  | some family => (family, s)
  | none =>
    let family := m.familyOf g classId
    (family, { s with families := s.families.insert classId family })

def tally (g : Graph) (s : Survey) (classId : ObjectId) (leaking : Bool) : Survey :=
  match s.tallySlots[classId]? with
  | some slot => { s with tallies := s.tallies.modify slot (·.count leaking) }
  | none =>
    { s with
      tallySlots := s.tallySlots.insert classId s.tallies.size
      tallies := s.tallies.push (.count ⟨classNameOr "" g classId, 0, 0⟩ leaking) }

/-- Makes an object a candidate, unless there are enough of its class. -/
def accept (s : Survey) (id : ObjectId) (className : String) (flag : Flag) : Survey :=
  let count := s.accepted.getD className 0
  if count ≥ sameClassLimit then s
  else { s with
    accepted := s.accepted.insert className (count + 1)
    candidates := s.candidates.push ⟨id, className, flag.reason⟩
    bigObjects := match flag.size with
      | none => s.bigObjects
      | some size => s.bigObjects.push ⟨className, size, id.untagged, flag.detail⟩ }

def acceptIf (s : Survey) (id : ObjectId) (className : String) : Option Flag → Survey
  | none => s
  | some flag => s.accept id className flag

def visitInstance (g : Graph) (limits : Settings.Analysis) (m : Markers) (s : Survey)
    (i : Instance) : Except Fault Survey :=
  match g.class? i.classId with
  | none => .error (.unknownObject i.classId)
  | some c =>
    if isPrimitiveWrapper c.name then .ok s
    else do
      let (family, s) := s.familyOf g m i.classId
      let flag ← instanceFlag g limits m i family
      let s := if family = .other then s else s.tally g i.classId flag.isSome
      .ok (s.acceptIf i.id c.name flag)

def visitPrimitiveArray (limits : Settings.Analysis) (s : Survey) (a : PrimitiveArray) : Survey :=
  s.acceptIf a.id a.className (primitiveArrayFlag limits a)

def visitObjectArray (g : Graph) (limits : Settings.Analysis) (s : Survey) (a : ObjectArray) :
    Survey :=
  s.acceptIf a.id (objectArrayClassName g a) (objectArrayFlag limits a)

def classification (s : Survey) : Classification :=
  ⟨s.candidates.toList, s.tallies.toList, s.bigObjects.toList⟩

end Survey

/-- Looks through a heap: instances, then primitive arrays, then object arrays. -/
def classify (g : Graph) (limits : Settings.Analysis) : Except Fault Classification := do
  let s ← g.instances.foldlM (Survey.visitInstance g limits (.ofGraph g)) {}
  let s := g.primitiveArrays.foldl (Survey.visitPrimitiveArray limits) s
  let s := g.objectArrays.foldl (Survey.visitObjectArray g limits) s
  .ok s.classification

end HeapSentry.Leak
