import HeapSentry.Heap.Graph

/-!
# Families of classes

A class belongs to a watched family if a watched base class stands at a certain height of its chain
of superclasses: the first class below the root of all classes, or the fourth.
-/

namespace HeapSentry.Leak

open Heap

inductive Family where
  | activity | fragment | bitmap
  /-- Instances are counted but never leak. -/
  | tallyOnly
  | other
  deriving DecidableEq, Repr

def activityClassName : String := "android.app.Activity"

def bitmapClassName : String := "android.graphics.Bitmap"

/-- Base classes of fragments; the first one that a heap has is watched. -/
def fragmentClassNames : List String :=
  ["androidx.fragment.app.Fragment", "android.app.Fragment", "android.support.v4.app.Fragment"]

def tallyOnlyClassNames : List String :=
  ["libcore.util.NativeAllocationRegistry", "libcore.util.NativeAllocationRegistry$CleanerThunk",
    "android.view.Window"]

/-- The watched base classes of a heap. -/
structure Markers where
  activity : Option ObjectId
  fragment : Option Heap.Class
  bitmap : Option ObjectId
  tallyOnly : List ObjectId

namespace Markers

def ofGraph (g : Graph) : Markers where
  activity := (g.classNamed? activityClassName).map Heap.Class.id
  fragment := fragmentClassNames.findSome? g.classNamed?
  bitmap := (g.classNamed? bitmapClassName).map Heap.Class.id
  tallyOnly := tallyOnlyClassNames.filterMap fun name ↦ (g.classNamed? name).map Heap.Class.id

/-- The family of a class, by the classes at the first and fourth height above it. -/
def family (m : Markers) (first fourth : Option ObjectId) : Family :=
  if m.activity.isSome && m.activity == fourth then .activity
  else if m.fragment.isSome && m.fragment.map Heap.Class.id == first then .fragment
  else if m.bitmap.isSome && m.bitmap == first then .bitmap
  else if first.any m.tallyOnly.contains then .tallyOnly
  else .other

/-- The class at a height of a chain; the last class has height zero. -/
def atHeight (chain : List Heap.Class) (height : Nat) : Option ObjectId :=
  (chain.reverse[height]?).map Heap.Class.id

def familyOf (m : Markers) (g : Graph) (classId : ObjectId) : Family :=
  let chain := g.superclassChain classId
  m.family (atHeight chain 1) (atHeight chain 4)

end Markers

end HeapSentry.Leak
