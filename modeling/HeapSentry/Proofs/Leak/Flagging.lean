import HeapSentry.Leak.Classification
import HeapSentry.Proofs.Results

/-!
# The rules

What an object is flagged for, read off its fields and sizes alone.  The order in which the fields
are read and the faults that reading them can have play no part here.
-/

namespace HeapSentry.Leak

open Heap

variable {g : Graph} {limits : Settings.Analysis} {i : Instance}

/-- Whether a field of an instance is there and true. -/
def isSet (g : Graph) (i : Instance) (className name : String) : Bool :=
  match g.field i className name with
  | .ok (.boolean b) => b
  | _ => false

/-- Whether a field of an instance is there and refers to nothing. -/
def isNull (g : Graph) (i : Instance) (className name : String) : Bool :=
  match g.field i className name with
  | .ok (.object none) => true
  | _ => false

def side (g : Graph) (i : Instance) (name : String) : Int :=
  match g.field i bitmapClassName name with
  | .ok (.int n) => n.toInt
  | _ => 0

/-- The number of pixels of a bitmap, which has none if a side is negative. -/
def pixels (g : Graph) (i : Instance) : Nat :=
  (max (side g i "mWidth") 0 * max (side g i "mHeight") 0).toNat

def flagOf (g : Graph) (limits : Settings.Analysis) (i : Instance) : Family → Option Flag
  | .activity =>
    if isSet g i activityClassName "mDestroyed" ∨ isSet g i activityClassName "mFinished" then
      some { reason := "Activity Leak" }
    else none
  | .fragment =>
    if ∃ base ∈ (Markers.ofGraph g).fragment,
        isNull g i base.name "mFragmentManager" ∧ isSet g i base.name "mCalled" then
      some { reason := "Fragment Leak" }
    else none
  | .bitmap =>
    let w := side g i "mWidth"
    let h := side g i "mHeight"
    if limits.bigBitmapPixels ≤ pixels g i then
      some ⟨s!"Bitmap Size Over Threshold, {w}x{h}", some (UInt64.ofNat (pixels g i)),
        some s!"{w} x {h}"⟩
    else none
  | .tallyOnly | .other => none

/-- A flagged object, with the name of its class. -/
structure Flagged where
  object : ObjectId
  className : String
  flag : Flag

namespace Flagged

def candidate (f : Flagged) : Candidate := ⟨f.object, f.className, f.flag.reason⟩

def bigObject? (f : Flagged) : Option BigObject :=
  f.flag.size.map fun size ↦
    ⟨f.className, size, UInt64.ofNat (f.object.toNat % 0x100000000), f.flag.detail⟩

end Flagged

/-- The class of an instance, unless it is unknown or boxes a primitive value. -/
def watchedClass? (g : Graph) (i : Instance) : Option Heap.Class :=
  (g.class? i.classId).filter (!isPrimitiveWrapper ·.name)

def instanceFamily (g : Graph) (i : Instance) : Family := (Markers.ofGraph g).familyOf g i.classId

def flaggedInstance? (g : Graph) (limits : Settings.Analysis) (i : Instance) : Option Flagged := do
  let c ← watchedClass? g i
  let flag ← flagOf g limits i (instanceFamily g i)
  some ⟨i.id, c.name, flag⟩

def flaggedPrimitiveArray? (limits : Settings.Analysis) (a : PrimitiveArray) : Option Flagged :=
  let size := a.byteSize
  if limits.bigPrimitiveArrayBytes ≤ size.toNat then
    some ⟨a.id, a.className,
      { reason := s!"Primitive Array Size Over Threshold, {size}", size := some size }⟩
  else none

def flaggedObjectArray? (g : Graph) (limits : Settings.Analysis) (a : ObjectArray) :
    Option Flagged :=
  let size := a.byteSize
  if limits.bigObjectArrayBytes ≤ size.toNat then
    some ⟨a.id, classNameOr "java.lang.Object[]" g a.classId,
      { reason := s!"Object Array Size Over Threshold, {size}", size := some size }⟩
  else none

/-- The flagged objects of a heap: instances, then primitive arrays, then object arrays. -/
def flagged (g : Graph) (limits : Settings.Analysis) : List Flagged :=
  g.instances.filterMap (flaggedInstance? g limits) ++
    g.primitiveArrays.filterMap (flaggedPrimitiveArray? limits) ++
    g.objectArrays.filterMap (flaggedObjectArray? g limits)

theorem untagged_eq (id : ObjectId) : id.untagged = UInt64.ofNat (id.toNat % 0x100000000) := by
  have hand : id.untagged.toNat = id.toNat % 0x100000000 := by
    rw [ObjectId.untagged, UInt64.toNat_and]
    exact Nat.and_two_pow_sub_one_eq_mod id.toNat 32
  rw [← hand, UInt64.ofNat_toNat]

/-! ## Reading fields -/

theorem isSet_of_boolField {className name : String} {b : Bool}
    (h : g.boolField i className name = .ok b) : isSet g i className name = b := by
  obtain ⟨value, hvalue, hb⟩ := bind_eq_ok_iff.1 h
  rw [isSet, hvalue]
  cases value <;> cases hb
  rfl

theorem isSet_eq_false_of_boolField {className name : String} {fault : Fault}
    (h : g.boolField i className name = .error fault) : isSet g i className name = false := by
  unfold isSet
  split
  next b hb => simp [Graph.boolField, hb, bind, Except.bind, FieldValue.boolean?] at h
  next => rfl

theorem side_of_intField {name : String} {n : Int32}
    (h : g.intField i bitmapClassName name = .ok n) : side g i name = n.toInt := by
  obtain ⟨value, hvalue, hn⟩ := bind_eq_ok_iff.1 h
  rw [side, hvalue]
  cases value <;> cases hn
  rfl

theorem isDetached_eq (base : Heap.Class) :
    isDetached g base i =
      (isNull g i base.name "mFragmentManager" && isSet g i base.name "mCalled") := by
  rw [isDetached]
  cases hcalled : g.boolField i base.name "mCalled" with
  | ok called =>
      rw [isSet_of_boolField hcalled]
      rfl
  | error fault =>
      rw [isSet_eq_false_of_boolField hcalled]
      rfl

/-! ## Areas -/

theorem toNat_mul_toNat (a b : Int) : a.toNat * b.toNat = (max a 0 * max b 0).toNat := by
  rw [← Int.toNat_eq_max, ← Int.toNat_eq_max, ← Int.natCast_mul, Int.toNat_natCast]

theorem side_lt (g : Graph) (i : Instance) (name : String) : side g i name < 0x80000000 := by
  unfold side
  split
  next n _ => exact n.toInt_lt
  next => decide

/-- A bitmap has so few pixels that their number is exact. -/
theorem toNat_ofNat_pixels (g : Graph) (i : Instance) :
    (UInt64.ofNat (pixels g i)).toNat = pixels g i := by
  have hwidth : (side g i "mWidth").toNat < 0x80000000 := by
    have := side_lt g i "mWidth"
    omega
  have hheight : (side g i "mHeight").toNat < 0x80000000 := by
    have := side_lt g i "mHeight"
    omega
  have hpixels : pixels g i < 2 ^ 64 := by
    rw [pixels, ← toNat_mul_toNat]
    calc (side g i "mWidth").toNat * (side g i "mHeight").toNat
        < 0x80000000 * 0x80000000 := Nat.mul_lt_mul'' hwidth hheight
      _ < 2 ^ 64 := by decide
  exact UInt64.toNat_ofNat_of_lt hpixels

/-! ## Flags -/

theorem activityFlag_eq {flag : Option Flag} (h : activityFlag g i = .ok flag) :
    flag = flagOf g limits i .activity := by
  obtain ⟨destroyed, hdestroyed, h⟩ := bind_eq_ok_iff.1 h
  obtain ⟨finished, hfinished, h⟩ := bind_eq_ok_iff.1 h
  cases h
  simp [flagOf, isSet_of_boolField hdestroyed, isSet_of_boolField hfinished]

theorem fragmentFlag_eq : fragmentFlag g (.ofGraph g) i = flagOf g limits i .fragment := by
  rw [fragmentFlag, flagOf]
  refine if_congr ?_ rfl rfl
  simp [Option.any_eq_true, isDetached_eq]

theorem bitmapFlag_eq {flag : Option Flag} (h : bitmapFlag g limits i = .ok flag) :
    flag = flagOf g limits i .bitmap := by
  obtain ⟨width, hwidth, h⟩ := bind_eq_ok_iff.1 h
  obtain ⟨height, hheight, h⟩ := bind_eq_ok_iff.1 h
  have hpixels : width.toInt.toNat * height.toInt.toNat = pixels g i := by
    rw [pixels, side_of_intField hwidth, side_of_intField hheight, toNat_mul_toNat]
  cases h
  rw [flagOf, hpixels, side_of_intField hwidth, side_of_intField hheight]

/-- The rules read what they need and flag what they should. -/
theorem instanceFlag_eq {family : Family} {flag : Option Flag}
    (h : instanceFlag g limits (.ofGraph g) i family = .ok flag) :
    flag = flagOf g limits i family := by
  cases family with
  | activity => exact activityFlag_eq h
  | fragment =>
      cases h
      exact fragmentFlag_eq
  | bitmap => exact bitmapFlag_eq h
  | tallyOnly =>
      cases h
      rfl
  | other =>
      cases h
      rfl

theorem flaggedPrimitiveArray?_eq (limits : Settings.Analysis) (a : PrimitiveArray) :
    flaggedPrimitiveArray? limits a =
      (primitiveArrayFlag limits a).map (⟨a.id, a.className, ·⟩) := by
  by_cases hlarge : limits.bigPrimitiveArrayBytes ≤ a.byteSize.toNat
  · simp [flaggedPrimitiveArray?, primitiveArrayFlag, hlarge]
  · simp [flaggedPrimitiveArray?, primitiveArrayFlag, hlarge]

theorem flaggedObjectArray?_eq (g : Graph) (limits : Settings.Analysis) (a : ObjectArray) :
    flaggedObjectArray? g limits a =
      (objectArrayFlag limits a).map (⟨a.id, objectArrayClassName g a, ·⟩) := by
  by_cases hlarge : limits.bigObjectArrayBytes ≤ a.byteSize.toNat
  · simp [flaggedObjectArray?, objectArrayFlag, objectArrayClassName, hlarge]
  · simp [flaggedObjectArray?, objectArrayFlag, hlarge]

end HeapSentry.Leak
