import HeapSentry.Heap.Builder
import HeapSentry.Proofs.Leak.Admitting
import HeapSentry.Proofs.Leak.Tallying

/-!
# The classification of a heap

One pass with its tables gives what the rules, the limit of each class name and the counts of each
class give on their own.
-/

namespace HeapSentry.Leak

open Heap

variable {g : Graph} {limits : Settings.Analysis} {s : Survey} {is : List Instance}
  {fs : List Flagged} {seen : List Sighting}

/-- The classification of a heap by its flagged objects and the instances that are counted. -/
def reference (g : Graph) (limits : Settings.Analysis) : Classification where
  candidates := (admitted (flagged g limits)).map Flagged.candidate
  tallies := talliesOf g (g.instances.filterMap (sighting? g limits))
  bigObjects := (admitted (flagged g limits)).filterMap Flagged.bigObject?

namespace Survey

/-- The families that a survey keeps are those of the classes. -/
def Knows (s : Survey) (g : Graph) : Prop :=
  ∀ (id : ObjectId) (family : Family), s.families[id]? = some family →
    family = (Markers.ofGraph g).familyOf g id

/-! ## What each step leaves alone -/

theorem Knows.familyOf (h : s.Knows g) (classId : ObjectId) :
    (s.familyOf g (.ofGraph g) classId).1 = (Markers.ofGraph g).familyOf g classId ∧
      (s.familyOf g (.ofGraph g) classId).2.Knows g := by
  unfold Survey.familyOf
  split
  next family hfamily => exact ⟨h classId family hfamily, h⟩
  next hnone =>
    refine ⟨rfl, fun id family hfamily ↦ ?_⟩
    rw [Std.HashMap.getElem?_insert] at hfamily
    split at hfamily
    next heq =>
      obtain rfl := eq_of_beq heq
      exact (Option.some.inj hfamily).symm
    next hne => exact h id family hfamily

theorem Lists.familyOf (h : s.Lists fs) (g : Graph) (m : Markers) (classId : ObjectId) :
    (s.familyOf g m classId).2.Lists fs := by
  unfold Survey.familyOf
  split
  next => exact h
  next => exact ⟨h.accepted, h.candidates, h.bigObjects⟩

theorem Counts.familyOf (h : s.Counts g seen) (m : Markers) (classId : ObjectId) :
    (s.familyOf g m classId).2.Counts g seen := by
  unfold Survey.familyOf
  split
  next => exact h
  next => exact ⟨h.tallies, h.slots⟩

theorem Knows.tally (h : s.Knows g) (classId : ObjectId) (leaking : Bool) :
    (s.tally g classId leaking).Knows g := by
  unfold Survey.tally
  split <;> exact h

theorem Lists.tally (h : s.Lists fs) (classId : ObjectId) (leaking : Bool) :
    (s.tally g classId leaking).Lists fs := by
  unfold Survey.tally
  split <;> exact ⟨h.accepted, h.candidates, h.bigObjects⟩

theorem Knows.acceptIf (h : s.Knows g) (id : ObjectId) (className : String) (flag : Option Flag) :
    (s.acceptIf id className flag).Knows g := by
  cases flag with
  | none => exact h
  | some flag =>
      simp only [Survey.acceptIf, Survey.accept]
      split <;> exact h

theorem Counts.acceptIf (h : s.Counts g seen) (id : ObjectId) (className : String)
    (flag : Option Flag) : (s.acceptIf id className flag).Counts g seen := by
  cases flag with
  | none => exact h
  | some flag =>
      simp only [Survey.acceptIf, Survey.accept]
      split
      next => exact h
      next => exact ⟨h.tallies, h.slots⟩

theorem Counts.foldl {α : Type} (h : s.Counts g seen) (visit : Survey → α → Survey)
    (hvisit : ∀ s a, s.Counts g seen → (visit s a).Counts g seen) (as : List α) :
    (as.foldl visit s).Counts g seen :=
  List.foldlRecOn as visit h fun s hcounts a _ ↦ hvisit s a hcounts

theorem Lists.visitPrimitiveArray (h : s.Lists fs) (a : PrimitiveArray) :
    (s.visitPrimitiveArray limits a).Lists (fs ++ (flaggedPrimitiveArray? limits a).toList) := by
  rw [flaggedPrimitiveArray?_eq]
  exact h.acceptIf a.id a.className (primitiveArrayFlag limits a)

theorem Lists.visitObjectArray (h : s.Lists fs) (a : ObjectArray) :
    (s.visitObjectArray g limits a).Lists (fs ++ (flaggedObjectArray? g limits a).toList) := by
  rw [flaggedObjectArray?_eq]
  exact h.acceptIf a.id (objectArrayClassName g a) (objectArrayFlag limits a)

/-! ## The pass over instances -/

/-- A visit passes over what boxes a primitive value; else it looks up the family, counts the
instance if its family is watched, and accepts it if it is flagged. -/
theorem visitInstance_cases {m : Markers} {i : Instance} {s' : Survey}
    (h : s.visitInstance g limits m i = .ok s') :
    (watchedClass? g i = none ∧ s' = s) ∨
      ∃ c flag, watchedClass? g i = some c ∧
        instanceFlag g limits m i (s.familyOf g m i.classId).1 = .ok flag ∧
        s' = (if (s.familyOf g m i.classId).1 = .other then (s.familyOf g m i.classId).2
          else (s.familyOf g m i.classId).2.tally g i.classId flag.isSome).acceptIf
            i.id c.name flag := by
  unfold visitInstance at h
  split at h
  next => cases h
  next c hc =>
    split at h
    next hwrapper =>
      cases h
      exact .inl ⟨by simp [watchedClass?, hc, hwrapper], rfl⟩
    next hother =>
      obtain ⟨flag, hflag, hs'⟩ := bind_eq_ok_iff.1 h
      cases hs'
      exact .inr ⟨c, flag, by simp [watchedClass?, hc, hother], hflag, rfl⟩

/-- What a survey has found out about the instances that it has visited. -/
structure Covers (s : Survey) (g : Graph) (limits : Settings.Analysis) (is : List Instance) :
    Prop where
  knows : s.Knows g
  lists : s.Lists (is.filterMap (flaggedInstance? g limits))
  counts : s.Counts g (is.filterMap (sighting? g limits))

theorem covers_empty : Covers {} g limits [] where
  knows id family h := by simp at h
  lists := lists_empty
  counts := counts_empty

theorem Covers.visitInstance {i : Instance} {s' : Survey} (h : s.Covers g limits is)
    (hvisit : s.visitInstance g limits (.ofGraph g) i = .ok s') :
    s'.Covers g limits (is ++ [i]) := by
  rcases visitInstance_cases hvisit with ⟨hwatched, rfl⟩ | ⟨c, flag, hwatched, hflag, rfl⟩
  · refine ⟨h.knows, ?_, ?_⟩
    · simpa [flaggedInstance?, hwatched] using h.lists
    · simpa [sighting?, hwatched] using h.counts
  · obtain ⟨hlookup, hknows⟩ := h.knows.familyOf i.classId
    have hfamily : (s.familyOf g (.ofGraph g) i.classId).1 = instanceFamily g i := hlookup
    have hlists := h.lists.familyOf g (.ofGraph g) i.classId
    have hcounts := h.counts.familyOf (.ofGraph g) i.classId
    rw [hfamily] at hflag ⊢
    have hrule : flagOf g limits i (instanceFamily g i) = flag := (instanceFlag_eq hflag).symm
    have hflagged : flaggedInstance? g limits i = flag.map (⟨i.id, c.name, ·⟩) := by
      cases flag <;> simp [flaggedInstance?, hwatched, hrule]
    by_cases hother : instanceFamily g i = .other
    · have hsighting : sighting? g limits i = none := by simp [sighting?, hother]
      rw [if_pos hother]
      refine ⟨hknows.acceptIf _ _ _, ?_, ?_⟩
      · rw [filterMap_snoc, hflagged]
        exact hlists.acceptIf _ _ _
      · rw [filterMap_snoc, hsighting, Option.toList_none, List.append_nil]
        exact hcounts.acceptIf _ _ _
    · have hsighting : sighting? g limits i = some ⟨i.classId, flag.isSome⟩ := by
        simp [sighting?, hwatched, hother, hrule]
      rw [if_neg hother]
      refine ⟨(hknows.tally _ _).acceptIf _ _ _, ?_, ?_⟩
      · rw [filterMap_snoc, hflagged]
        exact (hlists.tally _ _).acceptIf _ _ _
      · rw [filterMap_snoc, hsighting]
        exact (hcounts.tally ⟨i.classId, flag.isSome⟩).acceptIf _ _ _

theorem covers_of_foldlM (h : is.foldlM (visitInstance g limits (.ofGraph g)) {} = .ok s) :
    s.Covers g limits is :=
  foldlM_induction (P := fun is s ↦ s.Covers g limits is) covers_empty
    (fun _ _ _ _ hcovers hvisit ↦ hcovers.visitInstance hvisit) h

end Survey

/-! ## A gallery -/

namespace Gallery

def bitmap : Instance :=
  ⟨0x700000010, 2, [⟨2, "mWidth", .int 2000⟩, ⟨2, "mHeight", .int 1000⟩]⟩

def thumbnail : Instance :=
  ⟨0x700000011, 2, [⟨2, "mWidth", .int 20⟩, ⟨2, "mHeight", .int (-10)⟩]⟩

def pixelArray : PrimitiveArray := ⟨0x700000012, .byte, 8000000⟩

/-- A large bitmap, a bitmap of which nothing is left, and a large array. -/
def graph : Graph :=
  [.ofClass ⟨1, "java.lang.Object", none, []⟩, .ofClass ⟨2, bitmapClassName, some 1, []⟩,
    .ofInstance bitmap, .ofInstance thumbnail, .ofPrimitiveArray pixelArray].foldl
    Graph.place .empty

def settings : Settings.Analysis := {}

def classification : Classification where
  candidates := [⟨0x700000010, bitmapClassName, "Bitmap Size Over Threshold, 2000x1000"⟩,
    ⟨0x700000012, "byte[]", "Primitive Array Size Over Threshold, 8000000"⟩]
  tallies := [⟨bitmapClassName, 2, 1⟩]
  bigObjects := [⟨bitmapClassName, 2000000, 0x10, some "2000 x 1000"⟩,
    ⟨"byte[]", 8000000, 0x12, none⟩]

theorem object?_one : graph.object? 1 = some (.ofClass ⟨1, "java.lang.Object", none, []⟩) := by
  simp [Graph.object?, graph, Graph.place, Graph.empty, Object.id, bitmap, thumbnail, pixelArray,
    Std.HashMap.getElem_insert]

theorem object?_two : graph.object? 2 = some (.ofClass ⟨2, bitmapClassName, some 1, []⟩) := by
  simp [Graph.object?, graph, Graph.place, Graph.empty, Object.id, bitmap, thumbnail, pixelArray,
    Std.HashMap.getElem_insert]

theorem class?_one : graph.class? 1 = some ⟨1, "java.lang.Object", none, []⟩ := by
  rw [Graph.class?, object?_one]
  rfl

theorem class?_two : graph.class? 2 = some ⟨2, bitmapClassName, some 1, []⟩ := by
  rw [Graph.class?, object?_two]
  rfl

theorem classIds_eq (name : String) : graph.classIds[name]? =
    if name = "java.lang.Object" then some 1 else if name = bitmapClassName then some 2
    else none := by
  simp [graph, Graph.place, Graph.empty, Std.HashMap.getElem?_insertIfNew, bitmapClassName]
  grind

theorem ofGraph_eq : Markers.ofGraph graph = ⟨none, none, some 2, []⟩ := by
  simp [Markers.ofGraph, Graph.classNamed?, classIds_eq, activityClassName, bitmapClassName,
    fragmentClassNames, tallyOnlyClassNames, class?_two]

theorem superclassChain_two : graph.superclassChain 2 =
    [⟨2, bitmapClassName, some 1, []⟩, ⟨1, "java.lang.Object", none, []⟩] := by
  have hsize : graph.size = 5 := rfl
  simp [Graph.superclassChain, hsize, Graph.extendChain, class?_one, class?_two]

theorem familyOf_two : (Markers.ofGraph graph).familyOf graph 2 = .bitmap := by
  simp [Markers.familyOf, superclassChain_two, ofGraph_eq, Markers.atHeight, Markers.family]

theorem intField_eq {i : Instance} {w h : Int32}
    (hfields : i.fields = [⟨2, "mWidth", .int w⟩, ⟨2, "mHeight", .int h⟩]) :
    graph.intField i bitmapClassName "mWidth" = .ok w ∧
      graph.intField i bitmapClassName "mHeight" = .ok h := by
  simp [Graph.intField, Graph.field, Graph.declares, hfields, class?_two, FieldValue.int?, bind,
    Except.bind]

theorem bitmapFlag_bitmap : bitmapFlag graph settings bitmap =
    .ok (some ⟨"Bitmap Size Over Threshold, 2000x1000", some 2000000, some "2000 x 1000"⟩) := by
  obtain ⟨hwidth, hheight⟩ := intField_eq (i := bitmap) rfl
  rw [bitmapFlag, hwidth, hheight]
  rfl

theorem bitmapFlag_thumbnail : bitmapFlag graph settings thumbnail = .ok none := by
  obtain ⟨hwidth, hheight⟩ := intField_eq (i := thumbnail) rfl
  rw [bitmapFlag, hwidth, hheight]
  rfl

theorem primitiveArrayFlag_pixelArray : primitiveArrayFlag settings pixelArray =
    some ⟨"Primitive Array Size Over Threshold, 8000000", some 8000000, none⟩ := rfl

theorem classify_eq : classify graph settings = .ok classification := by
  have hinstances : graph.instances = [bitmap, thumbnail] := rfl
  have hprimitive : graph.primitiveArrays = [pixelArray] := rfl
  have hobject : graph.objectArrays = [] := rfl
  have hclass : bitmap.classId = 2 := rfl
  have hclass' : thumbnail.classId = 2 := rfl
  have hwrapper : isPrimitiveWrapper bitmapClassName = false := by decide
  have hname : pixelArray.className = "byte[]" := rfl
  rw [classify, hinstances, hprimitive, hobject]
  simp [Survey.visitInstance, hclass, hclass', class?_two, hwrapper, Survey.familyOf, familyOf_two,
    instanceFlag, bitmapFlag_bitmap, bitmapFlag_thumbnail, Survey.tally, Survey.acceptIf, bind,
    Except.bind, Survey.accept, sameClassLimit, Survey.visitPrimitiveArray,
    primitiveArrayFlag_pixelArray, hname, classNameOr, pure, Except.pure, Std.HashMap.getD_insert]
  rfl

end Gallery

/-! ## The classification -/

/-- One pass gives the classification that the rules, the limit of each class name and the counts of
each class determine.  The number of pixels that a bitmap is flagged for is exact. -/
theorem classify_eq_reference {c : Classification} (h : classify g limits = .ok c) :
    c = reference g limits ∧ ∀ i, (UInt64.ofNat (pixels g i)).toNat = pixels g i := by
  refine ⟨?_, toNat_ofNat_pixels g⟩
  obtain ⟨s, hs, hc⟩ := bind_eq_ok_iff.1 h
  have hcovers := Survey.covers_of_foldlM hs
  have hprimitive := hcovers.lists.foldl (Survey.visitPrimitiveArray limits)
    (flaggedPrimitiveArray? limits) (fun _ _ a hlists ↦ hlists.visitPrimitiveArray a)
    g.primitiveArrays
  have hlists := hprimitive.foldl (Survey.visitObjectArray g limits)
    (flaggedObjectArray? g limits) (fun _ _ a hlists ↦ hlists.visitObjectArray a) g.objectArrays
  have hcounts := (hcovers.counts.foldl (Survey.visitPrimitiveArray limits)
    (fun _ _ hcounts ↦ hcounts.acceptIf _ _ _) g.primitiveArrays).foldl
      (Survey.visitObjectArray g limits) (fun _ _ hcounts ↦ hcounts.acceptIf _ _ _) g.objectArrays
  cases hc
  rw [Survey.classification, hlists.candidates, hcounts.tallies, hlists.bigObjects]
  rfl

theorem gallery_classified :
    classify Gallery.graph Gallery.settings = .ok Gallery.classification ∧
      Gallery.classification = reference Gallery.graph Gallery.settings ∧
      (UInt64.ofNat (pixels Gallery.graph Gallery.bitmap)).toNat =
        pixels Gallery.graph Gallery.bitmap := by
  obtain ⟨heq, hexact⟩ := classify_eq_reference Gallery.classify_eq
  exact ⟨Gallery.classify_eq, heq, hexact Gallery.bitmap⟩

end HeapSentry.Leak
