import HeapSentry.Proofs.Heap.Superclasses
import HeapSentry.Proofs.Leak.Classifying

/-!
# Families and superclasses

The heights at which watched base classes are looked for tell the classes below them from all other
ones, provided that the base classes themselves stand at these heights.
-/

namespace HeapSentry.Leak

open Heap

variable {g : Graph} {base : Heap.Class} {height : Nat}

/-- Whether a class is another one or has it among its superclasses. -/
def isBelow (g : Graph) (classId : ObjectId) (base : Heap.Class) : Bool :=
  (g.superclassChain classId).any (·.id == base.id)

/-- The family of a class by the watched base classes that it is below. -/
def familyBelow (g : Graph) (classId : ObjectId) : Family :=
  if (g.classNamed? activityClassName).any (isBelow g classId) then .activity
  else if (fragmentClassNames.findSome? g.classNamed?).any (isBelow g classId) then .fragment
  else if (g.classNamed? bitmapClassName).any (isBelow g classId) then .bitmap
  else if (tallyOnlyClassNames.filterMap g.classNamed?).any (isBelow g classId) then .tallyOnly
  else .other

/-- Whether the watched base classes of a heap have the heights at which they are looked for. -/
structure HasWatchedHeights (g : Graph) : Prop where
  activity : ∀ base, g.classNamed? activityClassName = some base → g.HasHeight base.id 4
  fragment : ∀ base, fragmentClassNames.findSome? g.classNamed? = some base →
    g.HasHeight base.id 1
  bitmap : ∀ base, g.classNamed? bitmapClassName = some base → g.HasHeight base.id 1
  tallyOnly : ∀ name ∈ tallyOnlyClassNames, ∀ base, g.classNamed? name = some base →
    g.HasHeight base.id 1

/-! ## One base class -/

theorem class?_of_classNamed? (hg : g.IsLabelled) {name : String}
    (h : g.classNamed? name = some base) : g.class? base.id = some base := by
  obtain ⟨id, -, hclass⟩ := Option.bind_eq_some_iff.1 h
  rwa [hg.id_of_class? hclass]

theorem isBelow_iff_mem (hg : g.IsLabelled) (classId : ObjectId)
    (hbase : g.class? base.id = some base) :
    isBelow g classId base = true ↔ base ∈ g.superclassChain classId :=
  (Graph.isSuperclassChain hg classId).linked.any_id hg hbase

theorem atHeight_eq_iff (hg : g.IsLabelled) (classId : ObjectId)
    (hbase : g.class? base.id = some base) (hheight : g.HasHeight base.id height) :
    Markers.atHeight (g.superclassChain classId) height = some base.id ↔
      isBelow g classId base = true := by
  have hchain := Graph.isSuperclassChain hg classId
  rw [Markers.atHeight, Option.map_eq_some_iff]
  constructor
  · rintro ⟨c, hc, heq⟩
    rw [isBelow, List.any_eq_true]
    exact ⟨c, List.mem_reverse.1 (List.mem_of_getElem? hc), beq_iff_eq.2 heq⟩
  · intro hbelow
    have hmem := (isBelow_iff_mem hg classId hbase).1 hbelow
    obtain ⟨before, hsplit⟩ := hchain.isSuffix hg (Graph.isSuperclassChain hg base.id)
      hheight.endsOpen hmem rfl
    have hlt : height < (g.superclassChain base.id).length := by
      rw [hheight.length_eq]
      exact Nat.lt_succ_self height
    refine ⟨base, ?_, rfl⟩
    rw [← hsplit, List.reverse_append,
      List.getElem?_append_left (by rwa [List.length_reverse]), List.getElem?_reverse hlt,
      hheight.length_eq, Nat.add_sub_cancel, Nat.sub_self, ← List.head?_eq_getElem?]
    exact (g.head?_superclassChain base.id).trans hbase

theorem isMarked_eq (hg : g.IsLabelled) (classId : ObjectId) {base? : Option Heap.Class}
    (hbase : ∀ base, base? = some base → g.class? base.id = some base)
    (hheight : ∀ base, base? = some base → g.HasHeight base.id height) :
    (base?.isSome && base?.map Heap.Class.id ==
      Markers.atHeight (g.superclassChain classId) height) = base?.any (isBelow g classId) := by
  cases base? with
  | none => rfl
  | some base =>
      have hiff := atHeight_eq_iff hg classId (hbase base rfl) (hheight base rfl)
      rw [Bool.eq_iff_iff, Option.any_some, ← hiff, Option.isSome_some, Bool.true_and, beq_iff_eq]
      exact eq_comm

theorem isTallied_eq (hg : g.IsLabelled) (classId : ObjectId) {bases : List Heap.Class}
    (hbase : ∀ base ∈ bases, g.class? base.id = some base)
    (hheight : ∀ base ∈ bases, g.HasHeight base.id height) :
    (Markers.atHeight (g.superclassChain classId) height).any (bases.map Heap.Class.id).contains =
      bases.any (isBelow g classId) := by
  have hiff : ∀ base ∈ bases, Markers.atHeight (g.superclassChain classId) height = some base.id ↔
      isBelow g classId base = true :=
    fun base hmem ↦ atHeight_eq_iff hg classId (hbase base hmem) (hheight base hmem)
  rw [Bool.eq_iff_iff, Option.any_eq_true, List.any_eq_true]
  constructor
  · rintro ⟨id, hid, hcontains⟩
    obtain ⟨base, hmem, rfl⟩ := List.mem_map.1 (List.contains_iff_mem.1 hcontains)
    exact ⟨base, hmem, (hiff base hmem).1 hid⟩
  · rintro ⟨base, hmem, hbelow⟩
    exact ⟨base.id, (hiff base hmem).2 hbelow, List.contains_iff_mem.2 (List.mem_map_of_mem hmem)⟩

/-! ## All base classes -/

theorem familyOf_eq_familyBelow (hg : g.IsLabelled) (hheights : HasWatchedHeights g)
    (classId : ObjectId) :
    (Markers.ofGraph g).familyOf g classId = familyBelow g classId := by
  have hnamed : ∀ name base, g.classNamed? name = some base → g.class? base.id = some base :=
    fun _ _ ↦ class?_of_classNamed? hg
  have hactivity := isMarked_eq hg classId (hnamed _) hheights.activity
  have hfragment := isMarked_eq hg classId
    (fun base hbase ↦ by
      obtain ⟨name, -, hname⟩ := List.exists_of_findSome?_eq_some hbase
      exact hnamed name base hname) hheights.fragment
  have hbitmap := isMarked_eq hg classId (hnamed _) hheights.bitmap
  have htallied : ∀ base ∈ tallyOnlyClassNames.filterMap g.classNamed?,
      g.class? base.id = some base ∧ g.HasHeight base.id 1 := by
    intro base hbase
    obtain ⟨name, hmem, hname⟩ := List.mem_filterMap.1 hbase
    exact ⟨hnamed name base hname, hheights.tallyOnly name hmem base hname⟩
  have htally := isTallied_eq hg classId (fun base hbase ↦ (htallied base hbase).1)
    fun base hbase ↦ (htallied base hbase).2
  have htallyOnly : (Markers.ofGraph g).tallyOnly =
      (tallyOnlyClassNames.filterMap g.classNamed?).map Heap.Class.id := by
    rw [List.map_filterMap]
    rfl
  rw [Markers.familyOf, Markers.family, htallyOnly, htally, familyBelow, ← hactivity, ← hfragment,
    ← hbitmap]
  simp [Markers.ofGraph]

/-! ## A lineage -/

namespace Lineage

def screen : Instance :=
  ⟨0x700000010, 6, [⟨5, "mDestroyed", .boolean false⟩, ⟨5, "mFinished", .boolean true⟩]⟩

/-- Watched classes and a screen; one class is its own superclass, and one has lost its. -/
def objects : List Object :=
  [.ofClass ⟨1, "java.lang.Object", none, []⟩, .ofClass ⟨2, "android.content.Context", some 1, []⟩,
    .ofClass ⟨3, "android.content.ContextWrapper", some 2, []⟩,
    .ofClass ⟨4, "android.view.ContextThemeWrapper", some 3, []⟩,
    .ofClass ⟨5, activityClassName, some 4, []⟩, .ofClass ⟨6, "com.example.Screen", some 5, []⟩,
    .ofClass ⟨7, bitmapClassName, some 1, []⟩, .ofClass ⟨8, "android.app.Fragment", some 1, []⟩,
    .ofClass ⟨9, "android.view.Window", some 1, []⟩,
    .ofClass ⟨10, "com.example.Ring", some 10, []⟩,
    .ofClass ⟨11, "com.example.Orphan", some 99, []⟩, .ofInstance screen]

def graph : Graph := objects.foldl Graph.place .empty

theorem nodup_ids : (objects.map Object.id).Nodup := by decide

theorem isBuilt : graph.IsBuilt := Graph.isBuilt_foldl_place nodup_ids

theorem class?_eq (id : ObjectId) :
    graph.class? id = (objects.find? (·.id == id)).bind Object.class? :=
  Graph.class?_foldl_place nodup_ids id

theorem classNamed?_eq (name : String) : graph.classNamed? name =
    (objects.filterMap Object.class?).find? (·.name == name) :=
  Graph.classNamed?_foldl_place nodup_ids name

theorem named_activity :
    graph.classNamed? activityClassName = some ⟨5, activityClassName, some 4, []⟩ := by
  simp [classNamed?_eq, objects, Object.class?, activityClassName]

theorem named_fragment : fragmentClassNames.findSome? graph.classNamed? =
    some ⟨8, "android.app.Fragment", some 1, []⟩ := by
  simp [fragmentClassNames, classNamed?_eq, objects, Object.class?, activityClassName,
    bitmapClassName]

theorem named_bitmap :
    graph.classNamed? bitmapClassName = some ⟨7, bitmapClassName, some 1, []⟩ := by
  simp [classNamed?_eq, objects, Object.class?, activityClassName, bitmapClassName]

theorem named_tallyOnly : tallyOnlyClassNames.filterMap graph.classNamed? =
    [⟨9, "android.view.Window", some 1, []⟩] := by
  simp [tallyOnlyClassNames, classNamed?_eq, objects, Object.class?, activityClassName,
    bitmapClassName]

theorem size_eq : graph.size = 12 := rfl

theorem superclassChain_five : graph.superclassChain 5 = [⟨5, activityClassName, some 4, []⟩,
    ⟨4, "android.view.ContextThemeWrapper", some 3, []⟩,
    ⟨3, "android.content.ContextWrapper", some 2, []⟩, ⟨2, "android.content.Context", some 1, []⟩,
    ⟨1, "java.lang.Object", none, []⟩] := by
  simp [Graph.superclassChain, size_eq, Graph.extendChain, class?_eq, objects, Object.id,
    Object.class?]

theorem hasHeight_first {id : ObjectId} {name : String}
    (h : graph.class? id = some ⟨id, name, some 1, []⟩) (hid : id ≠ 1) : graph.HasHeight id 1 := by
  have hone : graph.class? 1 = some ⟨1, "java.lang.Object", none, []⟩ := by
    rw [class?_eq]
    rfl
  constructor <;>
    simp [Graph.superclassChain, size_eq, Graph.extendChain, h, hone, hid, Graph.EndsOpen,
      Graph.beyond]

theorem hasWatchedHeights : HasWatchedHeights graph where
  activity base hbase := by
    obtain rfl := Option.some.inj (named_activity.symm.trans hbase)
    constructor <;> simp [superclassChain_five, Graph.EndsOpen, Graph.beyond]
  fragment base hbase := by
    obtain rfl := Option.some.inj (named_fragment.symm.trans hbase)
    exact hasHeight_first (by rw [class?_eq]; rfl) (by decide)
  bitmap base hbase := by
    obtain rfl := Option.some.inj (named_bitmap.symm.trans hbase)
    exact hasHeight_first (by rw [class?_eq]; rfl) (by decide)
  tallyOnly name hname base hbase := by
    have hmem : base ∈ tallyOnlyClassNames.filterMap graph.classNamed? :=
      List.mem_filterMap.2 ⟨name, hname, hbase⟩
    rw [named_tallyOnly, List.mem_singleton] at hmem
    subst hmem
    exact hasHeight_first (by rw [class?_eq]; rfl) (by decide)

theorem familyBelow_screen : familyBelow graph 6 = .activity := by
  simp [familyBelow, named_activity, isBelow, Graph.superclassChain, size_eq, Graph.extendChain,
    class?_eq, objects, Object.id, Object.class?]

theorem familyBelow_ring : familyBelow graph 10 = .other := by
  simp [familyBelow, named_activity, named_fragment, named_bitmap, named_tallyOnly, isBelow,
    Graph.superclassChain, size_eq, Graph.extendChain, class?_eq, objects, Object.id, Object.class?]

theorem visited : ∃ s : Survey,
    [screen].foldlM (Survey.visitInstance graph {} (.ofGraph graph)) {} = .ok s := by
  have hfamily : (Markers.ofGraph graph).familyOf graph 6 = .activity :=
    (familyOf_eq_familyBelow isBuilt.isLabelled hasWatchedHeights 6).trans familyBelow_screen
  have hclass : graph.class? 6 = some ⟨6, "com.example.Screen", some 5, []⟩ := by
    rw [class?_eq]
    rfl
  have hdeclaring : graph.class? 5 = some ⟨5, activityClassName, some 4, []⟩ := by
    rw [class?_eq]
    rfl
  have hwrapper : isPrimitiveWrapper "com.example.Screen" = false := by decide
  have hflag : activityFlag graph screen = .ok (some ⟨"Activity Leak", none, none⟩) := by
    simp [activityFlag, Graph.boolField, Graph.field, Graph.declares, screen, hdeclaring,
      FieldValue.boolean?, bind, Except.bind]
  have hid : screen.classId = 6 := rfl
  simp [Survey.visitInstance, hid, hclass, hwrapper, Survey.familyOf, hfamily, instanceFlag, hflag,
    bind, Except.bind, pure, Except.pure]

end Lineage

/-! ## The families -/

/-- The families that are found by heights are those of the classes below watched base classes, and
a pass that has kept some of them finds no other ones. -/
theorem familyOf_tells_superclasses (hg : g.IsBuilt) (hheights : HasWatchedHeights g)
    {limits : Settings.Analysis} {is : List Instance} {s : Survey}
    (hs : is.foldlM (Survey.visitInstance g limits (.ofGraph g)) {} = .ok s)
    (classId : ObjectId) :
    (Markers.ofGraph g).familyOf g classId = familyBelow g classId ∧
      (s.familyOf g (.ofGraph g) classId).1 = (Markers.ofGraph g).familyOf g classId :=
  ⟨familyOf_eq_familyBelow hg.isLabelled hheights classId,
    ((Survey.covers_of_foldlM hs).knows.familyOf classId).1⟩

/-- A screen counts as an activity, also when its class is met again; a class that is its own
superclass is of no watched family. -/
theorem lineage_families_told : Lineage.graph.IsBuilt ∧ HasWatchedHeights Lineage.graph ∧
    ∃ s : Survey, [Lineage.screen].foldlM
        (Survey.visitInstance Lineage.graph {} (.ofGraph Lineage.graph)) {} = .ok s ∧
      (s.familyOf Lineage.graph (.ofGraph Lineage.graph) 6).1 = .activity ∧
      (Markers.ofGraph Lineage.graph).familyOf Lineage.graph 10 = .other := by
  obtain ⟨s, hs⟩ := Lineage.visited
  have hscreen := familyOf_tells_superclasses Lineage.isBuilt Lineage.hasWatchedHeights hs 6
  have hring := familyOf_tells_superclasses Lineage.isBuilt Lineage.hasWatchedHeights hs 10
  refine ⟨Lineage.isBuilt, Lineage.hasWatchedHeights, s, hs, ?_, ?_⟩
  · rw [hscreen.2, hscreen.1, Lineage.familyBelow_screen]
  · rw [hring.1, Lineage.familyBelow_ring]

end HeapSentry.Leak
