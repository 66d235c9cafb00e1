import HeapSentry.Proofs.Leak.Classifying
import HeapSentry.Proofs.Leak.Members
import HeapSentry.Proofs.Leak.RenamedSearch

/-!
# Classifying a renamed heap

The rules of the classification compare the ids of classes with each other and look at names and
values otherwise.  Together with the search this makes ids mere handles: under an injective renaming
of all ids the candidates, tallies and findings are the same up to the renaming.
-/

namespace HeapSentry.Leak

open Heap

variable {f : ObjectId → ObjectId} {g g' : Graph} {limits : Settings.Analysis}

/-! ## Families -/

def Markers.rename (f : ObjectId → ObjectId) (m : Markers) : Markers where
  activity := m.activity.map f
  fragment := m.fragment.map (Heap.Class.rename f)
  bitmap := m.bitmap.map f
  tallyOnly := m.tallyOnly.map f

namespace Markers

theorem ofGraph_rename (hg : g.IsRenaming f g') :
    ofGraph g' = (ofGraph g).rename f := by
  have hid (name : String) : (g'.classNamed? name).map Heap.Class.id =
      ((g.classNamed? name).map Heap.Class.id).map f := by
    rw [hg.classNamed?_eq]
    cases g.classNamed? name <;> rfl
  have hfragment : fragmentClassNames.findSome? g'.classNamed? =
      (fragmentClassNames.findSome? g.classNamed?).map (Heap.Class.rename f) := by
    rw [List.map_findSome?]
    congr 1
    funext name
    exact hg.classNamed?_eq name
  have htallyOnly : tallyOnlyClassNames.filterMap
        (fun name ↦ (g'.classNamed? name).map Heap.Class.id) =
      (tallyOnlyClassNames.filterMap
        fun name ↦ (g.classNamed? name).map Heap.Class.id).map f := by
    rw [List.map_filterMap]
    congr 1
    funext name
    exact hid name
  unfold ofGraph rename
  rw [htallyOnly, hfragment, hid, hid]

theorem family_rename (hf : f.Injective) (m : Markers) (first fourth : Option ObjectId) :
    (m.rename f).family (first.map f) (fourth.map f) = m.family first fourth := by
  have hbeq (a b : Option ObjectId) : (a.map f == b.map f) = (a == b) :=
    (Option.map_injective hf).beq_eq
  have hfragment : (m.rename f).fragment.map Heap.Class.id =
      (m.fragment.map Heap.Class.id).map f := by
    rw [rename]
    cases m.fragment <;> rfl
  have htallyOnly : (first.map f).any (m.rename f).tallyOnly.contains =
      first.any m.tallyOnly.contains := by
    cases first with
    | none => rfl
    | some id => exact contains_map hf m.tallyOnly id
  rw [family, family, hfragment, htallyOnly]
  simp only [rename, hbeq, Option.isSome_map]

theorem familyOf_rename (hg : g.IsRenaming f g') (m : Markers) (classId : ObjectId) :
    (m.rename f).familyOf g' (f classId) = m.familyOf g classId := by
  have hheight (chain : List Heap.Class) (height : Nat) :
      atHeight (chain.map (Heap.Class.rename f)) height = (atHeight chain height).map f := by
    rw [atHeight, atHeight, ← List.map_reverse, List.getElem?_map]
    cases chain.reverse[height]? <;> rfl
  simp only [familyOf, hg.superclassChain_eq, hheight, family_rename hg.injective]

end Markers

/-! ## Rules -/

theorem isDetached_rename (hg : g.IsRenaming f g') (base : Heap.Class) (i : Instance) :
    isDetached g' (base.rename f) (i.rename f) = isDetached g base i := by
  have hname : (base.rename f).name = base.name := rfl
  rw [isDetached, isDetached, hname, hg.field_eq, hg.boolField_eq]
  congr 1
  · cases g.field i base.name "mFragmentManager" with
    | error fault => rfl
    | ok value =>
        cases value with
        | object target => cases target <;> rfl
        | _ => rfl
  · cases g.boolField i base.name "mCalled" <;> rfl

theorem activityFlag_rename (hg : g.IsRenaming f g') (i : Instance) :
    activityFlag g' (i.rename f) = renameResult f id (activityFlag g i) := by
  rw [activityFlag, activityFlag, hg.boolField_eq, hg.boolField_eq]
  refine bind_renameResult (fun destroyed ↦ ?_) _
  refine bind_renameResult (fun finished ↦ ?_) _
  rfl

theorem bitmapFlag_rename (hg : g.IsRenaming f g') (limits : Settings.Analysis)
    (i : Instance) :
    bitmapFlag g' limits (i.rename f) = renameResult f id (bitmapFlag g limits i) := by
  rw [bitmapFlag, bitmapFlag, hg.intField_eq, hg.intField_eq]
  refine bind_renameResult (fun width ↦ ?_) _
  refine bind_renameResult (fun height ↦ ?_) _
  rfl

theorem instanceFlag_rename (hg : g.IsRenaming f g') (limits : Settings.Analysis)
    (m : Markers) (i : Instance) (family : Family) :
    instanceFlag g' limits (m.rename f) (i.rename f) family =
      renameResult f id (instanceFlag g limits m i family) := by
  cases family with
  | activity => exact activityFlag_rename hg i
  | bitmap => exact bitmapFlag_rename hg limits i
  | fragment =>
      have hflag : fragmentFlag g' (m.rename f) (i.rename f) = fragmentFlag g m i := by
        have hbases : (fun base ↦ isDetached g' (base.rename f) (i.rename f)) =
            (isDetached g · i) := funext fun base ↦ isDetached_rename hg base i
        rw [fragmentFlag, fragmentFlag, Markers.rename, Option.any_map]
        exact congrArg (fun test ↦ if m.fragment.any test then _ else _) hbases
      exact congrArg Except.ok hflag
  | tallyOnly => rfl
  | other => rfl

theorem classNameOr_rename (hg : g.IsRenaming f g') (other : String) (classId : ObjectId) :
    classNameOr other g' (f classId) = classNameOr other g classId := by
  rw [classNameOr, classNameOr, hg.class?_eq]
  cases g.class? classId <;> rfl

/-! ## The pass -/

/-- What a large object is described by, apart from its id. -/
def BigObject.features (b : BigObject) : String × UInt64 × Option String :=
  (b.className, b.size, b.detail)

namespace Survey

/-- A survey has seen, under the new ids, what another one has seen. -/
structure Renames (f : ObjectId → ObjectId) (s s' : Survey) : Prop where
  families : IsRenamed f id s.families s'.families
  tallies : s'.tallies = s.tallies
  tallySlots : IsRenamed f id s.tallySlots s'.tallySlots
  candidates : s'.candidates = s.candidates.map (Candidate.rename f)
  accepted : s'.accepted = s.accepted
  bigObjects : s'.bigObjects.map BigObject.features = s.bigObjects.map BigObject.features

variable {s s' : Survey}

theorem renames_empty (f : ObjectId → ObjectId) : Renames f {} {} where
  families := isRenamed_empty f id
  tallies := rfl
  tallySlots := isRenamed_empty f id
  candidates := Array.map_empty.symm
  accepted := rfl
  bigObjects := rfl

theorem Renames.familyOf (h : Renames f s s') (hg : g.IsRenaming f g') (m : Markers)
    (classId : ObjectId) :
    (s'.familyOf g' (m.rename f) (f classId)).1 = (s.familyOf g m classId).1 ∧
      Renames f (s.familyOf g m classId).2
        (s'.familyOf g' (m.rename f) (f classId)).2 := by
  have hknown : s'.families[f classId]? = s.families[classId]? := by
    rw [h.families classId, Option.map_id_fun, id_eq]
  unfold Survey.familyOf
  rw [hknown, Markers.familyOf_rename hg]
  cases s.families[classId]? with
  | some family => exact ⟨rfl, h⟩
  | none =>
      refine ⟨rfl, ?_⟩
      exact { h with families := h.families.insert hg.injective classId (m.familyOf g classId) }

theorem Renames.tally (h : Renames f s s') (hg : g.IsRenaming f g') (classId : ObjectId)
    (leaking : Bool) :
    Renames f (s.tally g classId leaking) (s'.tally g' (f classId) leaking) := by
  have hslot : s'.tallySlots[f classId]? = s.tallySlots[classId]? := by
    rw [h.tallySlots classId, Option.map_id_fun, id_eq]
  unfold Survey.tally
  rw [hslot, classNameOr_rename hg, h.tallies]
  cases s.tallySlots[classId]? with
  | some slot => exact { h with tallies := rfl }
  | none =>
      refine { h with tallies := rfl, tallySlots := ?_ }
      exact h.tallySlots.insert hg.injective classId s.tallies.size

theorem Renames.acceptIf (h : Renames f s s') (id : ObjectId) (className : String)
    (flag : Option Flag) :
    Renames f (s.acceptIf id className flag) (s'.acceptIf (f id) className flag) := by
  cases flag with
  | none => exact h
  | some flag =>
      unfold Survey.acceptIf Survey.accept
      rw [h.accepted]
      simp only
      split
      · exact h
      · refine { h with accepted := rfl, candidates := ?_, bigObjects := ?_ }
        · simp only [h.candidates, Array.map_push]
          rfl
        · cases flag.size with
          | none => exact h.bigObjects
          | some size =>
              simp only [Array.map_push, h.bigObjects]
              rfl

theorem Renames.visitPrimitiveArray (h : Renames f s s') (a : PrimitiveArray) :
    Renames f (s.visitPrimitiveArray limits a) (s'.visitPrimitiveArray limits (a.rename f)) :=
  h.acceptIf a.id a.className (primitiveArrayFlag limits a)

theorem Renames.visitObjectArray (h : Renames f s s') (hg : g.IsRenaming f g')
    (a : ObjectArray) :
    Renames f (s.visitObjectArray g limits a)
      (s'.visitObjectArray g' limits (a.rename f)) := by
  have hname : objectArrayClassName g' (a.rename f) = objectArrayClassName g a :=
    classNameOr_rename hg "java.lang.Object[]" a.classId
  have hflag : objectArrayFlag limits (a.rename f) = objectArrayFlag limits a := by
    simp [objectArrayFlag, ObjectArray.byteSize, ObjectArray.rename]
  unfold Survey.visitObjectArray
  rw [hname, hflag]
  exact h.acceptIf a.id (objectArrayClassName g a) (objectArrayFlag limits a)

/-- Two passes agree: both go on with surveys of the same things, or both end with one fault. -/
inductive Agree (f : ObjectId → ObjectId) : Except Fault Survey → Except Fault Survey → Prop where
  | goOn {s s' : Survey} (h : Renames f s s') : Agree f (.ok s) (.ok s')
  | fail (fault : Fault) : Agree f (.error fault) (.error (fault.rename f))

theorem Agree.bind {x x' : Except Fault Survey} (h : Agree f x x')
    {next next' : Survey → Except Fault Survey}
    (hnext : ∀ s s', Renames f s s' → Agree f (next s) (next' s')) :
    Agree f (x >>= next) (x' >>= next') := by
  cases h with
  | goOn hs => exact hnext _ _ hs
  | fail fault => exact .fail fault

theorem Renames.visitInstance (h : Renames f s s') (hg : g.IsRenaming f g') (m : Markers)
    (i : Instance) :
    Agree f (s.visitInstance g limits m i)
      (s'.visitInstance g' limits (m.rename f) (i.rename f)) := by
  have hclass : g'.class? (i.rename f).classId = _ := hg.class?_eq i.classId
  unfold Survey.visitInstance
  rw [hclass]
  cases hc : g.class? i.classId with
  | none => exact .fail (.unknownObject i.classId)
  | some c =>
      have hname : (c.rename f).name = c.name := rfl
      obtain ⟨hfamily, hknown⟩ := h.familyOf hg m i.classId
      simp only [Option.map_some, hname]
      split
      · exact .goOn h
      · have hid : (i.rename f).classId = f i.classId := rfl
        rw [hid]
        revert hfamily hknown
        generalize s.familyOf g m i.classId = found
        generalize s'.familyOf g' (m.rename f) (f i.classId) = found'
        obtain ⟨family, known⟩ := found
        obtain ⟨family', known'⟩ := found'
        rintro (rfl : family' = family) (hknown : Renames f known known')
        simp only [instanceFlag_rename hg]
        cases instanceFlag g limits m i family' with
        | error fault => exact .fail fault
        | ok flag =>
            refine .goOn (Renames.acceptIf ?_ i.id c.name flag)
            split
            · exact hknown
            · exact hknown.tally hg i.classId flag.isSome

theorem agree_foldlM (hg : g.IsRenaming f g') (limits : Settings.Analysis)
    (is : List Instance) {s s' : Survey} (h : Renames f s s') :
    Agree f (is.foldlM (visitInstance g limits (.ofGraph g)) s)
      ((is.map (Instance.rename f)).foldlM
        (visitInstance g' limits (.ofGraph g')) s') := by
  induction is generalizing s s' with
  | nil => exact .goOn h
  | cons i is ih =>
      have hvisit : Agree f (visitInstance g limits (.ofGraph g) s i) _ :=
        h.visitInstance hg (.ofGraph g) i
      rw [← Markers.ofGraph_rename hg] at hvisit
      rw [List.map_cons, List.foldlM_cons, List.foldlM_cons]
      exact hvisit.bind fun _ _ hnext ↦ ih hnext

end Survey

theorem foldl_visitPrimitiveArray_rename (limits : Settings.Analysis) (as : List PrimitiveArray)
    {s s' : Survey} (h : s.Renames f s') :
    (as.foldl (Survey.visitPrimitiveArray limits) s).Renames f
      ((as.map (PrimitiveArray.rename f)).foldl (Survey.visitPrimitiveArray limits) s') := by
  induction as generalizing s s' with
  | nil => exact h
  | cons a as ih => exact ih (h.visitPrimitiveArray a)

theorem foldl_visitObjectArray_rename (hg : g.IsRenaming f g') (limits : Settings.Analysis)
    (as : List ObjectArray) {s s' : Survey} (h : s.Renames f s') :
    (as.foldl (Survey.visitObjectArray g limits) s).Renames f
      ((as.map (ObjectArray.rename f)).foldl
        (Survey.visitObjectArray g' limits) s') := by
  induction as generalizing s s' with
  | nil => exact h
  | cons a as ih => exact ih (h.visitObjectArray hg a)

/-- The classification of a heap under other ids: the same fault, or the same candidates and
tallies, and large objects of the same description. -/
def Classification.IsRenamed (f : ObjectId → ObjectId) :
    Except Fault Classification → Except Fault Classification → Prop
  | .ok c, result => ∃ bigObjects, result =
      .ok ⟨c.candidates.map (Candidate.rename f), c.tallies, bigObjects⟩ ∧
        bigObjects.map BigObject.features = c.bigObjects.map BigObject.features
  | .error fault, result => result = .error (fault.rename f)

theorem Survey.Renames.classification {s s' : Survey} (h : s.Renames f s') :
    Classification.IsRenamed f (.ok s.classification) (.ok s'.classification) := by
  refine ⟨s'.bigObjects.toList, ?_, ?_⟩
  · rw [Survey.classification, h.candidates, h.tallies, Array.toList_map]
    rfl
  · rw [← Array.toList_map, h.bigObjects, Array.toList_map]
    rfl

theorem Classification.isRenamed_bind {x x' : Except Fault Survey} (h : Survey.Agree f x x')
    {next next' : Survey → Except Fault Classification}
    (hnext : ∀ s s' : Survey, s.Renames f s' → IsRenamed f (next s) (next' s')) :
    IsRenamed f (x >>= next) (x' >>= next') := by
  cases h with
  | goOn hs => exact hnext _ _ hs
  | fail fault => rfl

theorem classify_rename (hg : g.IsRenaming f g') (limits : Settings.Analysis) :
    Classification.IsRenamed f (classify g limits) (classify g' limits) := by
  rw [classify, classify, hg.instances_eq, hg.primitiveArrays_eq, hg.objectArrays_eq]
  have hinstances := Survey.agree_foldlM hg limits g.instances (Survey.renames_empty f)
  refine Classification.isRenamed_bind hinstances fun s s' h ↦ ?_
  have hprimitive := foldl_visitPrimitiveArray_rename limits g.primitiveArrays h
  have hall := foldl_visitObjectArray_rename hg limits g.objectArrays hprimitive
  exact hall.classification

/-! ## Ids are handles -/

/-- Under an injective renaming of all ids the findings are the renamed ones: the same groups in the
same order, with the same signatures, traces and descriptions.  A fault is the renamed fault, and
the classification gives the renamed candidates and the same tallies. -/
theorem analysis_equivariant (hg : g.IsRenaming f g') (candidates : List Candidate)
    (ms : List Matcher) (limits : Settings.Analysis) :
    findPaths g' (candidates.map (Candidate.rename f)) ms =
        renameResult f (Findings.rename f) (findPaths g candidates ms) ∧
      Classification.IsRenamed f (classify g limits) (classify g' limits) :=
  ⟨findPaths_rename hg candidates ms, classify_rename hg limits⟩

/-- Ids that carry a tag of another dump. -/
def retag (id : ObjectId) : ObjectId := id ^^^ 0x700000000

theorem retag_injective : Function.Injective retag := by
  intro id other h
  simpa [retag] using h

theorem retagged_heaps_agree :
    Detour.graph.IsRenaming retag (Detour.graph.rename retag) ∧
      findPaths (Detour.graph.rename retag) (Detour.candidates.map (Candidate.rename retag))
        Detour.matchers = .ok (Detour.findings.rename retag) ∧
      ∃ bigObjects, classify (Gallery.graph.rename retag) Gallery.settings =
        .ok ⟨Gallery.classification.candidates.map (Candidate.rename retag),
          Gallery.classification.tallies, bigObjects⟩ := by
  have hdetour := Graph.isRenaming_rename retag_injective Detour.graph
  have hgallery := Graph.isRenaming_rename retag_injective Gallery.graph
  have hfindings := (analysis_equivariant hdetour Detour.candidates Detour.matchers {}).1
  have hclassification := (analysis_equivariant hgallery [] [] Gallery.settings).2
  rw [Detour.findPaths_eq] at hfindings
  rw [Gallery.classify_eq] at hclassification
  obtain ⟨bigObjects, hclassify, -⟩ := hclassification
  exact ⟨hdetour, hfindings, bigObjects, hclassify⟩

end HeapSentry.Leak
