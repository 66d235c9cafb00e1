import HeapSentry.Proofs.Heap.Building
import HeapSentry.Proofs.Leak.Classifying
import HeapSentry.Proofs.Leak.Members

/-!
# Objects without a class name

A trace needs the class name of every object that it passes.  Instances of unknown classes have been
rejected by the classification before, so that only object arrays of unknown classes are left to
lack one.
-/

namespace HeapSentry

namespace Heap.Graph

variable {g : Graph} {id : ObjectId}

/-- An object array whose class is not in the graph. -/
def IsUntyped (g : Graph) (id : ObjectId) : Prop :=
  ∃ a, g.object? id = some (.ofObjectArray a) ∧ g.class? a.classId = none

theorem className?_isSome_iff (hobject : (g.object? id).isSome)
    (hclass : ∀ i, g.object? id = some (.ofInstance i) → (g.class? i.classId).isSome) :
    (g.className? id).isSome ↔ ¬ g.IsUntyped id := by
  obtain ⟨o, ho⟩ := Option.isSome_iff_exists.1 hobject
  cases o with
  | ofClass c => simp [className?, IsUntyped, ho]
  | ofInstance i =>
      have hknown := hclass i ho
      simp [className?, IsUntyped, ho, hknown]
  | ofObjectArray a => simp [className?, IsUntyped, ho, Option.isSome_iff_ne_none]
  | ofPrimitiveArray a => simp [className?, IsUntyped, ho]

theorem object?_isSome_of_mem_references {r : Reference} (h : r ∈ g.references id) :
    (g.object? id).isSome := by
  unfold references at h
  split at h
  next o ho => simp [ho]
  next => simp at h

theorem Leads.object?_isSome {admits : Reference → Prop} {source : ObjectId}
    {way : List Reference} (h : g.Leads admits source way id) :
    ∀ r ∈ way, (g.object? r.source).isSome := by
  induction h with
  | nil => simp
  | snoc _ hmem _ ih =>
      intro r hr
      rcases List.mem_append.1 hr with hr | hr
      · exact ih r hr
      · obtain rfl := List.mem_singleton.1 hr
        rw [source_of_mem_references hmem]
        exact object?_isSome_of_mem_references hmem

end Heap.Graph

namespace Leak

open Heap Matcher

variable {ms : List Matcher} {g : Graph} {limits : Settings.Analysis} {s : Search}
  {candidates : List Candidate} {c : Candidate} {result : Classification} {id : ObjectId}

/-! ## When findings are made -/

theorem exists_classNameOf_iff :
    (∃ name, classNameOf g id = .ok name) ↔ (g.className? id).isSome := by
  simp only [classNameOf_eq_ok_iff, Option.isSome_iff_exists]

theorem Hop.exists_ofReference_iff {r : Reference} :
    (∃ hop, Hop.ofReference g r = .ok hop) ↔ (g.className? r.source).isSome := by
  rw [← exists_classNameOf_iff]
  constructor
  · rintro ⟨hop, hhop⟩
    obtain ⟨name, hname, -⟩ := bind_eq_ok_iff.1 hhop
    exact ⟨name, hname⟩
  · rintro ⟨name, hname⟩
    exact ⟨_, bind_eq_ok_iff.2 ⟨name, hname, rfl⟩⟩

theorem Leaking.exists_ofCandidate_iff :
    (∃ leaking, Leaking.ofCandidate g c = .ok leaking) ↔ (g.className? c.object).isSome := by
  unfold Leaking.ofCandidate
  cases hobject : g.object? c.object with
  | none => simp [Graph.className?, hobject]
  | some o =>
      rw [← exists_classNameOf_iff]
      constructor
      · rintro ⟨leaking, hleaking⟩
        obtain ⟨name, hname, -⟩ := bind_eq_ok_iff.1 hleaking
        exact ⟨name, hname⟩
      · rintro ⟨name, hname⟩
        exact ⟨_, bind_eq_ok_iff.2 ⟨name, hname, rfl⟩⟩

/-- Whether all objects on the way to an object have a class name, and that object as well. -/
def Search.Names (s : Search) (g : Graph) (id : ObjectId) : Prop :=
  (∀ r ∈ (s.way id).2, (g.className? r.source).isSome) ∧ (g.className? id).isSome

theorem Trace.exists_ofSearch_iff :
    (∃ trace, Trace.ofSearch g s c = .ok trace) ↔ s.Names g c.object := by
  simp only [Search.Names, ← Hop.exists_ofReference_iff, ← Leaking.exists_ofCandidate_iff,
    ← exists_mapM_eq_ok_iff]
  constructor
  · rintro ⟨trace, htrace⟩
    obtain ⟨path, hpath, htrace⟩ := bind_eq_ok_iff.1 htrace
    obtain ⟨leaking, hleaking, -⟩ := bind_eq_ok_iff.1 htrace
    exact ⟨⟨path, hpath⟩, leaking, hleaking⟩
  · rintro ⟨⟨path, hpath⟩, leaking, hleaking⟩
    exact ⟨_, bind_eq_ok_iff.2 ⟨path, hpath, bind_eq_ok_iff.2 ⟨leaking, hleaking, rfl⟩⟩⟩

/-- What is wanted has a candidate, and the first one stands for it. -/
theorem exists_find?_candidate (hid : id ∈ candidates.map Candidate.object) :
    ∃ c, candidates.find? (·.object == id) = some c ∧ c.object = id := by
  have hsome : (candidates.find? (·.object == id)).isSome := by
    obtain ⟨c, hc, rfl⟩ := List.mem_map.1 hid
    exact List.find?_isSome.2 ⟨c, hc, beq_self_eq_true _⟩
  obtain ⟨c, hc⟩ := Option.isSome_iff_exists.1 hsome
  exact ⟨c, hc, by simpa using List.find?_some hc⟩

theorem Member.exists_ofSearch_iff (hid : id ∈ candidates.map Candidate.object) :
    (∃ m, Member.ofSearch g s candidates id = .ok m) ↔ s.Names g id := by
  obtain ⟨c, hc, hobject⟩ := exists_find?_candidate hid
  rw [← hobject, ← Trace.exists_ofSearch_iff, hobject]
  simp only [Member.ofSearch, hc]
  constructor
  · rintro ⟨m, hm⟩
    obtain ⟨trace, htrace, -⟩ := bind_eq_ok_iff.1 hm
    exact ⟨trace, htrace⟩
  · rintro ⟨trace, htrace⟩
    exact ⟨_, bind_eq_ok_iff.2 ⟨trace, htrace, rfl⟩⟩

theorem exists_findPaths_iff : (∃ f, findPaths g candidates ms = .ok f) ↔
    ∀ id ∈ (searchFor g candidates ms).found, (searchFor g candidates ms).Names g id := by
  have hmembers : (∃ members, discovered g candidates ms = .ok members) ↔
      ∀ id ∈ (searchFor g candidates ms).found, (searchFor g candidates ms).Names g id := by
    refine exists_mapM_eq_ok_iff.trans ?_
    simp only [Array.mem_toList_iff]
    exact forall₂_congr fun id hid ↦ Member.exists_ofSearch_iff (mem_searchFor_iff.1 hid).1
  rw [← hmembers]
  constructor
  · rintro ⟨f, hf⟩
    obtain ⟨all, hall, -⟩ := bind_eq_ok_iff.1 hf
    obtain ⟨members, hmembers, -⟩ := bind_eq_ok_iff.1 hall
    exact ⟨members, hmembers⟩
  · rintro ⟨members, hmembers⟩
    exact ⟨_, bind_eq_ok_iff.2 ⟨_, bind_eq_ok_iff.2 ⟨members, hmembers, rfl⟩, rfl⟩⟩

theorem exists_leads_of_found (hid : id ∈ (searchFor g candidates ms).found) :
    ∃ source, g.Leads (IsFollowed ms g) source ((searchFor g candidates ms).way id).2 id := by
  obtain ⟨ways, ho⟩ := Search.exists_outcome ms g (wantedOf candidates)
  have hfound : id ∈ (Search.ofGraph g ms (wantedOf candidates)).found := hid
  obtain ⟨-, v, hv, -⟩ := ho.found.mem_iff.1 hfound
  obtain ⟨source, hchain, -⟩ := ho.recorded.exists_chain hv
  have hway : (searchFor g candidates ms).way id = (v.root, ways id) := ho.recorded.way_eq hv
  rw [hway]
  exact ⟨source, hchain.leads⟩

/-! ## What a classification has looked at -/

namespace Survey

variable {survey survey' : Survey}

theorem candidates_familyOf (survey : Survey) (g : Graph) (m : Markers) (classId : ObjectId) :
    (survey.familyOf g m classId).2.candidates = survey.candidates := by
  unfold familyOf
  split <;> rfl

theorem candidates_tally (survey : Survey) (g : Graph) (classId : ObjectId) (leaking : Bool) :
    (survey.tally g classId leaking).candidates = survey.candidates := by
  unfold tally
  split <;> rfl

theorem mem_candidates_acceptIf {className : String} {flag : Option Flag}
    (h : c ∈ (survey.acceptIf id className flag).candidates) :
    c ∈ survey.candidates ∨ c.object = id := by
  cases flag with
  | none => exact .inl h
  | some flag =>
      simp only [acceptIf, accept] at h
      split at h
      · exact .inl h
      · rcases Array.mem_push.1 h with h | rfl
        · exact .inl h
        · exact .inr rfl

theorem visitInstance_ok {m : Markers} {i : Instance}
    (h : survey.visitInstance g limits m i = .ok survey') :
    (g.class? i.classId).isSome ∧
      ∀ c ∈ survey'.candidates, c ∈ survey.candidates ∨ c.object = i.id := by
  constructor
  · unfold visitInstance at h
    split at h
    next => simp at h
    next known hknown => simp [hknown]
  · intro c hc
    rcases visitInstance_cases h with ⟨-, rfl⟩ | ⟨known, flag, -, -, rfl⟩
    · exact .inl hc
    · rcases mem_candidates_acceptIf hc with hc | hc
      · left
        split at hc
        · rwa [candidates_familyOf] at hc
        · rwa [candidates_tally, candidates_familyOf] at hc
      · exact .inr hc

/-- The classes of the instances visited are known, and the candidates are among them. -/
structure HasVisited (survey : Survey) (g : Graph) (is : List Instance) : Prop where
  classes : ∀ i ∈ is, (g.class? i.classId).isSome
  candidates : ∀ c ∈ survey.candidates, ∃ i ∈ is, i.id = c.object

theorem HasVisited.visitInstance {is : List Instance} {m : Markers} {i : Instance}
    (h : survey.HasVisited g is) (hvisit : survey.visitInstance g limits m i = .ok survey') :
    survey'.HasVisited g (is ++ [i]) := by
  obtain ⟨hknown, hnew⟩ := visitInstance_ok hvisit
  constructor
  · intro i' hi'
    rcases List.mem_append.1 hi' with hi' | hi'
    · exact h.classes i' hi'
    · exact List.mem_singleton.1 hi' ▸ hknown
  · intro c hc
    rcases hnew c hc with hc | hobject
    · obtain ⟨i', hi', heq⟩ := h.candidates c hc
      exact ⟨i', List.mem_append_left _ hi', heq⟩
    · exact ⟨i, List.mem_append_right _ (List.mem_singleton_self i), hobject.symm⟩

theorem hasVisited_of_foldlM {is : List Instance} {m : Markers}
    (h : is.foldlM (Survey.visitInstance g limits m) {} = .ok survey) : survey.HasVisited g is :=
  foldlM_induction (P := fun is survey ↦ survey.HasVisited g is)
    ⟨by simp, by simp⟩ (fun _ _ _ _ hbefore hvisit ↦ hbefore.visitInstance hvisit) h

/-- The candidates are objects of a graph. -/
def IsWithin (survey : Survey) (g : Graph) : Prop :=
  ∀ c ∈ survey.candidates, ∃ o ∈ g.objects, o.id = c.object

theorem HasVisited.isWithin (h : survey.HasVisited g g.instances) : survey.IsWithin g := by
  intro c hc
  obtain ⟨i, hi, hobject⟩ := h.candidates c hc
  exact ⟨.ofInstance i, Graph.ofInstance_mem_objects hi, hobject⟩

theorem IsWithin.acceptIf {o : Object} (h : survey.IsWithin g) (ho : o ∈ g.objects)
    (className : String) (flag : Option Flag) :
    (survey.acceptIf o.id className flag).IsWithin g := by
  intro c hc
  rcases mem_candidates_acceptIf hc with hc | hobject
  · exact h c hc
  · exact ⟨o, ho, hobject.symm⟩

theorem IsWithin.foldl {α : Type} {as : List α} (h : survey.IsWithin g)
    (visit : Survey → α → Survey)
    (hvisit : ∀ survey, survey.IsWithin g → ∀ a ∈ as, (visit survey a).IsWithin g) :
    (as.foldl visit survey).IsWithin g :=
  List.foldlRecOn as visit h hvisit

end Survey

theorem class?_isSome_of_classify (h : classify g limits = .ok result) :
    ∀ i ∈ g.instances, (g.class? i.classId).isSome := by
  obtain ⟨survey, hsurvey, -⟩ := bind_eq_ok_iff.1 h
  exact (Survey.hasVisited_of_foldlM hsurvey).classes

/-- Candidates are objects of the graph. -/
theorem exists_mem_objects_of_classify (h : classify g limits = .ok result) :
    ∀ c ∈ result.candidates, ∃ o ∈ g.objects, o.id = c.object := by
  obtain ⟨survey, hsurvey, heq⟩ := bind_eq_ok_iff.1 h
  have hinstances : survey.IsWithin g := (Survey.hasVisited_of_foldlM hsurvey).isWithin
  have hprimitive := hinstances.foldl (Survey.visitPrimitiveArray limits)
    fun _ hbefore a ha ↦ hbefore.acceptIf (Graph.ofPrimitiveArray_mem_objects ha) a.className
      (primitiveArrayFlag limits a)
  have hobject := hprimitive.foldl (Survey.visitObjectArray g limits)
    fun _ hbefore a ha ↦ hbefore.acceptIf (Graph.ofObjectArray_mem_objects ha)
      (objectArrayClassName g a) (objectArrayFlag limits a)
  cases heq
  intro c hc
  exact hobject c (Array.mem_toList_iff.1 hc)

/-! ## Findings for a classification -/

theorem names_iff (hg : g.IsBuilt) (h : classify g limits = .ok result)
    (hid : id ∈ (searchFor g result.candidates ms).found) :
    (searchFor g result.candidates ms).Names g id ↔ ¬ g.IsUntyped id ∧
      ∀ r ∈ ((searchFor g result.candidates ms).way id).2, ¬ g.IsUntyped r.source := by
  have hclass : ∀ (id : ObjectId) (i : Instance), g.object? id = some (.ofInstance i) →
      (g.class? i.classId).isSome := fun id i hobject ↦
    class?_isSome_of_classify h i (hg.isIndexed.mem_instances hobject)
  have hcandidate : (g.object? id).isSome := by
    obtain ⟨c, hc, hobject⟩ := List.mem_map.1 (mem_searchFor_iff.1 hid).1
    obtain ⟨o, ho, heq⟩ := exists_mem_objects_of_classify h c hc
    rw [← hobject, ← heq]
    exact hg.isIndexed.object?_isSome ho
  obtain ⟨source, hleads⟩ := exists_leads_of_found hid
  have hway := hleads.object?_isSome
  rw [Search.Names, and_comm, Graph.className?_isSome_iff hcandidate (hclass id)]
  refine and_congr_right fun _ ↦ forall₂_congr fun r hr ↦ ?_
  exact Graph.className?_isSome_iff (hway r hr) (hclass r.source)

/-! ### An array of an unknown class -/

namespace Orphan

def array : ObjectArray := ⟨5, 9, [none]⟩

def document : Document := { objectArrays := [array], roots := [⟨5, .jniGlobal⟩] }

/-- A large array that is kept by a root, and whose class is missing. -/
def graph : Graph := (Graph.empty.place (.ofObjectArray array)).addRoot ⟨5, .jniGlobal⟩

def settings : Settings.Analysis := { bigObjectArrayBytes := 4 }

def classification : Classification where
  candidates := [⟨5, "java.lang.Object[]", "Object Array Size Over Threshold, 4"⟩]
  bigObjects := [⟨"java.lang.Object[]", 4, 5, none⟩]

theorem isBuilt : graph.IsBuilt := by
  have hempty : Graph.empty.contains 5 = false := by simp [Graph.contains, Graph.empty]
  refine .inl ⟨document, ?_⟩
  simp [Document.toGraph, Document.objects, document, Document.insertRecord, Graph.insert,
    Object.id, array, hempty, bind, Except.bind, pure, Except.pure, graph]

theorem object?_five : graph.object? 5 = some (.ofObjectArray array) := by
  simp [Graph.object?, graph, Graph.addRoot, Graph.empty, Object.id, array]

theorem class?_nine : graph.class? 9 = none := by
  simp [Graph.class?, Graph.object?, graph, Graph.addRoot, Graph.empty, Object.id, array]

theorem isUntyped : graph.IsUntyped 5 := ⟨array, object?_five, class?_nine⟩

theorem classify_eq : classify graph settings = .ok classification := by
  have hinstances : graph.instances = [] := rfl
  have hprimitive : graph.primitiveArrays = [] := rfl
  have hobject : graph.objectArrays = [array] := rfl
  have hflag : objectArrayFlag settings array =
      some ⟨"Object Array Size Over Threshold, 4", some 4, none⟩ := rfl
  have hname : objectArrayClassName graph array = "java.lang.Object[]" := by
    rw [objectArrayClassName, classNameOr]
    simp [array, class?_nine]
  rw [classify, hinstances, hprimitive, hobject]
  simp [Survey.visitObjectArray, hflag, hname, Survey.acceptIf, Survey.accept, sameClassLimit,
    bind, Except.bind, pure, Except.pure]
  rfl

theorem mem_found (ms : List Matcher) :
    5 ∈ (searchFor graph classification.candidates ms).found := by
  have hsource : graph.IsSource 5 := ⟨⟨⟨5, .jniGlobal⟩, by simp [graph, Graph.addRoot], rfl⟩, by
    simp [object?_five]⟩
  exact mem_searchFor_iff.2 ⟨by simp [classification], [], 5, hsource, .nil⟩

end Orphan

/-- What has been classified gives findings unless some object array of an unknown class is found or
passed on the way to what is found.  The classification accepts such an array. -/
theorem findPaths_classified_ok_iff (hg : g.IsBuilt)
    (h : classify g limits = .ok result) (ms : List Matcher) :
    (∃ f, findPaths g result.candidates ms = .ok f) ↔
      ∀ id ∈ (searchFor g result.candidates ms).found, ¬ g.IsUntyped id ∧
        ∀ r ∈ ((searchFor g result.candidates ms).way id).2, ¬ g.IsUntyped r.source :=
  exists_findPaths_iff.trans (forall₂_congr fun _ hid ↦ names_iff hg h hid)

/-- The array is found, hence no findings are made. -/
theorem orphan_classified_without_findings :
    Orphan.graph.IsBuilt ∧ classify Orphan.graph Orphan.settings = .ok Orphan.classification ∧
      ¬ ∃ f, findPaths Orphan.graph Orphan.classification.candidates [] = .ok f := by
  refine ⟨Orphan.isBuilt, Orphan.classify_eq, fun hok ↦ ?_⟩
  have hfound := Orphan.mem_found []
  have htyped := (findPaths_classified_ok_iff Orphan.isBuilt Orphan.classify_eq []).1 hok 5 hfound
  exact htyped.1 Orphan.isUntyped

/-- Graphs that can be classified do not always give findings. -/
theorem classified_not_always_ok :
    ¬ ∀ (g : Graph) (limits : Settings.Analysis) (result : Classification) (ms : List Matcher),
      g.IsBuilt → classify g limits = .ok result →
        ∃ f, findPaths g result.candidates ms = .ok f := by
  intro h
  have hok := h Orphan.graph Orphan.settings Orphan.classification [] Orphan.isBuilt
    Orphan.classify_eq
  have hnamed := (exists_findPaths_iff.1 hok 5 (Orphan.mem_found [])).2
  simp [Graph.className?, Orphan.object?_five, Orphan.array, Orphan.class?_nine] at hnamed

end Leak

end HeapSentry
