import HeapSentry.Proofs.Lists
import HeapSentry.Proofs.Leak.Naming

/-!
# The first object without a class name

Findings fail for an object without a class name: the first one that is passed when the objects
found are gone through in order of discovery, each from the root of its way on.  Dangling references
that the search has followed do no harm, as the way to an object passes objects of the heap only.
-/

namespace HeapSentry

namespace Heap.Graph

variable {g : Graph} {id : ObjectId}

/-- What has no class name: an instance or an object array of an unknown class, and what is no
object at all. -/
def IsNameless (g : Graph) (id : ObjectId) : Prop :=
  match g.object? id with
  | none => True
  | some (.ofInstance i) => g.class? i.classId = none
  | some (.ofObjectArray a) => g.class? a.classId = none
  | some (.ofClass _) | some (.ofPrimitiveArray _) => False

theorem className?_eq_none_iff : g.className? id = none ↔ g.IsNameless id := by
  unfold className? IsNameless
  cases g.object? id with
  | none => simp
  | some o => cases o <;> simp

/-- Each reference of a way starts where the one before has led. -/
theorem Leads.passed_eq {admits : Reference → Prop} {source : ObjectId} {way : List Reference}
    (h : g.Leads admits source way id) :
    way.map Reference.source ++ [id] = passed source way := by
  induction h with
  | nil => rfl
  | snoc _ hmem _ ih =>
      rw [passed_snoc, ← ih, List.map_append, List.map_singleton, source_of_mem_references hmem]

end Heap.Graph

namespace Leak

open Heap Matcher

variable {ms : List Matcher} {g : Graph} {s : Search} {candidates : List Candidate} {c : Candidate}
  {id : ObjectId} {ids : List ObjectId}

/-- The objects that the way to an object passes, from the root to that object. -/
def Search.stops (s : Search) (id : ObjectId) : List ObjectId :=
  (s.way id).2.map Reference.source ++ [id]

/-- The objects whose class names are asked for, in that order. -/
def Search.allStops (s : Search) : List ObjectId := s.found.toList.flatMap s.stops

/-- What is wrong if some objects need a class name. -/
def namelessFault? (g : Graph) (ids : List ObjectId) : Option Fault :=
  ids.findSome? fun id ↦ errorOf? (classNameOf g id)

theorem errorOf?_classNameOf {fault : Fault} :
    errorOf? (classNameOf g id) = some fault ↔ g.IsNameless id ∧ fault = .unknownObject id := by
  rw [← Graph.className?_eq_none_iff, classNameOf]
  cases g.className? id with
  | none => simp [errorOf?, eq_comm]
  | some name => simp [errorOf?]

theorem namelessFault?_eq_some_iff {fault : Fault} : namelessFault? g ids = some fault ↔
    ∃ before id after, ids = before ++ id :: after ∧ (∀ other ∈ before, ¬ g.IsNameless other) ∧
      g.IsNameless id ∧ fault = .unknownObject id := by
  have hnamed : ∀ other, errorOf? (classNameOf g other) = none ↔ ¬ g.IsNameless other := by
    intro other
    rw [errorOf?_eq_none_iff, exists_classNameOf_iff, ← Graph.className?_eq_none_iff]
    exact Option.isSome_iff_ne_none
  simp only [namelessFault?, List.findSome?_eq_some_iff, errorOf?_classNameOf, hnamed]
  constructor
  · rintro ⟨before, id, after, heq, hid, hbefore⟩
    exact ⟨before, id, after, heq, hbefore, hid⟩
  · rintro ⟨before, id, after, heq, hbefore, hid⟩
    exact ⟨before, id, after, heq, hid, hbefore⟩

theorem Hop.errorOf?_ofReference (g : Graph) (r : Reference) :
    errorOf? (Hop.ofReference g r) = errorOf? (classNameOf g r.source) :=
  errorOf?_bind_ok

/-- A candidate that is no object has no class name either. -/
theorem Leaking.errorOf?_ofCandidate (g : Graph) (c : Candidate) :
    errorOf? (Leaking.ofCandidate g c) = errorOf? (classNameOf g c.object) := by
  unfold Leaking.ofCandidate
  cases hobject : g.object? c.object with
  | none =>
      have hnone : g.className? c.object = none := by simp [Graph.className?, hobject]
      rw [classNameOf, hnone]
      rfl
  | some o => exact errorOf?_bind_ok

theorem Trace.errorOf?_ofSearch (g : Graph) (s : Search) (c : Candidate) :
    errorOf? (Trace.ofSearch g s c) = namelessFault? g (s.stops c.object) := by
  have hpath : errorOf? ((s.way c.object).2.mapM (Hop.ofReference g)) =
      namelessFault? g ((s.way c.object).2.map Reference.source) := by
    rw [errorOf?_mapM, namelessFault?, List.findSome?_map]
    simp only [Hop.errorOf?_ofReference]
    rfl
  have hleaking : errorOf? (Leaking.ofCandidate g c) = namelessFault? g [c.object] := by
    rw [Leaking.errorOf?_ofCandidate, namelessFault?, List.findSome?_cons]
    cases errorOf? (classNameOf g c.object) <;> rfl
  have hrest : ∀ path, errorOf? (Leaking.ofCandidate g c >>= fun leaking ↦
      (.ok ⟨(s.way c.object).1, path, leaking⟩ : Except Fault Trace)) =
      namelessFault? g [c.object] :=
    fun path ↦ errorOf?_bind_ok.trans hleaking
  unfold Trace.ofSearch
  rw [errorOf?_bind fun path _ ↦ hrest path, hpath, Search.stops]
  exact List.findSome?_append.symm

theorem Member.errorOf?_ofSearch (g : Graph) (s : Search)
    (hid : id ∈ candidates.map Candidate.object) :
    errorOf? (Member.ofSearch g s candidates id) = namelessFault? g (s.stops id) := by
  obtain ⟨c, hc, hobject⟩ := exists_find?_candidate hid
  simp only [Member.ofSearch, hc]
  rw [← hobject, ← Trace.errorOf?_ofSearch]
  exact errorOf?_bind_ok

theorem namelessFault?_flatMap (g : Graph) (stops : ObjectId → List ObjectId)
    (ids : List ObjectId) : namelessFault? g (ids.flatMap stops) =
      ids.findSome? fun id ↦ namelessFault? g (stops id) := by
  simp only [namelessFault?, ← List.head?_filterMap, List.filterMap_flatMap, List.head?_flatMap]

theorem errorOf?_findPaths (g : Graph) (candidates : List Candidate) (ms : List Matcher) :
    errorOf? (findPaths g candidates ms) =
      namelessFault? g (searchFor g candidates ms).allStops := by
  have hmember : ∀ id ∈ (searchFor g candidates ms).found.toList,
      errorOf? (Member.ofSearch g (searchFor g candidates ms) candidates id) =
        namelessFault? g ((searchFor g candidates ms).stops id) := by
    intro id hid
    have hfound := mem_searchFor_iff.1 (Array.mem_toList_iff.1 hid)
    exact Member.errorOf?_ofSearch g _ hfound.1
  have hdiscovered : errorOf? (discovered g candidates ms) =
      namelessFault? g (searchFor g candidates ms).allStops := by
    rw [Search.allStops, namelessFault?_flatMap, discovered, errorOf?_mapM, ← List.head?_filterMap,
      List.filterMap_congr hmember, List.head?_filterMap]
  have hsorted : errorOf? (sortCandidates g candidates ms) =
      errorOf? (discovered g candidates ms) := errorOf?_bind_ok
  exact errorOf?_bind_ok.trans (hsorted.trans hdiscovered)

/-- What is found has been reached from a source, and all objects on the way to it are in the
graph. -/
theorem exists_stops_of_found (hid : id ∈ (searchFor g candidates ms).found) :
    ∃ source, g.IsSource source ∧
      g.Leads (IsFollowed ms g) source ((searchFor g candidates ms).way id).2 id ∧
      (searchFor g candidates ms).stops id =
        Graph.passed source ((searchFor g candidates ms).way id).2 ∧
      ∀ other ∈ (searchFor g candidates ms).stops id, other = id ∨ (g.object? other).isSome := by
  obtain ⟨ways, ho⟩ := Search.exists_outcome ms g (wantedOf candidates)
  obtain ⟨-, v, hv, -⟩ := ho.found.mem_iff.1 hid
  obtain ⟨source, hchain, -⟩ := ho.recorded.exists_chain hv
  have hway : ((searchFor g candidates ms).way id).2 = ways id :=
    congrArg Prod.snd (ho.recorded.way_eq hv)
  have hleads : g.Leads (IsFollowed ms g) source ((searchFor g candidates ms).way id).2 id := by
    rw [hway]
    exact hchain.leads
  refine ⟨source, Graph.isSource_iff.2 ⟨_, hchain.kind⟩, hleads, hleads.passed_eq, ?_⟩
  intro other hother
  rcases List.mem_append.1 hother with hother | hother
  · obtain ⟨r, hr, rfl⟩ := List.mem_map.1 hother
    exact .inr (hleads.object?_isSome r hr)
  · exact .inl (List.mem_singleton.1 hother)

theorem mem_allStops : id ∈ s.allStops ↔ ∃ target ∈ s.found, id ∈ s.stops target := by
  simp [Search.allStops]

/-- Findings fail exactly if some object without a class name is passed, and with the first such
one, when the reached candidates are gone through in order of discovery and each from the root on.
Candidates that are not reached do not matter, and in a heap of known classes it is enough that the
other candidates are objects. -/
theorem findPaths_fails_iff (g : Graph) (candidates : List Candidate) (ms : List Matcher) :
    (∀ fault, findPaths g candidates ms = .error fault ↔
      ∃ before id after, (searchFor g candidates ms).allStops = before ++ id :: after ∧
        (∀ other ∈ before, ¬ g.IsNameless other) ∧ g.IsNameless id ∧
          fault = .unknownObject id) ∧
      (searchFor g candidates ms).found.toList.Nodup ∧
      (∀ id, id ∈ (searchFor g candidates ms).found ↔
        id ∈ candidates.map Candidate.object ∧ g.Reaches (IsFollowed ms g) id) ∧
      (∀ id ∈ (searchFor g candidates ms).found, ∃ source, g.IsSource source ∧
        g.Leads (IsFollowed ms g) source ((searchFor g candidates ms).way id).2 id ∧
        (searchFor g candidates ms).stops id =
          Graph.passed source ((searchFor g candidates ms).way id).2 ∧
        ∀ other ∈ (searchFor g candidates ms).stops id,
          other = id ∨ (g.object? other).isSome) ∧
      ((∀ id o, g.object? id = some o → ¬ g.IsNameless id) →
        (∀ c ∈ candidates, g.Reaches (IsFollowed ms g) c.object → (g.object? c.object).isSome) →
          ∃ f, findPaths g candidates ms = .ok f) := by
  obtain ⟨ways, houtcome⟩ := Search.exists_outcome ms g (wantedOf candidates)
  refine ⟨fun fault ↦ ?_, houtcome.found.nodup, fun id ↦ mem_searchFor_iff,
    fun id ↦ exists_stops_of_found, fun hknown hobjects ↦ ?_⟩
  · rw [← errorOf?_eq_some_iff, errorOf?_findPaths]
    exact namelessFault?_eq_some_iff
  · rw [← errorOf?_eq_none_iff, errorOf?_findPaths]
    by_contra hfault
    obtain ⟨fault, hfault⟩ := Option.ne_none_iff_exists'.1 hfault
    obtain ⟨before, id, after, heq, -, hnameless, -⟩ := namelessFault?_eq_some_iff.1 hfault
    have hmem : id ∈ (searchFor g candidates ms).allStops := by simp [heq]
    obtain ⟨target, htarget, hstop⟩ := mem_allStops.1 hmem
    obtain ⟨-, -, -, -, hpassed⟩ := exists_stops_of_found htarget
    have hobject : (g.object? id).isSome := by
      rcases hpassed id hstop with rfl | hobject
      · obtain ⟨hcandidate, hreached⟩ := mem_searchFor_iff.1 htarget
        obtain ⟨c, hc, rfl⟩ := List.mem_map.1 hcandidate
        exact hobjects c hc hreached
      · exact hobject
    obtain ⟨o, ho⟩ := Option.isSome_iff_exists.1 hobject
    exact hknown id o ho hnameless

end Leak

end HeapSentry
