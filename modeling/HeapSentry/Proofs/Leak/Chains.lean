import HeapSentry.Proofs.Leak.Members

/-!
# Traces are ways

Every trace that is reported renders a way through the heap, though ways are put together from
parents that may have changed while the search went on.
-/

namespace HeapSentry.Leak

open Heap Matcher

variable {ms : List Matcher} {g : Graph} {ways : ObjectId → List Reference}
  {candidates : List Candidate} {all : Findings} {members : List Member} {group : Group}

theorem Findings.Sorts.exists_first (h : all.Sorts ms g candidates ways members)
    (hgroup : group ∈ all.application ∨ group ∈ all.library) :
    ∃ m ∈ members, group.objects.head? = some m.object ∧ group.trace = m.trace ∧
      group.library = m.library := by
  rw [h.application, h.library] at hgroup
  rcases hgroup with hgroup | hgroup
  all_goals
    obtain ⟨m, hm, hfirst⟩ := Group.exists_first hgroup
    exact ⟨m, List.mem_of_mem_filter hm, hfirst⟩

theorem exists_root_of_sourceKind? {source : ObjectId} {kind : RootKind}
    (h : g.sourceKind? source = some kind) :
    (g.object? source).isSome ∧
      ∃ root, g.roots.toList.find? (·.id == source) = some root ∧ root.kind = kind := by
  unfold Graph.sourceKind? at h
  split at h
  next hsome => exact ⟨hsome, Option.map_eq_some_iff.1 h⟩
  next => simp at h

/-- The trace of a group renders a way to the first object of the group.  Going back from the object
gives this way whatever the bound on its length, as long as the bound is no less than the number of
objects that were met. -/
theorem findPaths_trace_renders_way {f : Findings} (h : findPaths g candidates ms = .ok f)
    (hgroup : group ∈ f.application ∨ group ∈ f.library) :
    ∃ id source root way,
      group.objects.head? = some id ∧
      (g.object? source).isSome ∧ g.roots.toList.find? (·.id == source) = some root ∧
      g.Leads (IsFollowed ms g) source way id ∧ (Graph.passed source way).Nodup ∧
      group.trace.root = root.kind ∧
      List.Forall₂ (Hop.Renders g) way group.trace.path ∧
      group.library = firstLibrary ms g way ∧
      way.length < (searchFor g candidates ms).visits.size ∧
      ∀ bound, (searchFor g candidates ms).visits.size ≤ bound →
        (searchFor g candidates ms).wayBack bound id .unknown [] = (root.kind, way) := by
  obtain ⟨all, hall, rfl⟩ := findPaths_eq_ok_iff.1 h
  obtain ⟨ways, members, hsorts⟩ := exists_sorts hall
  obtain ⟨m, hm, hfirst, htrace, hlibrary⟩ :=
    hsorts.exists_first (hgroup.imp_right List.mem_of_mem_take)
  obtain ⟨-, v, hv, -⟩ := hsorts.outcome.found.mem_iff.1 (hsorts.mem_found hm)
  obtain ⟨hway, hmlibrary, hpath, source, hchain⟩ := hsorts.tells m hm
  obtain ⟨hsource, root, hroot, hkind⟩ := exists_root_of_sourceKind? hchain.kind
  have hlength := hsorts.outcome.recorded.length_lt hv
  have hvroot : v.root = m.trace.root :=
    congrArg Prod.fst ((hsorts.outcome.recorded.way_eq hv).symm.trans hway)
  refine ⟨m.object, source, root, ways m.object, hfirst, hsource, hroot, hchain.leads,
    hchain.nodup, ?_, htrace ▸ hpath, hlibrary.trans hmlibrary, hlength, fun bound hbound ↦ ?_⟩
  · rw [htrace, hkind]
  · rw [hsorts.outcome.recorded.wayBack_eq hv bound (by omega), List.append_nil, hkind, hvroot]

/-- The trace of the candidate that leaks through the cache renders a way on which the cache comes
last. -/
theorem detour_trace_renders_way :
    Detour.libraryGroup ∈ Detour.findings.library ∧
      ∃ source way,
        Detour.graph.Leads (IsFollowed Detour.matchers Detour.graph) source way 14 ∧
        List.Forall₂ (Hop.Renders Detour.graph) way
          [Detour.hop "next", Detour.hop "next", Detour.hop "cache"] ∧
        firstLibrary Detour.matchers Detour.graph way = some "cached" := by
  have hgroup : Detour.libraryGroup ∈ Detour.findings.library := List.mem_singleton_self _
  obtain ⟨id, source, root, way, hid, -, -, hleads, -, -, hpath, hlibrary, -⟩ :=
    findPaths_trace_renders_way Detour.findPaths_eq (.inr hgroup)
  obtain rfl : 14 = id := Option.some.inj hid
  exact ⟨hgroup, source, way, hleads, hpath, hlibrary.symm⟩

end HeapSentry.Leak
