import HeapSentry.Proofs.Leak.Members
import Mathlib.Order.Bounds.Basic

/-!
# How long traces are

The trace of an application leak is as short as any plain way.  The trace of a library leak is as
short as any way with as few references from the first library reference on; a shorter way that
enters a library earlier is passed over, and no way has fewer references from there on.
-/

namespace HeapSentry.Leak

open Heap Matcher

variable {ms : List Matcher} {g : Graph} {ways : ObjectId → List Reference}
  {candidates : List Candidate} {all : Findings} {members : List Member} {group : Group}

theorem Member.Tells.length_path {s : Search} {m : Member} (h : m.Tells ms g s ways) :
    m.trace.path.length = (ways m.object).length :=
  h.path.length_eq.symm

namespace Findings.Sorts

variable (h : all.Sorts ms g candidates ways members)

include h

theorem sorted : members.Pairwise fun m m' ↦
    rank ms g (ways m.object) ≤ rank ms g (ways m'.object) := by
  have hsorted := h.outcome.found.sorted
  rw [← h.objects, List.pairwise_map] at hsorted
  exact hsorted

/-- Plain ways are compared by their length. -/
theorem sorted_application : (members.filter (·.library.isNone)).Pairwise fun m m' ↦
    m.trace.path.length ≤ m'.trace.path.length := by
  refine (h.sorted.filter _).imp_of_mem fun {m m'} hm hm' hrank ↦ ?_
  obtain ⟨hmem, -⟩ := List.mem_filter.1 hm
  obtain ⟨hmem', hnone'⟩ := List.mem_filter.1 hm'
  have htells' := h.tells m' hmem'
  rw [Option.isNone_iff_eq_none, htells'.library] at hnone'
  rw [(h.tells m hmem).length_path, htells'.length_path]
  exact (plain_of_rank_le hrank hnone').2

theorem isLeast_length {m : Member} (hm : m ∈ members) (hnone : m.library = none) :
    IsLeast {n | ∃ way, g.LeadsTo (IsPlain ms g) way m.object ∧ way.length = n}
      m.trace.path.length := by
  have hfound := h.mem_found hm
  obtain ⟨way, hway⟩ := (h.library_eq_none_iff hm).1 hnone
  rw [(h.tells m hm).length_path]
  refine ⟨⟨ways m.object, (h.outcome.plain_of_leadsTo hfound hway).1, rfl⟩, ?_⟩
  rintro n ⟨way', hway', rfl⟩
  exact (h.outcome.plain_of_leadsTo hfound hway').2

/-- The way to a member is the shortest exactly if some way is best both in its length and in the
length of its library part. -/
theorem shortest_iff {m : Member} (hm : m ∈ members) :
    (∀ way, g.LeadsTo (IsFollowed ms g) way m.object → m.trace.path.length ≤ way.length) ↔
      ∃ best, g.LeadsTo (IsFollowed ms g) best m.object ∧
        ∀ way, g.LeadsTo (IsFollowed ms g) way m.object → best.length ≤ way.length ∧
          (libraryPart ms g best).length ≤ (libraryPart ms g way).length := by
  have hfound := h.mem_found hm
  have hleast : ∀ way, g.LeadsTo (IsFollowed ms g) way m.object →
      rank ms g (ways m.object) ≤ rank ms g way := fun way ↦ h.outcome.least hfound
  simp only [rank, Prod.Lex.toLex_le_toLex] at hleast
  rw [(h.tells m hm).length_path]
  constructor
  · intro hshort
    refine ⟨ways m.object, h.outcome.leadsTo hfound, fun way hway ↦ ⟨hshort way hway, ?_⟩⟩
    have := hleast way hway
    omega
  · rintro ⟨best, hbest, hall⟩ way hway
    have hpart := (hall _ (h.outcome.leadsTo hfound)).2
    have hrank := hleast best hbest
    have hlength := (hall way hway).1
    omega

theorem rank_le {m : Member} (hm : m ∈ members) {way : List Reference}
    (hway : g.LeadsTo (IsFollowed ms g) way m.object) :
    (libraryPart ms g (ways m.object)).length ≤ (libraryPart ms g way).length ∧
      ((libraryPart ms g way).length = (libraryPart ms g (ways m.object)).length →
        (ways m.object).length ≤ way.length) := by
  have hleast : rank ms g (ways m.object) ≤ rank ms g way := h.outcome.least (h.mem_found hm) hway
  simp only [rank, Prod.Lex.toLex_le_toLex] at hleast
  constructor
  · omega
  · intro hpart
    omega

end Findings.Sorts

/-- The traces of application leaks are the shortest plain ways, and the short ones come first. -/
theorem findPaths_application_traces_shortest {f : Findings}
    (h : findPaths g candidates ms = .ok f) :
    (∀ group ∈ f.application, ∃ id, group.objects.head? = some id ∧
      IsLeast {n | ∃ way, g.LeadsTo (IsPlain ms g) way id ∧ way.length = n}
        group.trace.path.length) ∧
    f.application.Pairwise fun group group' ↦
      group.trace.path.length ≤ group'.trace.path.length := by
  obtain ⟨all, hall, rfl⟩ := findPaths_eq_ok_iff.1 h
  obtain ⟨ways, members, hsorts⟩ := exists_sorts hall
  change (∀ group ∈ all.application, _) ∧ all.application.Pairwise _
  rw [hsorts.application]
  refine ⟨fun group hgroup ↦ ?_, Group.pairwise_traces
    (R := fun trace trace' ↦ trace.path.length ≤ trace'.path.length) hsorts.sorted_application⟩
  obtain ⟨m, hm, hfirst, htrace, -⟩ := Group.exists_first hgroup
  obtain ⟨hmem, hnone⟩ := List.mem_filter.1 hm
  rw [htrace]
  exact ⟨m.object, hfirst, hsorts.isLeast_length hmem (Option.isNone_iff_eq_none.1 hnone)⟩

/-- Two plain references are the fewest that lead to the candidate that leaks. -/
theorem detour_application_trace_shortest :
    findPaths Detour.graph Detour.candidates Detour.matchers = .ok Detour.findings ∧
      IsLeast {n | ∃ way, Detour.graph.LeadsTo (IsPlain Detour.matchers Detour.graph) way 13 ∧
        way.length = n} 2 := by
  obtain ⟨hshort, -⟩ := findPaths_application_traces_shortest Detour.findPaths_eq
  obtain ⟨id, hid, hleast⟩ := hshort Detour.plainGroup (List.mem_singleton_self _)
  obtain rfl : 13 = id := Option.some.inj hid
  exact ⟨Detour.findPaths_eq, hleast⟩

/-- The trace of a library leak is shortest exactly if a shortest way is also a way that follows the
fewest references from the first library reference on. -/
theorem findPaths_library_trace_shortest_iff {f : Findings}
    (h : findPaths g candidates ms = .ok f) (hgroup : group ∈ f.library) :
    ∃ id, group.objects.head? = some id ∧
      ((∀ way, g.LeadsTo (IsFollowed ms g) way id → group.trace.path.length ≤ way.length) ↔
        ∃ best, g.LeadsTo (IsFollowed ms g) best id ∧
          ∀ way, g.LeadsTo (IsFollowed ms g) way id → best.length ≤ way.length ∧
            (libraryPart ms g best).length ≤ (libraryPart ms g way).length) := by
  obtain ⟨all, hall, rfl⟩ := findPaths_eq_ok_iff.1 h
  obtain ⟨ways, members, hsorts⟩ := exists_sorts hall
  have hmem : group ∈ all.library := List.mem_of_mem_take hgroup
  rw [hsorts.library] at hmem
  obtain ⟨m, hm, hfirst, htrace, -⟩ := Group.exists_first hmem
  rw [htrace]
  exact ⟨m.object, hfirst, hsorts.shortest_iff (List.mem_of_mem_filter hm)⟩

/-- The trace of a library leak renders a way with the fewest references from the first library
reference on, and with the fewest in all among those.  Every way to the object has a library
reference. -/
theorem findPaths_library_trace_least_rank {f : Findings}
    (h : findPaths g candidates ms = .ok f) (hgroup : group ∈ f.library) :
    ∃ id way, group.objects.head? = some id ∧
      (searchFor g candidates ms).way id = (group.trace.root, way) ∧
      List.Forall₂ (Hop.Renders g) way group.trace.path ∧
      group.library = firstLibrary ms g way ∧
      g.LeadsTo (IsFollowed ms g) way id ∧
      ∀ other, g.LeadsTo (IsFollowed ms g) other id →
        (firstLibrary ms g other).isSome ∧
        (libraryPart ms g way).length ≤ (libraryPart ms g other).length ∧
        ((libraryPart ms g other).length = (libraryPart ms g way).length →
          way.length ≤ other.length) := by
  obtain ⟨all, hall, rfl⟩ := findPaths_eq_ok_iff.1 h
  obtain ⟨ways, members, hsorts⟩ := exists_sorts hall
  have hmem : group ∈ all.library := List.mem_of_mem_take hgroup
  rw [hsorts.library] at hmem
  obtain ⟨m, hm, hfirst, htrace, hlibrary⟩ := Group.exists_first hmem
  obtain ⟨hm, hsome⟩ := List.mem_filter.1 hm
  have htells := hsorts.tells m hm
  refine ⟨m.object, ways m.object, hfirst, htrace ▸ htells.way, htrace ▸ htells.path,
    hlibrary.trans htells.library, hsorts.outcome.leadsTo (hsorts.mem_found hm), ?_⟩
  intro other hother
  refine ⟨?_, hsorts.rank_le hm hother⟩
  -- A way without a library reference would make the object an application leak.
  rw [Option.isSome_iff_ne_none]
  intro hplain
  have hnone : m.library = none :=
    (hsorts.library_eq_none_iff hm).2 ⟨other, leadsTo_plain_iff.2 ⟨hother, hplain⟩⟩
  simp [hnone] at hsome

/-- Entering the cache early makes for a shorter way to the candidate than its trace. -/
theorem Detour.leadsTo_early : Detour.graph.LeadsTo
    (IsFollowed Detour.matchers Detour.graph)
    [Detour.edge 10 "cache" 11, Detour.edge 11 "next" 14] 14 := by
  have hsource : Detour.graph.IsSource 10 := by
    refine ⟨⟨⟨10, .jniGlobal⟩, by simp [Detour.graph, Graph.addRoot], rfl⟩, ?_⟩
    rw [Detour.object?_eq (by simp)]
    rfl
  have hfollowed : ∀ (source target : ObjectId) {name : String}, name ≠ "weak" →
      IsFollowed Detour.matchers Detour.graph (Detour.edge source name target) := by
    intro source target name hname
    rw [IsFollowed, Detour.standingOf_edge]
    split <;> simp
  have hcache : Detour.edge 10 "cache" 11 ∈ Detour.graph.references 10 := by
    simp [Detour.references_eq]
  have hnext : Detour.edge 11 "next" 14 ∈ Detour.graph.references 11 := by
    simp [Detour.references_eq]
  refine ⟨10, hsource, ?_⟩
  exact (Graph.Leads.nil.snoc hcache (hfollowed 10 11 (by decide))).snoc hnext
    (hfollowed 11 14 (by decide))

/-- The trace that leads through the cache last is preferred to the short way that does so early. -/
theorem detour_library_trace_least_rank :
    Detour.libraryGroup ∈ Detour.findings.library ∧
      ∃ way, Detour.graph.LeadsTo (IsFollowed Detour.matchers Detour.graph) way 14 ∧
        way.length = 3 ∧
        (libraryPart Detour.matchers Detour.graph way).length ≤
          (libraryPart Detour.matchers Detour.graph
            [Detour.edge 10 "cache" 11, Detour.edge 11 "next" 14]).length := by
  have hgroup : Detour.libraryGroup ∈ Detour.findings.library := List.mem_singleton_self _
  obtain ⟨id, way, hid, -, hpath, -, hway, hleast⟩ :=
    findPaths_library_trace_least_rank Detour.findPaths_eq hgroup
  obtain rfl : 14 = id := Option.some.inj hid
  exact ⟨hgroup, way, hway, hpath.length_eq, (hleast _ Detour.leadsTo_early).2.1⟩

/-- No way to the candidate that leaks through the cache is best in both respects. -/
theorem detour_library_trace_not_shortest :
    Detour.libraryGroup ∈ Detour.findings.library ∧
      ¬ ∃ best, Detour.graph.LeadsTo (IsFollowed Detour.matchers Detour.graph) best 14 ∧
        ∀ way, Detour.graph.LeadsTo (IsFollowed Detour.matchers Detour.graph) way 14 →
          best.length ≤ way.length ∧
            (libraryPart Detour.matchers Detour.graph best).length ≤
              (libraryPart Detour.matchers Detour.graph way).length := by
  have hgroup : Detour.libraryGroup ∈ Detour.findings.library := List.mem_singleton_self _
  obtain ⟨id, hid, hiff⟩ := findPaths_library_trace_shortest_iff Detour.findPaths_eq hgroup
  obtain rfl : 14 = id := Option.some.inj hid
  refine ⟨hgroup, fun hbest ↦ ?_⟩
  have hle : 3 ≤ 2 := hiff.2 hbest _ Detour.leadsTo_early
  omega

/-- The trace of a library leak need not be shortest. -/
theorem library_traces_not_always_shortest :
    ¬ ∀ (g : Graph) (candidates : List Candidate) (ms : List Matcher) (f : Findings),
      findPaths g candidates ms = .ok f → ∀ group ∈ f.library, ∀ id,
        group.objects.head? = some id → ∀ way, g.LeadsTo (IsFollowed ms g) way id →
          group.trace.path.length ≤ way.length := by
  intro h
  have hle : 3 ≤ 2 := h _ _ _ _ Detour.findPaths_eq Detour.libraryGroup
    (List.mem_singleton_self _) 14 rfl _ Detour.leadsTo_early
  omega

end HeapSentry.Leak
