import HeapSentry.Proofs.Leak.Members

/-!
# Verdicts on candidates

Where a candidate is filed depends on nothing but the ways that lead to it.
-/

namespace HeapSentry.Leak

open Heap Matcher

variable {ms : List Matcher} {g : Graph} {ways : ObjectId → List Reference}
  {candidates : List Candidate} {id : ObjectId} {all : Findings} {members : List Member}

theorem Findings.Sorts.mem_unreachable_iff (h : all.Sorts ms g candidates ways members) :
    id ∈ all.unreachable ↔
      id ∈ candidates.map Candidate.object ∧ ¬ g.Reaches (IsFollowed ms g) id := by
  rw [h.unreachable, List.mem_filter]
  simp only [Bool.not_eq_true', ← Bool.not_eq_true, Array.contains_iff_mem, h.mem_found_iff]
  tauto

theorem Findings.Sorts.application_iff (h : all.Sorts ms g candidates ways members) :
    (∃ group ∈ all.application, id ∈ group.objects) ↔
      id ∈ candidates.map Candidate.object ∧ g.Reaches (IsPlain ms g) id := by
  have hkind : ∀ m ∈ members, m.library.isNone ↔ g.Reaches (IsPlain ms g) m.object := by
    intro m hm
    rw [Option.isNone_iff_eq_none, h.library_eq_none_iff hm]
  rw [h.application, Group.mem_objects_iff, h.exists_mem_filter_iff hkind, h.mem_found_iff]
  constructor
  · rintro ⟨⟨hid, -⟩, hplain⟩
    exact ⟨hid, hplain⟩
  · rintro ⟨hid, way, hway⟩
    exact ⟨⟨hid, way, (leadsTo_plain_iff.1 hway).1⟩, way, hway⟩

theorem Findings.Sorts.library_iff (h : all.Sorts ms g candidates ways members) :
    (∃ group ∈ all.library, id ∈ group.objects) ↔
      id ∈ candidates.map Candidate.object ∧ g.Reaches (IsFollowed ms g) id ∧
        ¬ g.Reaches (IsPlain ms g) id := by
  have hkind : ∀ m ∈ members, m.library.isSome ↔ ¬ g.Reaches (IsPlain ms g) m.object := by
    intro m hm
    rw [Option.isSome_iff_ne_none, Ne, h.library_eq_none_iff hm]
  rw [h.library, Group.mem_objects_iff,
    h.exists_mem_filter_iff (P := fun id ↦ ¬ g.Reaches (IsPlain ms g) id) hkind,
    h.mem_found_iff, and_assoc]

/-- Candidates are sorted by what leads to them: nothing that is followed, plain references only,
or neither of these.  Among the latter are those whose group is not kept. -/
theorem findPaths_sorts_by_ways {f : Findings} (h : findPaths g candidates ms = .ok f) :
    ∃ all, sortCandidates g candidates ms = .ok all ∧ f = all.truncate ∧ ∀ id,
      (id ∈ f.unreachable ↔
        id ∈ candidates.map Candidate.object ∧ ¬ g.Reaches (IsFollowed ms g) id) ∧
      ((∃ group ∈ f.application, id ∈ group.objects) ↔
        id ∈ candidates.map Candidate.object ∧ g.Reaches (IsPlain ms g) id) ∧
      ((∃ group ∈ all.library, id ∈ group.objects) ↔
        id ∈ candidates.map Candidate.object ∧ g.Reaches (IsFollowed ms g) id ∧
          ¬ g.Reaches (IsPlain ms g) id) := by
  obtain ⟨all, hall, rfl⟩ := findPaths_eq_ok_iff.1 h
  obtain ⟨ways, members, hsorts⟩ := exists_sorts hall
  exact ⟨all, hall, rfl, fun id ↦
    ⟨hsorts.mem_unreachable_iff, hsorts.application_iff, hsorts.library_iff⟩⟩

/-- Of three candidates one leaks, one leaks through the cache and one is not kept at all. -/
theorem detour_sorted_by_ways :
    findPaths Detour.graph Detour.candidates Detour.matchers = .ok Detour.findings ∧
      Detour.graph.Reaches (IsPlain Detour.matchers Detour.graph) 13 ∧
      Detour.graph.Reaches (IsFollowed Detour.matchers Detour.graph) 14 ∧
      ¬ Detour.graph.Reaches (IsPlain Detour.matchers Detour.graph) 14 ∧
      ¬ Detour.graph.Reaches (IsFollowed Detour.matchers Detour.graph) 15 := by
  obtain ⟨all, -, hall, hsorted⟩ := findPaths_sorts_by_ways Detour.findPaths_eq
  have hlibrary : Detour.libraryGroup ∈ all.library := by
    have hmem : Detour.libraryGroup ∈ all.truncate.library := hall ▸ List.mem_singleton_self _
    exact List.mem_of_mem_take hmem
  have hplain := (hsorted 13).2.1.1 ⟨Detour.plainGroup, List.mem_singleton_self _,
    List.mem_singleton_self _⟩
  have hdeferred := (hsorted 14).2.2.1 ⟨_, hlibrary, List.mem_singleton_self _⟩
  have hunreachable := (hsorted 15).1.1 (List.mem_singleton_self _)
  exact ⟨Detour.findPaths_eq, hplain.2, hdeferred.2.1, hdeferred.2.2, hunreachable.2⟩

end HeapSentry.Leak
