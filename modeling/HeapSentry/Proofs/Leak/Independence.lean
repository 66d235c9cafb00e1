import HeapSentry.Proofs.Leak.Accounting
import HeapSentry.Proofs.Leak.Course
import HeapSentry.Proofs.Leak.Verdicts

/-!
# Candidates on their own

A search stops once it has found all candidates.  As nothing that it has settled would have changed
later, what is found out about a candidate is what would be found out if it were the only one.
-/

namespace HeapSentry.Leak

open Heap Matcher

variable {ms : List Matcher} {g : Graph} {ways : ObjectId → List Reference}
  {candidates candidates' : List Candidate} {c : Candidate} {m : Member} {group : Group}
  {id : ObjectId} {all : Findings} {members : List Member}

/-! ## One candidate -/

/-- The group that a member makes on its own. -/
def Group.ofMember (m : Member) : Group := ⟨m.signature, m.trace, [m.object], m.library⟩

/-- The findings for a candidate that becomes a member, if it is the only one. -/
def Findings.ofMember (m : Member) : Findings where
  application := if m.library.isNone then [.ofMember m] else []
  library := if m.library.isSome then [.ofMember m] else []

theorem Findings.truncate_ofMember (m : Member) : (ofMember m).truncate = ofMember m := by
  cases hlibrary : m.library with
  | none => simp [truncate, ofMember, hlibrary]
  | some description => simp [truncate, ofMember, hlibrary]

theorem Findings.groups_ofMember (m : Member) :
    (ofMember m).application ++ (ofMember m).library = [.ofMember m] := by
  cases hlibrary : m.library with
  | none => simp [ofMember, hlibrary]
  | some description => simp [ofMember, hlibrary]

theorem Member.ofSearch_congr {s s' : Search}
    (hfind : candidates.find? (·.object == id) = candidates'.find? (·.object == id))
    (hvisit : s.visits[id]? = s'.visits[id]?) (hway : s.way id = s'.way id) :
    Member.ofSearch g s candidates id = Member.ofSearch g s' candidates' id := by
  unfold Member.ofSearch
  rw [← hfind]
  cases hc : candidates.find? (·.object == id) with
  | none => rfl
  | some c =>
      have hobject : c.object = id := by simpa using List.find?_some hc
      have htrace : Trace.ofSearch g s c = Trace.ofSearch g s' c := by
        rw [Trace.ofSearch, Trace.ofSearch, hobject, hway]
      simp only [htrace, hvisit]

theorem found_singleton (hreaches : g.Reaches (IsFollowed ms g) c.object) :
    (searchFor g [c] ms).found.toList = [c.object] := by
  obtain ⟨ways, ho⟩ := Search.exists_outcome ms g (wantedOf [c])
  have hmem : ∀ id, id ∈ (searchFor g [c] ms).found.toList ↔ id ∈ [c.object] := by
    intro id
    rw [Array.mem_toList_iff, mem_searchFor_iff]
    constructor
    · exact fun h ↦ h.1
    · intro hid
      obtain rfl := List.mem_singleton.1 hid
      exact ⟨hid, hreaches⟩
  have hperm : (searchFor g [c] ms).found.toList.Perm [c.object] :=
    (List.perm_ext_iff_of_nodup ho.found.nodup (List.nodup_singleton _)).2 hmem
  exact List.perm_singleton.1 hperm

theorem sortCandidates_singleton_of_not_reaches
    (hreaches : ¬ g.Reaches (IsFollowed ms g) c.object) :
    sortCandidates g [c] ms = .ok { unreachable := [c.object] } := by
  have hfound : (searchFor g [c] ms).found = #[] := by
    refine Array.eq_empty_iff_forall_not_mem.2 fun id hid ↦ ?_
    obtain ⟨hid, hreached⟩ := mem_searchFor_iff.1 hid
    obtain rfl := List.mem_singleton.1 hid
    exact hreaches hreached
  refine bind_eq_ok_iff.2 ⟨[], ?_, ?_⟩
  · rw [hfound]
    rfl
  · simp [hfound, Group.ofMembers]

/-- The group of an object tells what its member tells, as far as it tells of that member. -/
theorem Group.tells_of_mem {kept : List Member} (hnodup : (members.map Member.object).Nodup)
    (hkept : kept.Sublist members) (hgroup : group ∈ ofMembers kept) (hm : m ∈ members)
    (hobject : m.object ∈ group.objects) :
    m.signature = group.signature ∧
      (group.objects.head? = some m.object → m.trace = group.trace ∧ m.library = group.library) := by
  have hcover : Cover kept (ofMembers kept) :=
    cover_of_sublist (hnodup.sublist (hkept.map _)) (List.Sublist.refl _)
  have hsame : ∀ m' ∈ kept, m'.object = m.object → m' = m := fun m' hm' heq ↦
    List.inj_on_of_nodup_map hnodup (hkept.subset hm') hm heq
  constructor
  · obtain ⟨m', hm', heq⟩ := mem_objects_iff.1 ⟨group, hgroup, hobject⟩
    obtain rfl := hsame m' hm' heq
    exact hcover.signature group hgroup m' hm' hobject
  · intro hhead
    obtain ⟨m', hm', hfirst, htrace, hlibrary⟩ := hcover.first group hgroup
    have heq : m'.object = m.object := Option.some.inj (hfirst.symm.trans hhead)
    obtain rfl := hsame m' hm' heq
    exact ⟨htrace.symm, hlibrary.symm⟩

/-- Two findings file an object alike.  In the second one it is the only object of its group, which
tells what the group in the first one tells as far as that is told of this object. -/
structure Findings.FileAlike (all alone : Findings) (id : ObjectId) : Prop where
  unreachable : id ∈ all.unreachable ↔ id ∈ alone.unreachable
  application : (∃ group ∈ all.application, id ∈ group.objects) ↔
    ∃ group ∈ alone.application, id ∈ group.objects
  library : (∃ group ∈ all.library, id ∈ group.objects) ↔
    ∃ group ∈ alone.library, id ∈ group.objects
  group : ∀ group ∈ all.application ++ all.library, id ∈ group.objects →
    ∃ group', alone.application ++ alone.library = [group'] ∧ group'.objects = [id] ∧
      group'.signature = group.signature ∧
      (group.objects.head? = some id →
        group'.trace = group.trace ∧ group'.library = group.library)

namespace Findings.Sorts

variable (h : all.Sorts ms g candidates ways members)

include h

theorem ofSearch_eq (hm : m ∈ members) :
    Member.ofSearch g (searchFor g candidates ms) candidates m.object = .ok m := by
  have hmembers := forall₂_of_discovered h.outcome h.discovered
  exact (((List.forall₂_and_left _ _).1 hmembers).1 m hm).1

/-- A member is found out on its own as it is among others. -/
theorem sortCandidates_singleton (hm : m ∈ members)
    (hc : candidates.find? (·.object == c.object) = some c) (hobject : m.object = c.object) :
    sortCandidates g [c] ms = .ok (ofMember m) := by
  have hfound : c.object ∈ (searchFor g candidates ms).found := hobject ▸ h.mem_found hm
  have hsingle := found_singleton (h.mem_found_iff.1 hfound).2
  have hfound' : c.object ∈ (searchFor g [c] ms).found := by
    rw [← Array.mem_toList_iff, hsingle]
    exact List.mem_singleton_self _
  -- The two searches may have stopped at different times, but have settled the object alike.
  obtain ⟨hvisit, hway⟩ := Search.visit_eq_of_found hfound hfound'
  have hmember : Member.ofSearch g (searchFor g [c] ms) [c] c.object = .ok m := by
    rw [← h.ofSearch_eq hm, hobject]
    refine Member.ofSearch_congr ?_ hvisit.symm hway.symm
    rw [hc]
    simp
  refine bind_eq_ok_iff.2 ⟨[m], ?_, ?_⟩
  · rw [hsingle, mapM_eq_ok_iff]
    exact .cons hmember .nil
  · cases hlibrary : m.library with
    | none => simp [ofMember, hlibrary, hfound', Group.ofMembers, Group.insert, Group.ofMember]
    | some description =>
        simp [ofMember, hlibrary, hfound', Group.ofMembers, Group.insert, Group.ofMember]

theorem exists_sortCandidates_singleton (hc : candidates.find? (·.object == c.object) = some c) :
    ∃ alone, sortCandidates g [c] ms = .ok alone ∧ alone.truncate = alone ∧
      ∀ group ∈ all.application ++ all.library, c.object ∈ group.objects →
        ∃ m ∈ members, m.object = c.object ∧ alone = ofMember m := by
  by_cases hreaches : g.Reaches (IsFollowed ms g) c.object
  · have hmem : c.object ∈ candidates.map Candidate.object :=
      List.mem_map_of_mem (List.mem_of_find?_eq_some hc)
    have hfound := h.mem_found_iff.2 ⟨hmem, hreaches⟩
    rw [← Array.mem_toList_iff, ← h.objects] at hfound
    obtain ⟨m, hm, hobject⟩ := List.mem_map.1 hfound
    exact ⟨ofMember m, h.sortCandidates_singleton hm hc hobject, truncate_ofMember m,
      fun _ _ _ ↦ ⟨m, hm, hobject, rfl⟩⟩
  · refine ⟨_, sortCandidates_singleton_of_not_reaches hreaches, rfl, ?_⟩
    intro group hgroup hid
    refine absurd ?_ hreaches
    rcases List.mem_append.1 hgroup with hgroup | hgroup
    · obtain ⟨-, way, hway⟩ := h.application_iff.1 ⟨group, hgroup, hid⟩
      exact ⟨way, (leadsTo_plain_iff.1 hway).1⟩
    · exact (h.library_iff.1 ⟨group, hgroup, hid⟩).2.1

theorem fileAlike_singleton (hc : candidates.find? (·.object == c.object) = some c) :
    ∃ alone, findPaths g [c] ms = .ok alone ∧ all.FileAlike alone c.object := by
  obtain ⟨alone, halone, htruncate, hgroup⟩ := h.exists_sortCandidates_singleton hc
  obtain ⟨ways', members', h'⟩ := exists_sorts halone
  have hmem : c.object ∈ candidates.map Candidate.object :=
    List.mem_map_of_mem (List.mem_of_find?_eq_some hc)
  have hmem' : c.object ∈ [c].map Candidate.object := List.mem_singleton_self _
  refine ⟨alone, findPaths_eq_ok_iff.2 ⟨alone, halone, htruncate.symm⟩, ?_, ?_, ?_, ?_⟩
  · rw [h.mem_unreachable_iff, h'.mem_unreachable_iff]
    simp only [hmem, hmem', true_and]
  · rw [h.application_iff, h'.application_iff]
    simp only [hmem, hmem', true_and]
  · rw [h.library_iff, h'.library_iff]
    simp only [hmem, hmem', true_and]
  · intro group hmember hid
    obtain ⟨m, hm, hobject, rfl⟩ := hgroup group hmember hid
    have hobjects : (Group.ofMember m).objects = [c.object] := congrArg ([·]) hobject
    refine ⟨.ofMember m, groups_ofMember m, hobjects, ?_⟩
    rw [← hobject] at hid ⊢
    rcases List.mem_append.1 hmember with hmember | hmember
    · rw [h.application] at hmember
      exact Group.tells_of_mem h.nodup_objects List.filter_sublist hmember hm hid
    · rw [h.library] at hmember
      exact Group.tells_of_mem h.nodup_objects List.filter_sublist hmember hm hid

/-- A candidate that is not filed at all leaks through a library whose group is not kept. -/
theorem filed_or_dropped (hc : c ∈ candidates) :
    c.object ∈ all.truncate.unreachable ∨
      (∃ group ∈ all.truncate.application ++ all.truncate.library, c.object ∈ group.objects) ∨
      ∃ group ∈ all.library.drop 1, c.object ∈ group.objects := by
  have hmem : c.object ∈ candidates.map Candidate.object := List.mem_map_of_mem hc
  by_cases hreaches : g.Reaches (IsFollowed ms g) c.object
  · right
    by_cases hplain : g.Reaches (IsPlain ms g) c.object
    · obtain ⟨group, hgroup, hid⟩ := h.application_iff.2 ⟨hmem, hplain⟩
      exact .inl ⟨group, List.mem_append_left _ hgroup, hid⟩
    · obtain ⟨group, hgroup, hid⟩ := h.library_iff.2 ⟨hmem, hreaches, hplain⟩
      rw [← List.take_append_drop 1 all.library] at hgroup
      rcases List.mem_append.1 hgroup with hgroup | hgroup
      · exact .inl ⟨group, List.mem_append_right _ hgroup, hid⟩
      · exact .inr ⟨group, hgroup, hid⟩
  · exact .inl (h.mem_unreachable_iff.2 ⟨hmem, hreaches⟩)

end Findings.Sorts

/-! ## Candidates among others -/

/-- The first candidate with its object is filed alike among others and on its own, unless its group
of library leaks is not kept.  Two searches discover the objects that they share in one order. -/
theorem findPaths_candidates_independent (g : Graph) (ms : List Matcher) :
    (∀ (candidates : List Candidate) (f : Findings) (c : Candidate),
      findPaths g candidates ms = .ok f →
      candidates.find? (·.object == c.object) = some c →
      ∃ all alone, sortCandidates g candidates ms = .ok all ∧ f = all.truncate ∧
        findPaths g [c] ms = .ok alone ∧ all.FileAlike alone c.object ∧
        (c.object ∈ f.unreachable ∨
          (∃ group ∈ f.application ++ f.library, c.object ∈ group.objects) ∨
          ∃ group ∈ all.library.drop 1, c.object ∈ group.objects)) ∧
    ∀ candidates candidates' : List Candidate,
      (searchFor g candidates ms).found.toList.filter (· ∈ candidates'.map Candidate.object) =
        (searchFor g candidates' ms).found.toList.filter
          (· ∈ candidates.map Candidate.object) := by
  constructor
  · intro candidates f c hf hc
    obtain ⟨all, hall, rfl⟩ := findPaths_eq_ok_iff.1 hf
    obtain ⟨ways, members, h⟩ := exists_sorts hall
    obtain ⟨alone, halone, halike⟩ := h.fileAlike_singleton hc
    exact ⟨all, alone, hall, rfl, halone, halike, h.filed_or_dropped (List.mem_of_find?_eq_some hc)⟩
  · intro candidates candidates'
    have hfound := Search.filter_found_eq g ms (wantedOf candidates) (wantedOf candidates')
    simpa [searchFor] using hfound

/-- On its own the candidate that leaks through the cache leaks through it as well. -/
theorem detour_candidate_alone : ∃ alone,
    findPaths Detour.graph [⟨14, "Node", "a"⟩] Detour.matchers = .ok alone ∧
      (∃ group ∈ alone.library, (14 : ObjectId) ∈ group.objects) ∧
      ∃ group, alone.application ++ alone.library = [group] ∧
        group.trace = Detour.libraryMember.trace ∧ group.library = some "cached" := by
  obtain ⟨all, alone, -, hall, halone, halike, -⟩ :=
    (findPaths_candidates_independent Detour.graph Detour.matchers).1 Detour.candidates
      Detour.findings ⟨14, "Node", "a"⟩ Detour.findPaths_eq rfl
  have hlibrary : Detour.libraryGroup ∈ all.library := by
    have hmem : Detour.libraryGroup ∈ all.truncate.library := hall ▸ List.mem_singleton_self _
    exact List.mem_of_mem_take hmem
  have hid : (14 : ObjectId) ∈ Detour.libraryGroup.objects := List.mem_singleton_self _
  obtain ⟨group, hgroup, -, -, hfirst⟩ :=
    halike.group _ (List.mem_append_right _ hlibrary) hid
  exact ⟨alone, halone, halike.library.1 ⟨_, hlibrary, hid⟩, group, hgroup, hfirst rfl⟩

end HeapSentry.Leak
