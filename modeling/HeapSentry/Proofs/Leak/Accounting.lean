import HeapSentry.Proofs.Leak.Members

/-!
# No candidate is lost

Each candidate has one fate.  It is unreachable, or its object stands once in one group, or its
group of library leaks is not the one that is kept.
-/

namespace HeapSentry.Leak

open Heap Matcher

variable {ms : List Matcher} {g : Graph} {ways : ObjectId → List Reference}
  {candidates : List Candidate} {id : ObjectId} {all : Findings} {members : List Member}

inductive Fate where
  | unreachable | application | library
  /-- It leaks through a library, but its signature is not that of the first such leak. -/
  | dropped
  deriving DecidableEq

namespace Member

/-- Whether a member has the signature of the first of some members. -/
def isLeading (members : List Member) (m : Member) : Bool :=
  members.head?.any (·.signature = m.signature)

/-- The members that leak through a library. -/
abbrev libraryLeaks (members : List Member) : List Member := members.filter (·.library.isSome)

abbrev applicationLeaks (members : List Member) : List Member := members.filter (·.library.isNone)

/-- The fate of one of some members that have been discovered. -/
def fate (members : List Member) (m : Member) : Fate :=
  if m.library.isNone then .application
  else if isLeading (libraryLeaks members) m then .library
  else .dropped

theorem fate_ne_unreachable (members : List Member) (m : Member) :
    m.fate members ≠ .unreachable := by
  unfold fate
  split
  · decide
  · split <;> decide

theorem fate_eq_application_iff {m : Member} :
    m.fate members = .application ↔ m.library.isNone := by
  unfold fate
  split
  next hnone => simp [hnone]
  next hsome => split <;> simp [hsome]

theorem fate_eq_library_iff {m : Member} :
    m.fate members = .library ↔ m.library.isSome ∧ isLeading (libraryLeaks members) m := by
  unfold fate
  cases m.library <;> simp

theorem fate_eq_dropped_iff {m : Member} :
    m.fate members = .dropped ↔ m.library.isSome ∧ ¬ isLeading (libraryLeaks members) m := by
  unfold fate
  cases m.library <;> simp

end Member

open Member

/-- The objects of a fate, where `members` have been discovered. -/
def Findings.filed (f : Findings) (members : List Member) : Fate → List ObjectId
  | .unreachable => f.unreachable
  | .application => f.application.flatMap Group.objects
  | .library => f.library.flatMap Group.objects
  | .dropped => ((libraryLeaks members).filter (!isLeading (libraryLeaks members) ·)).map object

/-- The groups of some members, with their traces and objects in order of discovery. -/
structure Group.Cover (members : List Member) (groups : List Group) : Prop where
  signatures_nodup : (groups.map Group.signature).Nodup
  discovery : (groups.map (·.trace.leaking.object)).Sublist (members.map object)
  first : ∀ group ∈ groups, ∃ m ∈ members, group.objects.head? = some m.object ∧
    group.trace = m.trace ∧ group.library = m.library
  objects : ∀ group ∈ groups, group.objects =
    (members.filter (·.signature = group.signature)).map object
  objects_nodup : ∀ group ∈ groups, group.objects.Nodup
  signature : ∀ group ∈ groups, ∀ m ∈ members, m.object ∈ group.objects →
    m.signature = group.signature

namespace Group

theorem cover_of_sublist {groups : List Group} (hnodup : (members.map object).Nodup)
    (hgroups : groups.Sublist (ofMembers members)) : Cover members groups := by
  have h := gathers_ofMembers members
  have hobjects : ∀ group ∈ groups, group.objects =
      (members.filter (·.signature = group.signature)).map object :=
    fun group hgroup ↦ h.objects group (hgroups.subset hgroup)
  refine ⟨?_, ?_, ?_, hobjects, ?_, ?_⟩
  · exact h.signatures_nodup.sublist (hgroups.map _)
  · have htraces := ((hgroups.map Group.trace).trans h.traces).map (·.leaking.object)
    simpa [List.map_map, Function.comp_def] using htraces
  · intro group hgroup
    obtain ⟨m, hm, hfirst⟩ := exists_first (hgroups.subset hgroup)
    exact ⟨m, hm, hfirst⟩
  · intro group hgroup
    rw [hobjects group hgroup]
    exact hnodup.sublist (List.filter_sublist.map _)
  · intro group hgroup m hm hobject
    rw [hobjects group hgroup] at hobject
    obtain ⟨m', hm', heq⟩ := List.mem_map.1 hobject
    obtain ⟨hmem', hsignature⟩ := List.mem_filter.1 hm'
    obtain rfl := List.inj_on_of_nodup_map hnodup hmem' hm heq
    simpa using hsignature

/-- The first group has the members that have the signature of the first. -/
theorem flatMap_objects_take_one (members : List Member) :
    ((ofMembers members).take 1).flatMap objects =
      (members.filter (isLeading members)).map object := by
  have hhead := signature_head?_ofMembers members
  cases members with
  | nil => rfl
  | cons m rest =>
      obtain ⟨group, hgroup, hsignature⟩ := Option.map_eq_some_iff.1 hhead
      obtain ⟨groups, hcons⟩ := List.head?_eq_some_iff.1 hgroup
      have hmem : group ∈ ofMembers (m :: rest) := hcons ▸ List.mem_cons_self
      rw [hcons, List.take_succ_cons, List.take_zero, List.flatMap_singleton,
        (gathers_ofMembers _).objects group hmem]
      refine congrArg _ (List.filter_congr fun other _ ↦ ?_)
      simp [isLeading, hsignature, eq_comm]

end Group

namespace Findings.Sorts

variable (h : all.Sorts ms g candidates ways members)

include h

theorem nodup_objects : (members.map object).Nodup := h.objects ▸ h.outcome.found.nodup

theorem unreachable_eq : all.unreachable =
    (candidates.map Candidate.object).filter (· ∉ members.map object) := by
  rw [h.unreachable, h.objects]
  refine List.filter_congr fun id _ ↦ ?_
  simp

/-- Those that were discovered are filed or dropped by their fates. -/
theorem filed_perm {fate : Fate} (hfate : fate ≠ .unreachable) :
    (all.truncate.filed members fate).Perm
      ((members.filter (·.fate members = fate)).map object) := by
  cases fate with
  | unreachable => exact absurd rfl hfate
  | application =>
      have hfates : applicationLeaks members = members.filter (·.fate members = .application) :=
        List.filter_congr fun m _ ↦ by simp only [fate_eq_application_iff, Bool.decide_eq_true]
      change (all.application.flatMap Group.objects).Perm _
      rw [h.application, ← hfates]
      exact Group.flatMap_objects_ofMembers _
  | library =>
      have hfates : (libraryLeaks members).filter (isLeading (libraryLeaks members)) =
          members.filter (·.fate members = .library) := by
        rw [List.filter_filter]
        exact List.filter_congr fun m _ ↦ by simp [fate_eq_library_iff, Bool.and_comm]
      change ((all.library.take 1).flatMap Group.objects).Perm _
      rw [h.library, Group.flatMap_objects_take_one, hfates]
  | dropped =>
      have hfates : (libraryLeaks members).filter (!isLeading (libraryLeaks members) ·) =
          members.filter (·.fate members = .dropped) := by
        rw [List.filter_filter]
        exact List.filter_congr fun m _ ↦ by simp [fate_eq_dropped_iff, Bool.and_comm]
      rw [Findings.filed, hfates]

theorem mem_filed_iff {fate : Fate} : id ∈ all.truncate.filed members fate ↔
    (fate = .unreachable ∧ id ∈ candidates.map Candidate.object ∧ id ∉ members.map object) ∨
      ∃ m ∈ members, m.object = id ∧ m.fate members = fate := by
  by_cases hfate : fate = .unreachable
  · subst hfate
    change id ∈ all.unreachable ↔ _
    simp [h.unreachable_eq, fate_ne_unreachable]
  · simp only [hfate, false_and, false_or]
    rw [(h.filed_perm hfate).mem_iff, List.mem_map]
    simp only [List.mem_filter, decide_eq_true_iff, and_assoc, and_comm (a := object _ = id)]

theorem count_filed {fate : Fate} (hfate : fate ≠ .unreachable)
    (hid : id ∈ all.truncate.filed members fate) :
    (all.truncate.filed members fate).count id = 1 := by
  have hsublist : ((members.filter (·.fate members = fate)).map object).Sublist
      (members.map object) := List.filter_sublist.map _
  have hnodup := (h.filed_perm hfate).symm.nodup (h.nodup_objects.sublist hsublist)
  exact List.count_eq_one_of_mem hnodup hid

theorem count_unreachable (hid : id ∈ all.unreachable) :
    all.unreachable.count id = (candidates.map Candidate.object).count id := by
  rw [h.unreachable_eq] at hid ⊢
  exact List.count_filter (List.mem_filter.1 hid).2

theorem mem_candidates {fate : Fate} (hid : id ∈ all.truncate.filed members fate) :
    id ∈ candidates.map Candidate.object := by
  rcases h.mem_filed_iff.1 hid with ⟨-, hcandidate, -⟩ | ⟨m, hm, rfl, -⟩
  · exact hcandidate
  · exact (h.mem_found_iff.1 (h.mem_found hm)).1

theorem exists_fate (hid : id ∈ candidates.map Candidate.object) :
    ∃ fate, id ∈ all.truncate.filed members fate := by
  by_cases hmember : id ∈ members.map object
  · obtain ⟨m, hm, hobject⟩ := List.mem_map.1 hmember
    exact ⟨m.fate members, h.mem_filed_iff.2 (.inr ⟨m, hm, hobject, rfl⟩)⟩
  · exact ⟨.unreachable, h.mem_filed_iff.2 (.inl ⟨rfl, hid, hmember⟩)⟩

theorem fate_unique {fate fate' : Fate} (hid : id ∈ all.truncate.filed members fate)
    (hid' : id ∈ all.truncate.filed members fate') : fate = fate' := by
  rcases h.mem_filed_iff.1 hid with ⟨rfl, -, hnew⟩ | ⟨m, hm, hobject, rfl⟩
  · rcases h.mem_filed_iff.1 hid' with ⟨rfl, -, -⟩ | ⟨m', hm', hobject', -⟩
    · rfl
    · exact absurd (hobject' ▸ List.mem_map_of_mem hm') hnew
  · rcases h.mem_filed_iff.1 hid' with ⟨-, -, hnew⟩ | ⟨m', hm', hobject', rfl⟩
    · exact absurd (hobject ▸ List.mem_map_of_mem hm) hnew
    · have heq : m = m' :=
        List.inj_on_of_nodup_map h.nodup_objects hm hm' (hobject.trans hobject'.symm)
      rw [heq]

end Findings.Sorts

/-- Every candidate has one fate.  It is unreachable as often as it is a candidate, or it stands
once in all groups of one list, or it is dropped once.  The groups of each list cover the members
of their kind in order of discovery. -/
theorem findPaths_files_each_candidate {f : Findings} (h : findPaths g candidates ms = .ok f) :
    ∃ members, discovered g candidates ms = .ok members ∧
      (members.map object).Nodup ∧
      f.unreachable = (candidates.map Candidate.object).filter (· ∉ members.map object) ∧
      (∀ id ∈ candidates.map Candidate.object, ∃ fate,
        (∀ other, id ∈ f.filed members other ↔ other = fate) ∧
        (f.filed members fate).count id =
          if fate = .unreachable then (candidates.map Candidate.object).count id else 1) ∧
      (∀ fate, f.filed members fate ⊆ candidates.map Candidate.object) ∧
      Group.Cover (applicationLeaks members) f.application ∧
      f.library.length ≤ 1 ∧ Group.Cover (libraryLeaks members) f.library := by
  obtain ⟨all, hall, rfl⟩ := findPaths_eq_ok_iff.1 h
  obtain ⟨ways, members, hsorts⟩ := exists_sorts hall
  have hnodup := hsorts.nodup_objects
  refine ⟨members, hsorts.discovered, hnodup, hsorts.unreachable_eq, ?_, ?_, ?_, ?_, ?_⟩
  · intro id hid
    obtain ⟨fate, hfate⟩ := hsorts.exists_fate hid
    refine ⟨fate, fun other ↦ ⟨fun hother ↦ hsorts.fate_unique hother hfate, ?_⟩, ?_⟩
    · rintro rfl
      exact hfate
    · split
      next hunreachable =>
        subst hunreachable
        exact hsorts.count_unreachable hfate
      next hreached => exact hsorts.count_filed hreached hfate
  · exact fun fate id hid ↦ hsorts.mem_candidates hid
  · have happlication : all.truncate.application.Sublist
        (Group.ofMembers (applicationLeaks members)) := hsorts.application ▸ List.Sublist.refl _
    exact Group.cover_of_sublist (hnodup.sublist (List.filter_sublist.map _)) happlication
  · exact List.length_take_le 1 all.library
  · have hlibrary : all.truncate.library.Sublist
        (Group.ofMembers (libraryLeaks members)) := hsorts.library ▸ List.take_sublist 1 _
    exact Group.cover_of_sublist (hnodup.sublist (List.filter_sublist.map _)) hlibrary

/-- Each of the three candidates has a fate of its own, so that none is dropped. -/
theorem detour_files_each_candidate :
    findPaths Detour.graph Detour.candidates Detour.matchers = .ok Detour.findings ∧
      ∃ members, discovered Detour.graph Detour.candidates Detour.matchers = .ok members ∧
        Detour.findings.filed members .unreachable = [15] ∧
        Detour.findings.filed members .application = [13] ∧
        Detour.findings.filed members .library = [14] ∧
        Detour.findings.filed members .dropped = [] := by
  obtain ⟨members, hmembers, -, -, hfates, hcandidates, -⟩ :=
    findPaths_files_each_candidate Detour.findPaths_eq
  refine ⟨Detour.findPaths_eq, members, hmembers, rfl, rfl, rfl, ?_⟩
  refine List.eq_nil_iff_forall_not_mem.2 fun id hid ↦ ?_
  have hcandidate := hcandidates .dropped hid
  obtain ⟨fate, hfate, -⟩ := hfates id hcandidate
  obtain rfl := (hfate .dropped).1 hid
  have hother : ∀ other : Fate, other ≠ .dropped → id ∉ Detour.findings.filed members other :=
    fun other hne hmem ↦ hne ((hfate other).1 hmem)
  rcases List.mem_cons.1 hcandidate with rfl | hcandidate
  · exact hother .library (by decide) (List.mem_singleton_self _)
  · rcases List.mem_cons.1 hcandidate with rfl | hcandidate
    · exact hother .unreachable (by decide) (List.mem_singleton_self _)
    · obtain rfl := List.mem_singleton.1 hcandidate
      exact hother .application (by decide) (List.mem_singleton_self _)

end HeapSentry.Leak
