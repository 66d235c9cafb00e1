import HeapSentry.Leak.Findings
import Mathlib.Data.List.Induction
import Mathlib.Data.List.Nodup

/-!
# Grouping members

There is one group for each signature, in the order in which the signatures first occur.  A group
has the trace and the library of its first member, and the objects of all.
-/

namespace HeapSentry.Leak

open Heap

abbrev Member.signature (m : Member) : String := m.trace.signature

abbrev Member.object (m : Member) : ObjectId := m.trace.leaking.object

namespace Group

/-- A group takes in one more member if the signatures agree. -/
def addTo (m : Member) (group : Group) : Group :=
  { group with
    objects := group.objects ++ if group.signature = m.signature then [m.object] else [] }

@[simp] theorem signature_addTo (m : Member) (group : Group) :
    (addTo m group).signature = group.signature := rfl

@[simp] theorem trace_addTo (m : Member) (group : Group) :
    (addTo m group).trace = group.trace := rfl

@[simp] theorem library_addTo (m : Member) (group : Group) :
    (addTo m group).library = group.library := rfl

theorem addTo_of_ne {m : Member} {group : Group} (h : group.signature ≠ m.signature) :
    addTo m group = group := by
  simp [addTo, h]

variable {groups : List Group} {members : List Member} {m : Member}

theorem insert_of_forall_ne (h : ∀ group ∈ groups, group.signature ≠ m.signature) :
    insert m.signature m groups =
      groups ++ [⟨m.signature, m.trace, [m.object], m.library⟩] := by
  induction groups with
  | nil => rfl
  | cons group groups ih =>
      rw [insert, if_neg (h group List.mem_cons_self),
        ih fun other hother ↦ h other (List.mem_cons_of_mem _ hother)]
      rfl

theorem insert_of_mem (hnodup : (groups.map signature).Nodup)
    (h : m.signature ∈ groups.map signature) :
    insert m.signature m groups = groups.map (addTo m) := by
  induction groups with
  | nil => simp at h
  | cons group groups ih =>
      rw [List.map_cons, List.nodup_cons] at hnodup
      rw [insert, List.map_cons]
      by_cases heq : group.signature = m.signature
      · have hrest : ∀ other ∈ groups, addTo m other = id other := by
          intro other hother
          refine addTo_of_ne fun heq' ↦ hnodup.1 ?_
          rw [heq, ← heq']
          exact List.mem_map_of_mem hother
        rw [if_pos heq, List.map_congr_left hrest, List.map_id, addTo, if_pos heq]
      · have hmem : m.signature ∈ groups.map signature := by
          simpa [Ne.symm heq] using h
        rw [if_neg heq, ih hnodup.2 hmem, addTo_of_ne heq]

/-- The groups of some members. -/
structure Gathers (members : List Member) (groups : List Group) : Prop where
  signatures_nodup : (groups.map signature).Nodup
  signature_mem : ∀ m ∈ members, m.signature ∈ groups.map signature
  objects : ∀ group ∈ groups, group.objects =
    (members.filter (·.signature = group.signature)).map Member.object
  first : ∀ group ∈ groups, ∃ m, members.find? (·.signature = group.signature) = some m ∧
    group.trace = m.trace ∧ group.library = m.library
  traces : (groups.map trace).Sublist (members.map Member.trace)

theorem Gathers.insert_new (h : Gathers members groups)
    (hnew : ∀ group ∈ groups, group.signature ≠ m.signature) :
    Gathers (members ++ [m]) (groups ++ [⟨m.signature, m.trace, [m.object], m.library⟩]) := by
  have hnone : ∀ other ∈ members, other.signature ≠ m.signature := by
    intro other hother heq
    obtain ⟨group, hgroup, hsig⟩ := List.mem_map.1 (h.signature_mem other hother)
    exact hnew group hgroup (hsig.trans heq)
  refine ⟨?_, ?_, ?_, ?_, ?_⟩
  · rw [List.map_append, List.map_singleton]
    refine h.signatures_nodup.append (List.nodup_singleton _) ?_
    simpa using hnew
  · intro other hother
    rcases List.mem_append.1 hother with hother | hother
    · rw [List.map_append]
      exact List.mem_append_left _ (h.signature_mem other hother)
    · simp [List.mem_singleton.1 hother]
  · intro group hgroup
    rcases List.mem_append.1 hgroup with hgroup | hgroup
    · rw [List.filter_append, h.objects group hgroup]
      simp [Ne.symm (hnew group hgroup)]
    · obtain rfl := List.mem_singleton.1 hgroup
      rw [List.filter_append, List.filter_eq_nil_iff.2 (by simpa using hnone)]
      simp
  · intro group hgroup
    rcases List.mem_append.1 hgroup with hgroup | hgroup
    · obtain ⟨first, hfirst, heq⟩ := h.first group hgroup
      exact ⟨first, by rw [List.find?_append, hfirst]; rfl, heq⟩
    · obtain rfl := List.mem_singleton.1 hgroup
      refine ⟨m, ?_, rfl, rfl⟩
      rw [List.find?_append, List.find?_eq_none.2 (by simpa using hnone)]
      simp
  · rw [List.map_append, List.map_append]
    exact h.traces.append (List.Sublist.refl _)

theorem Gathers.insert_known (h : Gathers members groups)
    (hmem : m.signature ∈ groups.map signature) :
    Gathers (members ++ [m]) (groups.map (addTo m)) := by
  have hsignatures : (groups.map (addTo m)).map signature = groups.map signature := by
    rw [List.map_map]
    rfl
  have htraces : (groups.map (addTo m)).map trace = groups.map trace := by
    rw [List.map_map]
    rfl
  refine ⟨?_, ?_, ?_, ?_, ?_⟩
  · rw [hsignatures]
    exact h.signatures_nodup
  · rw [hsignatures]
    intro other hother
    rcases List.mem_append.1 hother with hother | hother
    · exact h.signature_mem other hother
    · exact List.mem_singleton.1 hother ▸ hmem
  · intro group' hgroup'
    obtain ⟨group, hgroup, rfl⟩ := List.mem_map.1 hgroup'
    rw [signature_addTo, List.filter_append, List.map_append, ← h.objects group hgroup, addTo]
    by_cases heq : group.signature = m.signature
    · simp [heq]
    · simp [heq, Ne.symm heq]
  · intro group' hgroup'
    obtain ⟨group, hgroup, rfl⟩ := List.mem_map.1 hgroup'
    obtain ⟨first, hfirst, heq⟩ := h.first group hgroup
    rw [signature_addTo, trace_addTo, library_addTo]
    exact ⟨first, by rw [List.find?_append, hfirst]; rfl, heq⟩
  · rw [htraces, List.map_append]
    exact h.traces.trans (List.sublist_append_left _ _)

theorem gathers_nil : Gathers [] [] where
  signatures_nodup := List.nodup_nil
  signature_mem := by simp
  objects := by simp
  first := by simp
  traces := List.Sublist.refl _

theorem ofMembers_snoc (members : List Member) (m : Member) :
    ofMembers (members ++ [m]) = insert m.signature m (ofMembers members) := by
  rw [ofMembers, List.foldl_append]
  rfl

theorem gathers_ofMembers (members : List Member) : Gathers members (ofMembers members) := by
  induction members using List.reverseRecOn with
  | nil => exact gathers_nil
  | append_singleton members m ih =>
      rw [ofMembers_snoc]
      by_cases hmem : m.signature ∈ (ofMembers members).map signature
      · rw [insert_of_mem ih.signatures_nodup hmem]
        exact ih.insert_known hmem
      · have hnew : ∀ group ∈ ofMembers members, group.signature ≠ m.signature :=
          fun group hgroup heq ↦ hmem (heq ▸ List.mem_map_of_mem hgroup)
        rw [insert_of_forall_ne hnew]
        exact ih.insert_new hnew

/-! ## What becomes of all members -/

theorem flatMap_objects_insert (m : Member) (groups : List Group) :
    ((insert m.signature m groups).flatMap objects).Perm (m.object :: groups.flatMap objects) := by
  induction groups with
  | nil => exact List.Perm.refl _
  | cons group groups ih =>
      rw [insert]
      by_cases heq : group.signature = m.signature
      · rw [if_pos heq, List.flatMap_cons, List.flatMap_cons, List.append_assoc]
        exact List.perm_middle
      · rw [if_neg heq, List.flatMap_cons, List.flatMap_cons]
        exact (ih.append_left _).trans List.perm_middle

/-- Groups hold the objects of all members, each as often as there are members with it. -/
theorem flatMap_objects_ofMembers (members : List Member) :
    ((ofMembers members).flatMap objects).Perm (members.map Member.object) := by
  induction members using List.reverseRecOn with
  | nil => exact List.Perm.refl _
  | append_singleton members m ih =>
      rw [ofMembers_snoc, List.map_append, List.map_singleton]
      have hinsert := flatMap_objects_insert m (ofMembers members)
      exact (hinsert.trans (ih.cons _)).trans (List.perm_append_singleton _ _).symm

theorem signature_head?_insert (m : Member) (h : groups ≠ []) :
    (insert m.signature m groups).head?.map signature = groups.head?.map signature := by
  cases groups with
  | nil => exact absurd rfl h
  | cons group groups =>
      rw [insert]
      split <;> rfl

/-- The first group is that of the first member. -/
theorem signature_head?_ofMembers (members : List Member) :
    (ofMembers members).head?.map signature = members.head?.map Member.signature := by
  induction members using List.reverseRecOn with
  | nil => rfl
  | append_singleton members m ih =>
      rw [ofMembers_snoc]
      cases members with
      | nil => rfl
      | cons first rest =>
          have hne : ofMembers (first :: rest) ≠ [] := by
            intro hnil
            rw [hnil] at ih
            simp at ih
          rw [signature_head?_insert m hne, ih]
          rfl

/-! ## What groups hold -/

theorem mem_objects_iff {id : ObjectId} :
    (∃ group ∈ ofMembers members, id ∈ group.objects) ↔ ∃ m ∈ members, m.object = id := by
  have h := gathers_ofMembers members
  constructor
  · rintro ⟨group, hgroup, hid⟩
    rw [h.objects group hgroup] at hid
    obtain ⟨m, hm, rfl⟩ := List.mem_map.1 hid
    exact ⟨m, List.mem_of_mem_filter hm, rfl⟩
  · rintro ⟨m, hm, rfl⟩
    obtain ⟨group, hgroup, hsig⟩ := List.mem_map.1 (h.signature_mem m hm)
    refine ⟨group, hgroup, ?_⟩
    rw [h.objects group hgroup]
    exact List.mem_map_of_mem (List.mem_filter.2 ⟨hm, by simp [hsig]⟩)

/-- A group tells of the member whose object comes first in it. -/
theorem exists_first {group : Group} (hgroup : group ∈ ofMembers members) :
    ∃ m ∈ members, group.objects.head? = some m.object ∧ group.trace = m.trace ∧
      group.library = m.library := by
  have h := gathers_ofMembers members
  obtain ⟨m, hfirst, htrace, hlibrary⟩ := h.first group hgroup
  refine ⟨m, List.mem_of_find?_eq_some hfirst, ?_, htrace, hlibrary⟩
  rw [h.objects group hgroup, List.head?_map, List.head?_filter, hfirst]
  rfl

/-- What orders the traces of members orders the traces of their groups. -/
theorem pairwise_traces {R : Trace → Trace → Prop}
    (h : members.Pairwise fun m m' ↦ R m.trace m'.trace) :
    (ofMembers members).Pairwise fun group group' ↦ R group.trace group'.trace :=
  List.pairwise_map.1 ((List.pairwise_map.2 h).sublist (gathers_ofMembers members).traces)

end Group

end HeapSentry.Leak
