import HeapSentry.Proofs.Leak.Traversal
import Mathlib.Data.List.Induction
import Mathlib.Data.List.Nodup

/-!
# The start of a search

The roots that are objects have been met, the first of each id, and wait in their order.
-/

namespace HeapSentry.Leak

open Heap Matcher

namespace Search

/-- The roots entered so far, the first of each id, have been met and wait. -/
structure Entered (g : Graph) (roots : List Root) (s : Search) : Prop where
  visits : ∀ id, s.visits[id]? =
    if (g.object? id).isSome then
      (roots.find? (·.id == id)).map fun root ↦ ⟨none, root.kind, none, false⟩
    else none
  plain : ∀ {id}, id ∈ s.plain.toList ↔ ∃ v, s.visits[id]? = some v
  plain_nodup : s.plain.toList.Nodup
  deferred : s.deferred.toList = []
  found : s.found = #[]

variable {g : Graph} {s : Search} {roots : List Root}

theorem Entered.enter (h : Entered g roots s) (root : Root) :
    Entered g (roots ++ [root]) (s.enter g root) := by
  have hcontains : s.visits.contains root.id = s.visits[root.id]?.isSome :=
    Std.HashMap.contains_eq_isSome_getElem?
  rw [Search.enter]
  split
  next hskip =>
    refine ⟨fun id ↦ ?_, h.plain, h.plain_nodup, h.deferred, h.found⟩
    rw [h.visits]
    by_cases hid : root.id = id
    · subst hid
      cases hobject : g.object? root.id with
      | none => simp
      | some o =>
          have hfind : (roots.find? (·.id == root.id)).isSome := by
            simpa [hcontains, h.visits, hobject] using hskip
          simp [List.find?_append, Option.or_of_isSome hfind]
    · simp [List.find?_append, hid]
  next hskip =>
    have hmet : s.visits[root.id]? = none ∧ (g.object? root.id).isSome := by
      rw [hcontains, Bool.or_eq_true, not_or, Option.not_isSome_iff_eq_none] at hskip
      exact ⟨hskip.1, Option.isSome_iff_ne_none.2 fun hnone ↦ hskip.2 (by simp [hnone])⟩
    have hfind : roots.find? (·.id == root.id) = none := by
      have hnone := hmet.1
      rwa [h.visits, if_pos hmet.2, Option.map_eq_none_iff] at hnone
    refine ⟨fun id ↦ ?_, fun {id} ↦ ?_, ?_, ?_, ?_⟩
    · rw [visits_meet, Std.HashMap.getElem?_insert, List.find?_append, h.visits]
      by_cases hid : root.id = id
      · subst hid
        simp [hfind, hmet.2]
      · simp [hid]
    · rw [toList_plain_meet, if_pos rfl, List.mem_append, List.mem_singleton, h.plain, visits_meet]
      simp only [getElem?_insert_eq_some]
      by_cases hid : id = root.id
      · simp [hid]
      · simp [hid]
    · rw [toList_plain_meet, if_pos rfl]
      refine h.plain_nodup.append (List.nodup_singleton _) ?_
      simp [h.plain, hmet.1]
    · rw [toList_deferred_meet, if_pos rfl, h.deferred]
    · rw [found_meet, h.found]

theorem entered_foldl (roots : List Root) : Entered g roots (roots.foldl (enter g) {}) := by
  induction roots using List.reverseRecOn with
  | nil => exact ⟨by simp, by simp [Queue.toList, Queue.empty], by simp, rfl, rfl⟩
  | append_singleton roots root ih =>
      rw [List.foldl_append]
      exact ih.enter root

theorem entered_start (g : Graph) : Entered g g.roots.toList (start g) := by
  rw [start, ← Array.foldl_toList]
  exact entered_foldl _

theorem start_visits (id : ObjectId) : (start g).visits[id]? =
    (g.sourceKind? id).map fun kind ↦ ⟨none, kind, none, false⟩ := by
  rw [(entered_start g).visits, Graph.sourceKind?]
  split <;> simp [Function.comp_def]

theorem of_start_visits {id : ObjectId} {v : Visit} (hv : (start g).visits[id]? = some v) :
    g.sourceKind? id = some v.root ∧ v.parent = none ∧ v.library = none ∧ v.done = false := by
  rw [start_visits, Option.map_eq_some_iff] at hv
  obtain ⟨kind, hkind, rfl⟩ := hv
  exact ⟨hkind, rfl, rfl, rfl⟩

theorem queued_start (g : Graph) : Queued (start g) := by
  have he := entered_start g
  refine ⟨?_, ?_, ?_, ?_, he.plain_nodup, ?_⟩
  · intro id hmem
    obtain ⟨v, hv⟩ := he.plain.1 hmem
    obtain ⟨-, -, hlib, hdone⟩ := of_start_visits hv
    exact ⟨v, hv, hdone, hlib⟩
  · simp [he.deferred]
  · exact fun hv _ _ ↦ he.plain.2 ⟨_, hv⟩
  · intro id v hv _ hsome
    obtain ⟨-, -, hlib, -⟩ := of_start_visits hv
    simp [hlib] at hsome
  · simp [he.deferred]

theorem ordered_start (ms : List Matcher) (g : Graph) :
    Ordered ms g (start g) (fun _ ↦ []) [] := by
  have he := entered_start g
  refine ⟨List.pairwise_of_forall fun _ _ ↦ le_rfl, ?_, fun _ ↦ ⟨le_rfl, Nat.zero_le _⟩, ?_,
    fun _ _ ↦ le_rfl⟩
  · simp [he.deferred]
  · simp [he.deferred]

theorem found_start (ms : List Matcher) (g : Graph) (wanted : Std.HashSet ObjectId) :
    Found ms g (start g) (fun _ ↦ []) wanted := by
  have he := entered_start g
  refine ⟨?_, by simp [he.found], by simp [he.found]⟩
  intro id
  simp only [he.found, Array.not_mem_empty, false_iff]
  rintro ⟨-, v, hv, hdone⟩
  obtain ⟨-, -, -, hwaits⟩ := of_start_visits hv
  simp [hwaits] at hdone

/-- Before anything is served, the way to every object met is empty. -/
theorem traversal_start (ms : List Matcher) (g : Graph) (wanted : Std.HashSet ObjectId) :
    Traversal ms g (start g) (fun _ ↦ []) wanted [] [] := by
  refine ⟨⟨?_, ?_⟩, queued_start g, ordered_start ms g, ⟨?_, ?_⟩, found_start ms g wanted⟩
  · intro id v hv
    obtain ⟨hkind, hparent, -⟩ := of_start_visits hv
    exact .root hkind hparent rfl
  · intro id v hv
    obtain ⟨-, -, hlib, -⟩ := of_start_visits hv
    exact hlib
  · intro id hsource
    obtain ⟨kind, hkind⟩ := Graph.isSource_iff.1 hsource
    exact ⟨⟨_, by rw [start_visits, hkind]; rfl⟩, le_rfl⟩
  · intro id v hv hdone
    obtain ⟨-, -, -, hwaits⟩ := of_start_visits hv
    simp [hwaits] at hdone

end Search

end HeapSentry.Leak
