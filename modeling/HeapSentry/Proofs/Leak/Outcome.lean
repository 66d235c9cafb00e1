import HeapSentry.Proofs.Leak.Ending
import HeapSentry.Proofs.Leak.Serving
import Mathlib.Data.List.Perm.Subperm

/-!
# What a search finds

A search finds exactly the wanted objects that some way leads to, the best ways first, and going
back from what it has found gives a way that no other outranks.
-/

namespace HeapSentry.Leak

open Heap Matcher

namespace Search

variable {ms : List Matcher} {g : Graph} {s : Search} {ways : ObjectId → List Reference}
  {wanted : Std.HashSet ObjectId} {id : ObjectId} {v : Visit}

/-! ## Going back -/

/-- The way to an object starts at a source of its kind and passes no object twice. -/
structure IsChain (ms : List Matcher) (g : Graph) (kind : RootKind) (source : ObjectId)
    (way : List Reference) (id : ObjectId) : Prop where
  kind : g.sourceKind? source = some kind
  leads : g.Leads (IsFollowed ms g) source way id
  nodup : (Graph.passed source way).Nodup

theorem IsChain.leadsTo {kind : RootKind} {source : ObjectId} {way : List Reference}
    (h : IsChain ms g kind source way id) : g.LeadsTo (IsFollowed ms g) way id :=
  ⟨source, Graph.isSource_iff.2 ⟨kind, h.kind⟩, h.leads⟩

/-- Objects have been met on shorter ways the closer they are to the source, hence none is passed
twice. -/
theorem Recorded.exists_chain (h : Recorded ms g s.visits ways) (hv : s.visits[id]? = some v) :
    ∃ source, IsChain ms g v.root source (ways id) id ∧
      ∀ other ∈ Graph.passed source (ways id),
        other ∈ s.visits ∧ (ways other).length ≤ (ways id).length := by
  refine h.induction (P := fun id v ↦ ∃ source, IsChain ms g v.root source (ways id) id ∧
    ∀ other ∈ Graph.passed source (ways id),
      other ∈ s.visits ∧ (ways other).length ≤ (ways id).length) ?_ ?_ hv
  · intro id v hv hkind _ hway
    refine ⟨id, ⟨hkind, hway ▸ .nil, by simp [Graph.passed, hway]⟩, fun other hother ↦ ?_⟩
    obtain rfl : other = id := by simpa [Graph.passed, hway] using hother
    exact ⟨mem_visits hv, le_rfl⟩
  · rintro id v u r hv - htarget hmem hr - - hroot hway ⟨source, hchain, hpassed⟩
    have hlength : (ways id).length = (ways r.source).length + 1 := by simp [hway]
    have hfresh : id ∉ Graph.passed source (ways r.source) := fun hid ↦ by
      have := (hpassed id hid).2
      omega
    refine ⟨source, ⟨hroot ▸ hchain.kind, ?_, ?_⟩, fun other hother ↦ ?_⟩
    · rw [hway, ← htarget]
      exact hchain.leads.snoc hmem hr
    · rw [hway, Graph.passed_snoc, htarget]
      exact hchain.nodup.append (List.nodup_singleton _) (by simpa using hfresh)
    · rw [hway, Graph.passed_snoc, htarget, List.mem_append, List.mem_singleton] at hother
      rcases hother with hother | rfl
      · obtain ⟨hmem', hle⟩ := hpassed other hother
        exact ⟨hmem', by omega⟩
      · exact ⟨mem_visits hv, le_rfl⟩

theorem Recorded.wayBack_eq (h : Recorded ms g s.visits ways) (hv : s.visits[id]? = some v) :
    ∀ fuel, (ways id).length ≤ fuel → ∀ kind way,
      s.wayBack fuel id kind way = (v.root, ways id ++ way) := by
  refine h.induction (P := fun id v ↦ ∀ fuel, (ways id).length ≤ fuel → ∀ kind way,
    s.wayBack fuel id kind way = (v.root, ways id ++ way)) ?_ ?_ hv
  · intro id v hv _ hparent hway fuel _ kind way
    simp [Search.wayBack, hv, hparent, hway]
  · intro id v u r hv hparent _ _ _ _ _ hroot hway ih fuel hfuel kind way
    obtain ⟨fuel, rfl⟩ : ∃ n, fuel = n + 1 := ⟨fuel - 1, by simp [hway] at hfuel; omega⟩
    have hfuel' : (ways r.source).length ≤ fuel := by
      rw [hway] at hfuel
      simpa using hfuel
    rw [Search.wayBack, hv]
    simp only [hparent]
    rw [ih fuel hfuel', hroot, hway, List.append_assoc, List.singleton_append]

/-- A way never has as many references as there are objects that have been met. -/
theorem Recorded.length_lt (h : Recorded ms g s.visits ways) (hv : s.visits[id]? = some v) :
    (ways id).length < s.visits.size := by
  obtain ⟨source, hchain, hpassed⟩ := h.exists_chain hv
  have hsubset : Graph.passed source (ways id) ⊆ s.visits.keys :=
    fun other hother ↦ Std.HashMap.mem_keys.2 (hpassed other hother).1
  have hle := hchain.nodup.length_le_of_subset hsubset
  rw [Graph.length_passed, Std.HashMap.length_keys] at hle
  omega

theorem Recorded.way_eq (h : Recorded ms g s.visits ways) (hv : s.visits[id]? = some v) :
    s.way id = (v.root, ways id) := by
  have hlt := h.length_lt hv
  rw [Search.way, h.wayBack_eq hv _ (by omega), List.append_nil]

/-! ## What has been found -/

/-- What a search that has ended tells of the wanted objects. -/
structure Outcome (ms : List Matcher) (g : Graph) (s : Search) (ways : ObjectId → List Reference)
    (wanted : Std.HashSet ObjectId) : Prop where
  recorded : Recorded ms g s.visits ways
  found : Found ms g s ways wanted
  reached : ∀ {id way}, id ∈ wanted → g.LeadsTo (IsFollowed ms g) way id → id ∈ s.found
  least : ∀ {id way}, id ∈ s.found → g.LeadsTo (IsFollowed ms g) way id →
    rank ms g (ways id) ≤ rank ms g way

theorem Found.subset_of_size_le (h : Found ms g s ways wanted) (hsize : wanted.size ≤ s.found.size)
    (hid : id ∈ wanted) : id ∈ s.found := by
  have hsubset : s.found.toList ⊆ wanted.toList := fun other hother ↦
    Std.HashSet.mem_toList.2 (h.mem_iff.1 (Array.mem_toList_iff.1 hother)).1
  have hperm := (h.nodup.subperm hsubset).perm_of_length_le (by simpa using hsize)
  exact Array.mem_toList_iff.1 (hperm.mem_iff.2 (Std.HashSet.mem_toList.2 hid))

theorem exists_outcome (ms : List Matcher) (g : Graph) (wanted : Std.HashSet ObjectId) :
    ∃ ways, Outcome ms g (ofGraph g ms wanted) ways wanted := by
  obtain ⟨ways, front, ht, -⟩ := (traversal_start ms g wanted).run (entryBound g + 1)
  have hends := run_ends ms wanted (entryBound g + 1) (start g)
    (Nat.lt_succ_of_le (remaining_start_le g))
  refine ⟨ways, ht.recorded, ht.found, ?_, ?_⟩
  · intro id way hid hway
    rcases hends with hsize | hnext
    · exact ht.found.subset_of_size_le hsize hid
    · obtain ⟨hplain, hdeferred⟩ := next?_eq_none_iff.1 hnext
      -- As nothing waits, all that has been met is done.
      have hdone : ∀ {other : ObjectId} {v : Visit},
          (ofGraph g ms wanted).visits[other]? = some v → v.done = true := by
        intro other v hv
        by_contra hwaits
        rw [Bool.not_eq_true] at hwaits
        cases hlib : v.library with
        | none => simpa [hplain] using ht.queued.plain_waits hv hwaits hlib
        | some description =>
            simpa [hdeferred] using ht.queued.deferred_waits hv hwaits (by simp [hlib])
      refine ht.found.mem_iff.2 ⟨hid, ?_⟩
      rcases ht.covers_or_waits hway with ⟨⟨v, hv⟩, -⟩ | ⟨other, v, hv, hwaits, -⟩
      · exact ⟨v, hv, hdone hv⟩
      · simp [hdone hv] at hwaits
  · intro id way hid hway
    obtain ⟨-, v, hv, hdone⟩ := ht.found.mem_iff.1 hid
    exact ht.rank_le_of_done hv hdone hway

variable {way : List Reference}

theorem Outcome.leadsTo (h : Outcome ms g s ways wanted) (hid : id ∈ s.found) :
    g.LeadsTo (IsFollowed ms g) (ways id) id := by
  obtain ⟨-, v, hv, -⟩ := h.found.mem_iff.1 hid
  obtain ⟨source, hchain, -⟩ := h.recorded.exists_chain hv
  exact hchain.leadsTo

theorem Outcome.mem_found_iff (h : Outcome ms g s ways wanted) :
    id ∈ s.found ↔ id ∈ wanted ∧ g.Reaches (IsFollowed ms g) id := by
  constructor
  · exact fun hid ↦ ⟨(h.found.mem_iff.1 hid).1, ways id, h.leadsTo hid⟩
  · rintro ⟨hid, way, hway⟩
    exact h.reached hid hway

/-- A plain way is found if there is one, and a shortest one at that. -/
theorem Outcome.plain_of_leadsTo (h : Outcome ms g s ways wanted) (hid : id ∈ s.found)
    (hway : g.LeadsTo (IsPlain ms g) way id) :
    g.LeadsTo (IsPlain ms g) (ways id) id ∧ (ways id).length ≤ way.length := by
  obtain ⟨hfollowed, hnone⟩ := leadsTo_plain_iff.1 hway
  obtain ⟨hplain, hlength⟩ := plain_of_rank_le (h.least hid hfollowed) hnone
  exact ⟨leadsTo_plain_iff.2 ⟨h.leadsTo hid, hplain⟩, hlength⟩

theorem Outcome.reaches_plain_iff (h : Outcome ms g s ways wanted) (hid : id ∈ s.found) :
    g.Reaches (IsPlain ms g) id ↔ firstLibrary ms g (ways id) = none := by
  constructor
  · rintro ⟨way, hway⟩
    exact (leadsTo_plain_iff.1 (h.plain_of_leadsTo hid hway).1).2
  · exact fun hnone ↦ ⟨ways id, leadsTo_plain_iff.2 ⟨h.leadsTo hid, hnone⟩⟩

end Search

end HeapSentry.Leak
