import HeapSentry.Proofs.Leak.Traversal
import Mathlib.Data.List.Nodup

/-!
# Taking an entry from its queue

An entry whose object is done is stale and goes away.  Otherwise the object is settled, which leaves
all its references to be followed; its way ranks before those of all that waits.
-/

namespace HeapSentry.Leak

open Heap Matcher

namespace Search

variable {ms : List Matcher} {g : Graph} {s rest : Search} {ways : ObjectId → List Reference}
  {wanted : Std.HashSet ObjectId} {front pending : List Reference} {id : ObjectId} {v : Visit}

/-! ## Taking an entry -/

theorem sublist_of_next? (h : s.next? = some (id, rest)) :
    rest.plain.toList.Sublist s.plain.toList ∧
      rest.deferred.toList.Sublist s.deferred.toList := by
  obtain ⟨-, -, ⟨hp, hd⟩ | ⟨hp, hp', hd⟩⟩ := next?_eq_some h
  · rw [hp, hd]
    exact ⟨List.sublist_cons_self _ _, List.Sublist.refl _⟩
  · rw [hp, hp', hd]
    exact ⟨List.Sublist.refl _, List.sublist_cons_self _ _⟩

theorem mem_of_next? (h : s.next? = some (id, rest)) {other : ObjectId} (hne : other ≠ id) :
    (other ∈ rest.plain.toList ↔ other ∈ s.plain.toList) ∧
      (other ∈ rest.deferred.toList ↔ other ∈ s.deferred.toList) := by
  obtain ⟨-, -, ⟨hp, hd⟩ | ⟨hp, hp', hd⟩⟩ := next?_eq_some h
  · simp [hp, hd, hne]
  · simp [hp, hp', hd, hne]

theorem Queued.met_of_next? (hq : Queued s) (h : s.next? = some (id, rest)) :
    ∃ v, s.visits[id]? = some v := by
  obtain ⟨-, -, ⟨hp, -⟩ | ⟨-, -, hd⟩⟩ := next?_eq_some h
  · have hmem : id ∈ s.plain.toList := by simp [hp]
    obtain ⟨v, hv, -⟩ := hq.mem_plain hmem
    exact ⟨v, hv⟩
  · have hmem : id ∈ s.deferred.toList := by simp [hd]
    obtain ⟨v, hv, -⟩ := hq.mem_deferred hmem
    exact ⟨v, hv⟩

/-- No object waits twice in the queue that it is taken from. -/
theorem Queued.notMem_of_next? (hq : Queued s) (h : s.next? = some (id, rest))
    (hv : s.visits[id]? = some v) :
    id ∉ rest.plain.toList ∧ (v.library.isSome → id ∉ rest.deferred.toList) := by
  obtain ⟨-, -, ⟨hp, hd⟩ | ⟨hp, hp', hd⟩⟩ := next?_eq_some h
  · have hnodup := hq.plain_nodup
    rw [hp, List.nodup_cons] at hnodup
    have hmem : id ∈ s.plain.toList := by simp [hp]
    obtain ⟨u, hu, -, hlib⟩ := hq.mem_plain hmem
    obtain rfl : v = u := by simpa [hv] using hu
    exact ⟨hnodup.1, by simp [hlib]⟩
  · have hnodup := hq.deferred_nodup
    rw [hd, List.nodup_cons] at hnodup
    exact ⟨by simp [hp'], fun _ ↦ hnodup.1⟩

/-- What is taken comes first in the order of ranks. -/
theorem Traversal.rank_le_of_next? (ht : Traversal ms g s ways wanted front pending)
    (h : s.next? = some (id, rest)) :
    (∀ other ∈ rest.plain.toList, rank ms g (ways id) ≤ rank ms g (ways other)) ∧
      ∀ other ∈ rest.deferred.toList, Deferred ms g ways other →
        rank ms g (ways id) ≤ rank ms g (ways other) := by
  obtain ⟨-, -, ⟨hp, hd⟩ | ⟨hp, hp', hd⟩⟩ := next?_eq_some h
  · have hsorted := ht.ordered.plain_sorted
    rw [hp, List.pairwise_cons] at hsorted
    refine ⟨hsorted.1, fun other _ hother ↦ ?_⟩
    have hmem : id ∈ s.plain.toList := by simp [hp]
    obtain ⟨u, hu, -, hlib⟩ := ht.queued.mem_plain hmem
    have hplain : firstLibrary ms g (ways id) = none := ht.recorded.library hu ▸ hlib
    exact (rank_lt_of_plain_of_library hplain hother).le
  · have hsorted := ht.ordered.deferred_sorted
    rw [hd, List.pairwise_cons] at hsorted
    exact ⟨by simp [hp'], hsorted.1⟩

/-! ## Stale entries -/

/-- Entries of objects that are done can be dropped. -/
theorem Traversal.drop (ht : Traversal ms g s ways wanted front pending)
    (h : s.next? = some (id, rest)) (hv : s.visits[id]? = some v) (hdone : v.done = true) :
    Traversal ms g rest ways wanted front pending := by
  obtain ⟨hvisits, hfound, -⟩ := next?_eq_some h
  obtain ⟨hplain, hdeferred⟩ := sublist_of_next? h
  have hne : ∀ {other u}, rest.visits[other]? = some u → u.done = false → other ≠ id := by
    rintro other u hu hwaits rfl
    simp_all
  have hq := ht.queued
  have ho := ht.ordered
  exact {
    recorded := hvisits ▸ ht.recorded
    queued := {
      mem_plain := fun hmem ↦ hvisits ▸ hq.mem_plain (hplain.subset hmem)
      mem_deferred := fun hmem ↦ hvisits ▸ hq.mem_deferred (hdeferred.subset hmem)
      plain_waits := fun hu hwaits hlib ↦
        (mem_of_next? h (hne hu hwaits)).1.2 (hq.plain_waits (hvisits ▸ hu) hwaits hlib)
      deferred_waits := fun hu hwaits hlib ↦
        (mem_of_next? h (hne hu hwaits)).2.2 (hq.deferred_waits (hvisits ▸ hu) hwaits hlib)
      plain_nodup := hq.plain_nodup.sublist hplain
      deferred_nodup := hq.deferred_nodup.sublist hdeferred }
    ordered := {
      plain_sorted := ho.plain_sorted.sublist hplain
      deferred_sorted := ho.deferred_sorted.sublist hdeferred
      plain_ahead := fun hmem ↦ ho.plain_ahead (hplain.subset hmem)
      deferred_ahead := fun hmem ↦ ho.deferred_ahead (hdeferred.subset hmem)
      done_behind := fun hu ↦ ho.done_behind (hvisits ▸ hu) }
    followed := hvisits ▸ ht.followed
    found := {
      mem_iff := by
        intro other
        rw [hvisits, hfound]
        exact ht.found.mem_iff
      nodup := hfound ▸ ht.found.nodup
      sorted := hfound ▸ ht.found.sorted } }

/-! ## Settling an object -/

theorem improves_settle (hv : s.visits[id]? = some v) (hdone : v.done = false) :
    Improves ms g s.visits (s.visits.insert id { v with done := true }) ways ways where
  met := by
    intro other u hu
    by_cases hid : other = id
    · exact ⟨⟨_, getElem?_insert_eq_some.2 (.inl ⟨hid, rfl⟩)⟩, le_rfl⟩
    · exact ⟨⟨u, getElem?_insert_eq_some.2 (.inr ⟨hid, hu⟩)⟩, le_rfl⟩
  done := by
    intro other u hu hother
    have hid : other ≠ id := by
      rintro rfl
      simp_all
    exact ⟨getElem?_insert_eq_some.2 (.inr ⟨hid, hu⟩), rfl⟩

theorem Recorded.settle (hr : Recorded ms g s.visits ways) (hv : s.visits[id]? = some v)
    (hdone : v.done = false) :
    Recorded ms g (s.visits.insert id { v with done := true }) ways where
  origin := by
    intro other u hu
    rcases getElem?_insert_eq_some.1 hu with ⟨rfl, rfl⟩ | ⟨-, hu⟩
    · exact (hr.origin hv).improve (improves_settle hv hdone) rfl rfl rfl
    · exact (hr.origin hu).improve (improves_settle hv hdone) rfl rfl rfl
  library := by
    intro other u hu
    rcases getElem?_insert_eq_some.1 hu with ⟨rfl, rfl⟩ | ⟨-, hu⟩
    · exact (hr.library hv :)
    · exact hr.library hu

theorem Queued.settle (hq : Queued s) (h : s.next? = some (id, rest))
    (hv : s.visits[id]? = some v) : Queued (rest.settle wanted id v) := by
  obtain ⟨hvisits, -⟩ := next?_eq_some h
  obtain ⟨hplain, hdeferred⟩ := sublist_of_next? h
  obtain ⟨hid, hid'⟩ := hq.notMem_of_next? h hv
  have hvisit : ∀ {other u}, (rest.settle wanted id v).visits[other]? = some u ↔
      other = id ∧ u = { v with done := true } ∨ other ≠ id ∧ s.visits[other]? = some u := by
    simp only [Search.settle, hvisits, getElem?_insert_eq_some, implies_true]
  refine ⟨?_, ?_, ?_, ?_, hq.plain_nodup.sublist hplain, hq.deferred_nodup.sublist hdeferred⟩
  · intro other hmem
    obtain ⟨u, hu, hwaits⟩ := hq.mem_plain (hplain.subset hmem)
    have hne : other ≠ id := fun heq ↦ hid (heq ▸ hmem)
    exact ⟨u, hvisit.2 (.inr ⟨hne, hu⟩), hwaits⟩
  · intro other hmem
    obtain ⟨u, hu, hwaits⟩ := hq.mem_deferred (hdeferred.subset hmem)
    by_cases hne : other = id
    · subst hne
      exact ⟨_, hvisit.2 (.inl ⟨rfl, rfl⟩), fun hlib ↦ absurd hmem (hid' hlib)⟩
    · exact ⟨u, hvisit.2 (.inr ⟨hne, hu⟩), hwaits⟩
  · intro other u hu hwaits hlib
    rcases hvisit.1 hu with ⟨rfl, rfl⟩ | ⟨hne, hu⟩
    · simp at hwaits
    · exact (mem_of_next? h hne).1.2 (hq.plain_waits hu hwaits hlib)
  · intro other u hu hwaits hlib
    rcases hvisit.1 hu with ⟨rfl, rfl⟩ | ⟨hne, hu⟩
    · simp at hwaits
    · exact (mem_of_next? h hne).2.2 (hq.deferred_waits hu hwaits hlib)

/-- The way to the object that is settled becomes the front. -/
theorem Traversal.ordered_settle (ht : Traversal ms g s ways wanted front pending)
    (h : s.next? = some (id, rest)) (hv : s.visits[id]? = some v) (hdone : v.done = false) :
    Ordered ms g (rest.settle wanted id v) ways (ways id) := by
  obtain ⟨hvisits, -⟩ := next?_eq_some h
  obtain ⟨hplain, hdeferred⟩ := sublist_of_next? h
  obtain ⟨hfirst, hfirst'⟩ := ht.rank_le_of_next? h
  have hfront := ht.front_le hv hdone
  have ho := ht.ordered
  refine ⟨ho.plain_sorted.sublist hplain, ho.deferred_sorted.sublist hdeferred, ?_, ?_, ?_⟩
  · intro other hmem
    obtain ⟨u, hu, -, hlib⟩ := ht.queued.mem_plain (hplain.subset hmem)
    have hother : firstLibrary ms g (ways other) = none := ht.recorded.library hu ▸ hlib
    -- What waits on a plain way waits behind the object only if the object is met on one, too.
    have hid := (plain_of_rank_le (hfirst other hmem) hother).1
    have hlength := (plain_of_rank_le hfront hid).2
    have hahead := (ho.plain_ahead (hplain.subset hmem)).2
    exact ⟨hfirst other hmem, by omega⟩
  · intro other hmem hother
    have hahead := (ho.deferred_ahead (hdeferred.subset hmem) hother).2
    exact ⟨hfirst' other hmem hother, hahead.trans (nextRank_mono hfront)⟩
  · intro other u hu hother
    rw [Search.settle, hvisits] at hu
    rcases getElem?_insert_eq_some.1 hu with ⟨rfl, -⟩ | ⟨-, hu⟩
    · exact le_rfl
    · exact (ho.done_behind hu hother).trans hfront

theorem Followed.settle (hf : Followed ms g s.visits ways []) (hv : s.visits[id]? = some v)
    (hdone : v.done = false) :
    Followed ms g (s.visits.insert id { v with done := true }) ways (g.references id) where
  source := fun hsource ↦ (hf.source hsource).improve (improves_settle hv hdone)
  reference := by
    intro other u hu hother r hmem hr hpending
    rcases getElem?_insert_eq_some.1 hu with ⟨rfl, -⟩ | ⟨-, hu⟩
    · exact absurd hmem hpending
    · exact (hf.reference hu hother hmem hr (by simp)).improve (improves_settle hv hdone)

theorem Traversal.found_settle (ht : Traversal ms g s ways wanted front pending)
    (h : s.next? = some (id, rest)) (hv : s.visits[id]? = some v) (hdone : v.done = false) :
    Found ms g (rest.settle wanted id v) ways wanted := by
  obtain ⟨hvisits, hfound, -⟩ := next?_eq_some h
  have hnew : id ∉ s.found := by
    rw [ht.found.mem_iff]
    rintro ⟨-, u, hu, hother⟩
    simp_all
  have hmem : ∀ {other}, other ∈ (rest.settle wanted id v).found ↔
      other ∈ s.found ∨ other = id ∧ id ∈ wanted := by
    intro other
    by_cases hw : id ∈ wanted <;> simp [Search.settle, hfound, hw]
  have hlist : (rest.settle wanted id v).found.toList =
      s.found.toList ++ if id ∈ wanted then [id] else [] := by
    by_cases hw : id ∈ wanted <;> simp [Search.settle, hfound, hw]
  refine ⟨?_, ?_, ?_⟩
  · intro other
    rw [hmem, ht.found.mem_iff, Search.settle, hvisits]
    simp only [getElem?_insert_eq_some]
    by_cases hid : other = id
    · subst hid
      simp_all
    · simp [hid]
  · rw [hlist]
    refine ht.found.nodup.append (by split <;> simp) ?_
    intro other hother hmem'
    split at hmem' <;> simp_all
  · rw [hlist, List.pairwise_append]
    refine ⟨ht.found.sorted, by split <;> simp, ?_⟩
    intro other hother last hlast
    obtain rfl : last = id := by split at hlast <;> simp_all
    obtain ⟨-, u, hu, hbehind⟩ := ht.found.mem_iff.1 (Array.mem_toList_iff.1 hother)
    exact (ht.ordered.done_behind hu hbehind).trans (ht.front_le hv hdone)

/-- What is taken from its queue can be settled; its references are then still to be followed. -/
theorem Traversal.settle (ht : Traversal ms g s ways wanted front [])
    (h : s.next? = some (id, rest)) (hv : s.visits[id]? = some v) (hdone : v.done = false) :
    Traversal ms g (rest.settle wanted id v) ways wanted (ways id) (g.references id) := by
  have hvisits := (next?_eq_some h).1
  refine ⟨?_, ht.queued.settle h hv, ht.ordered_settle h hv hdone, ?_, ht.found_settle h hv hdone⟩
  · rw [Search.settle, hvisits]
    exact ht.recorded.settle hv hdone
  · rw [Search.settle, hvisits]
    exact ht.followed.settle hv hdone

end Search

end HeapSentry.Leak
