import HeapSentry.Proofs.Leak.Traversal
import Mathlib.Data.List.Nodup
import Mathlib.Logic.Function.Basic

/-!
# Following references

The references of an object that has been settled are followed one by one.  A target is met if it
has not been met before, or if it waits on a way through a library and the new way is plain;
otherwise the way that it has been met on is as good as the new one.
-/

namespace HeapSentry.Leak

open Heap Matcher

namespace Search

variable {ms : List Matcher} {g : Graph} {s : Search} {ways : ObjectId → List Reference}
  {wanted : Std.HashSet ObjectId} {front pending : List Reference} {id : ObjectId} {v : Visit}

/-! ## Meeting a target -/

theorem mem_plain_meet_of_ne {other : ObjectId} (h : other ≠ id) :
    other ∈ (s.meet id v).plain.toList ↔ other ∈ s.plain.toList := by
  rw [toList_plain_meet]
  split <;> simp [h]

theorem mem_deferred_meet_of_ne {other : ObjectId} (h : other ≠ id) :
    other ∈ (s.meet id v).deferred.toList ↔ other ∈ s.deferred.toList := by
  rw [toList_deferred_meet]
  split <;> simp [h]

/-- The ways after the target of a reference has been met by it. -/
def extend (ways : ObjectId → List Reference) (r : Reference) : ObjectId → List Reference :=
  Function.update ways r.target (ways r.source ++ [r])

@[simp] theorem extend_target (ways : ObjectId → List Reference) (r : Reference) :
    extend ways r r.target = ways r.source ++ [r] := Function.update_self ..

theorem extend_of_ne {r : Reference} {other : ObjectId} (h : other ≠ r.target) :
    extend ways r other = ways other := Function.update_of_ne h ..

section Meet

variable {r : Reference} {u : Visit} {library : Option String}

/-- A reference of an object that is done leads further at its target. -/
structure Meets (ms : List Matcher) (g : Graph) (s : Search) (ways : ObjectId → List Reference)
    (r : Reference) (u : Visit) (library : Option String) : Prop where
  visit : s.visits[r.source]? = some u
  done : u.done = true
  mem : r ∈ g.references r.source
  followed : IsFollowed ms g r
  library_eq : library = firstLibrary ms g (ways r.source ++ [r])
  accepts : ∀ {known}, s.visits[r.target]? = some known →
    known.done = false ∧ known.library.isSome ∧ library = none

theorem Meets.ne_of_done (hm : Meets ms g s ways r u library) (hv : s.visits[id]? = some v)
    (hdone : v.done = true) : id ≠ r.target := by
  rintro rfl
  simpa [hdone] using (hm.accepts hv).1

theorem Meets.notMem_plain (hm : Meets ms g s ways r u library) (hq : Queued s) :
    r.target ∉ s.plain.toList := by
  intro hmem
  obtain ⟨known, hknown, -, hlib⟩ := hq.mem_plain hmem
  simpa [hlib] using (hm.accepts hknown).2.1

theorem Meets.notMem_deferred (hm : Meets ms g s ways r u library) (hq : Queued s)
    (hlib : library ≠ none) : r.target ∉ s.deferred.toList := by
  intro hmem
  obtain ⟨known, hknown, -⟩ := hq.mem_deferred hmem
  exact hlib (hm.accepts hknown).2.2

theorem Meets.improves (hm : Meets ms g s ways r u library) (hr : Recorded ms g s.visits ways) :
    Improves ms g s.visits (s.visits.insert r.target ⟨some r, u.root, library, false⟩) ways
      (extend ways r) where
  met := by
    intro other v hv
    by_cases hid : other = r.target
    · subst hid
      obtain ⟨-, hlib, hnone⟩ := hm.accepts hv
      have hplain := hnone ▸ hm.library_eq
      have hlt := rank_lt_of_plain_of_library hplain.symm (hr.library hv ▸ hlib)
      exact ⟨⟨_, getElem?_insert_eq_some.2 (.inl ⟨rfl, rfl⟩)⟩, extend_target ways r ▸ hlt.le⟩
    · exact ⟨⟨v, getElem?_insert_eq_some.2 (.inr ⟨hid, hv⟩)⟩, (extend_of_ne hid ▸ le_rfl)⟩
  done := by
    intro other v hv hdone
    have hid := hm.ne_of_done hv hdone
    exact ⟨getElem?_insert_eq_some.2 (.inr ⟨hid, hv⟩), extend_of_ne hid⟩

theorem Recorded.meet (hr : Recorded ms g s.visits ways) (hm : Meets ms g s ways r u library) :
    Recorded ms g (s.visits.insert r.target ⟨some r, u.root, library, false⟩) (extend ways r) where
  origin := by
    intro other v hv
    rcases getElem?_insert_eq_some.1 hv with ⟨rfl, rfl⟩ | ⟨hid, hv⟩
    · obtain ⟨hvisit, hsource⟩ := (hm.improves hr).done hm.visit hm.done
      exact .step rfl rfl hm.mem hm.followed hvisit hm.done rfl (by rw [extend_target, hsource])
    · exact (hr.origin hv).improve (hm.improves hr) (extend_of_ne hid) rfl rfl
  library := by
    intro other v hv
    rcases getElem?_insert_eq_some.1 hv with ⟨rfl, rfl⟩ | ⟨hid, hv⟩
    · rw [extend_target]
      exact hm.library_eq
    · rw [extend_of_ne hid]
      exact hr.library hv

theorem Queued.meet (hq : Queued s) (hm : Meets ms g s ways r u library) :
    Queued (s.meet r.target ⟨some r, u.root, library, false⟩) := by
  have hplain := hm.notMem_plain hq
  have hdeferred := hm.notMem_deferred hq
  have hvisit : ∀ {id v}, (s.meet r.target ⟨some r, u.root, library, false⟩).visits[id]? = some v ↔
      id = r.target ∧ v = ⟨some r, u.root, library, false⟩ ∨
        id ≠ r.target ∧ s.visits[id]? = some v := by
    simp only [visits_meet, getElem?_insert_eq_some, implies_true]
  refine ⟨?_, ?_, ?_, ?_, ?_, ?_⟩
  · intro id hmem
    by_cases hid : id = r.target
    · subst hid
      refine ⟨_, hvisit.2 (.inl ⟨rfl, rfl⟩), rfl, ?_⟩
      by_contra hlib
      exact hplain (by simpa [toList_plain_meet, hlib] using hmem)
    · obtain ⟨v, hv, hwaits⟩ := hq.mem_plain ((mem_plain_meet_of_ne hid).1 hmem)
      exact ⟨v, hvisit.2 (.inr ⟨hid, hv⟩), hwaits⟩
  · intro id hmem
    by_cases hid : id = r.target
    · exact ⟨_, hvisit.2 (.inl ⟨hid, rfl⟩), fun _ ↦ rfl⟩
    · obtain ⟨v, hv, hwaits⟩ := hq.mem_deferred ((mem_deferred_meet_of_ne hid).1 hmem)
      exact ⟨v, hvisit.2 (.inr ⟨hid, hv⟩), hwaits⟩
  · intro id v hv hwaits hlib
    rcases hvisit.1 hv with ⟨rfl, rfl⟩ | ⟨hid, hv⟩
    · simp [toList_plain_meet, show library = none from hlib]
    · exact (mem_plain_meet_of_ne hid).2 (hq.plain_waits hv hwaits hlib)
  · intro id v hv hwaits hlib
    rcases hvisit.1 hv with ⟨rfl, rfl⟩ | ⟨hid, hv⟩
    · simp [toList_deferred_meet, Option.isSome_iff_ne_none.1 hlib]
    · exact (mem_deferred_meet_of_ne hid).2 (hq.deferred_waits hv hwaits hlib)
  · rw [toList_plain_meet]
    split
    · exact hq.plain_nodup.append (List.nodup_singleton _) (by simpa using hplain)
    · exact hq.plain_nodup
  · rw [toList_deferred_meet]
    split
    · exact hq.deferred_nodup
    next hlib =>
      exact hq.deferred_nodup.append (List.nodup_singleton _) (by simpa using hdeferred hlib)

theorem Followed.meet (hf : Followed ms g s.visits ways (r :: pending))
    (hr : Recorded ms g s.visits ways) (hm : Meets ms g s ways r u library) :
    Followed ms g (s.visits.insert r.target ⟨some r, u.root, library, false⟩) (extend ways r)
      pending where
  source := fun hsource ↦ (hf.source hsource).improve (hm.improves hr)
  reference := by
    intro id v hv hdone r' hmem hr' hpending
    rcases getElem?_insert_eq_some.1 hv with ⟨rfl, rfl⟩ | ⟨hid, hv⟩
    · simp at hdone
    · rw [extend_of_ne hid]
      by_cases heq : r' = r
      · subst heq
        obtain rfl := Graph.source_of_mem_references hmem
        exact ⟨⟨_, getElem?_insert_eq_some.2 (.inl ⟨rfl, rfl⟩)⟩, (extend_target ways r' ▸ le_rfl)⟩
      · exact (hf.reference hv hdone hmem hr' (by simp [heq, hpending])).improve (hm.improves hr)

theorem Traversal.found_meet (ht : Traversal ms g s ways wanted front pending)
    (hm : Meets ms g s ways r u library) :
    Found ms g (s.meet r.target ⟨some r, u.root, library, false⟩) (extend ways r) wanted := by
  have hways : ∀ {id}, id ∈ s.found → extend ways r id = ways id := by
    intro id hmem
    obtain ⟨-, v, hv, hdone⟩ := ht.found.mem_iff.1 hmem
    exact extend_of_ne (hm.ne_of_done hv hdone)
  refine ⟨?_, ?_, ?_⟩
  · intro id
    rw [Search.found_meet, ht.found.mem_iff, visits_meet]
    simp only [getElem?_insert_eq_some]
    refine and_congr_right fun _ ↦ ⟨?_, ?_⟩
    · rintro ⟨v, hv, hdone⟩
      exact ⟨v, .inr ⟨hm.ne_of_done hv hdone, hv⟩, hdone⟩
    · rintro ⟨v, ⟨-, rfl⟩ | ⟨-, hv⟩, hdone⟩
      · simp at hdone
      · exact ⟨v, hv, hdone⟩
  · rw [Search.found_meet]
    exact ht.found.nodup
  · rw [Search.found_meet]
    refine ht.found.sorted.imp_of_mem fun ha hb hle ↦ ?_
    rwa [hways (Array.mem_toList_iff.1 ha), hways (Array.mem_toList_iff.1 hb)]

theorem Traversal.plain_sorted_meet
    (ht : Traversal ms g s ways wanted (ways r.source) pending)
    (hm : Meets ms g s ways r u library) :
    (s.meet r.target ⟨some r, u.root, library, false⟩).plain.toList.Pairwise fun a b ↦
      rank ms g (extend ways r a) ≤ rank ms g (extend ways r b) := by
  have hq := ht.queued
  have hways : ∀ {id}, id ∈ s.plain.toList → extend ways r id = ways id :=
    fun hmem ↦ extend_of_ne fun hid ↦ hm.notMem_plain hq (hid ▸ hmem)
  have hold : s.plain.toList.Pairwise fun a b ↦
      rank ms g (extend ways r a) ≤ rank ms g (extend ways r b) :=
    ht.ordered.plain_sorted.imp_of_mem fun ha hb hle ↦ by rwa [hways ha, hways hb]
  rw [toList_plain_meet]
  split
  next hnone =>
    have hnew : firstLibrary ms g (ways r.source ++ [r]) = none := hm.library_eq.symm.trans hnone
    rw [List.pairwise_append]
    refine ⟨hold, List.pairwise_singleton _ _, fun id hmem last hlast ↦ ?_⟩
    obtain rfl := List.mem_singleton.1 hlast
    obtain ⟨v, hv, -, hlib⟩ := hq.mem_plain hmem
    have hid : firstLibrary ms g (ways id) = none := ht.recorded.library hv ▸ hlib
    rw [hways hmem, extend_target, rank_of_plain hid, rank_of_plain hnew, Prod.Lex.toLex_le_toLex]
    simpa using (ht.ordered.plain_ahead hmem).2
  next => exact hold

theorem Traversal.deferred_sorted_meet
    (ht : Traversal ms g s ways wanted (ways r.source) pending)
    (hm : Meets ms g s ways r u library) :
    (s.meet r.target ⟨some r, u.root, library, false⟩).deferred.toList.Pairwise fun a b ↦
      Deferred ms g (extend ways r) b →
        rank ms g (extend ways r a) ≤ rank ms g (extend ways r b) := by
  have ho := ht.ordered
  rw [toList_deferred_meet]
  split
  next hnone =>
    -- A stale entry of the target may stand anywhere; its way is plain now and ranks before the
    -- ways of all entries that still count.
    have hnew : firstLibrary ms g (extend ways r r.target) = none := by
      rw [extend_target, ← hm.library_eq]
      exact hnone
    refine ho.deferred_sorted.imp fun {a b} hle hb ↦ ?_
    have hbne : b ≠ r.target := by
      rintro rfl
      rw [Deferred, hnew] at hb
      exact Bool.false_ne_true hb
    by_cases ha : a = r.target
    · subst ha
      exact (rank_lt_of_plain_of_library hnew hb).le
    · rw [Deferred, extend_of_ne hbne] at hb
      rw [extend_of_ne ha, extend_of_ne hbne]
      exact hle hb
  next hsome =>
    have hways : ∀ {id}, id ∈ s.deferred.toList → extend ways r id = ways id :=
      fun hmem ↦ extend_of_ne fun hid ↦ hm.notMem_deferred ht.queued hsome (hid ▸ hmem)
    rw [List.pairwise_append]
    refine ⟨?_, List.pairwise_singleton _ _, fun id hmem last hlast hnew ↦ ?_⟩
    · refine ho.deferred_sorted.imp_of_mem fun ha hb hle ↦ ?_
      rwa [Deferred, hways ha, hways hb]
    · obtain rfl := List.mem_singleton.1 hlast
      rw [Deferred, extend_target] at hnew
      rw [hways hmem, extend_target]
      by_cases hid : Deferred ms g ways id
      · rw [rank_snoc_of_library hnew]
        exact (ho.deferred_ahead hmem hid).2
      · exact (rank_lt_of_plain_of_library (by simpa [Deferred] using hid) hnew).le

/-- The new way ranks last among those of its queue. -/
theorem Traversal.ordered_meet (ht : Traversal ms g s ways wanted (ways r.source) pending)
    (hm : Meets ms g s ways r u library) :
    Ordered ms g (s.meet r.target ⟨some r, u.root, library, false⟩) (extend ways r)
      (ways r.source) := by
  have ho := ht.ordered
  have hfront : rank ms g (ways r.source) < rank ms g (ways r.source ++ [r]) :=
    rank_lt_snoc (ways r.source) r
  refine ⟨ht.plain_sorted_meet hm, ht.deferred_sorted_meet hm, ?_, ?_, ?_⟩
  · intro id hmem
    by_cases hid : id = r.target
    · subst hid
      rw [extend_target]
      exact ⟨hfront.le, by simp⟩
    · rw [extend_of_ne hid]
      exact ho.plain_ahead ((mem_plain_meet_of_ne hid).1 hmem)
  · intro id hmem hlibrary
    by_cases hid : id = r.target
    · subst hid
      rw [Deferred, extend_target] at hlibrary
      rw [extend_target]
      exact ⟨hfront.le, (rank_snoc_of_library hlibrary).le⟩
    · rw [Deferred, extend_of_ne hid] at hlibrary
      rw [extend_of_ne hid]
      exact ho.deferred_ahead ((mem_deferred_meet_of_ne hid).1 hmem) hlibrary
  · intro id v hv hdone
    rw [visits_meet] at hv
    rcases getElem?_insert_eq_some.1 hv with ⟨rfl, rfl⟩ | ⟨hid, hv⟩
    · simp at hdone
    · rw [extend_of_ne hid]
      exact ho.done_behind hv hdone

theorem Traversal.meet (ht : Traversal ms g s ways wanted (ways r.source) (r :: pending))
    (hm : Meets ms g s ways r u library) :
    Traversal ms g (s.meet r.target ⟨some r, u.root, library, false⟩) (extend ways r) wanted
      (ways r.source) pending := by
  refine ⟨?_, ht.queued.meet hm, ht.ordered_meet hm, ?_, ht.found_meet hm⟩
  · rw [visits_meet]
    exact ht.recorded.meet hm
  · rw [visits_meet]
    exact ht.followed.meet ht.recorded hm

end Meet

/-! ## Following one reference -/

/-- A target that does not accept a way has been met on one that is as good. -/
theorem Traversal.covers_of_not_accepts {r : Reference} {library : Option String}
    (ht : Traversal ms g s ways wanted (ways r.source) pending)
    (hlib : library = firstLibrary ms g (ways r.source ++ [r]))
    (h : ¬ s.accepts r.target library = true) :
    Covers ms g s.visits ways (ways r.source ++ [r]) r.target := by
  rw [accepts_iff] at h
  push Not at h
  obtain ⟨known, hknown, hrefuses⟩ := h
  refine ⟨⟨known, hknown⟩, ?_⟩
  have hlibrary := ht.recorded.library hknown
  cases hdone : known.done with
  | true => exact (ht.ordered.done_behind hknown hdone).trans (rank_lt_snoc _ _).le
  | false =>
      cases hold : known.library with
      | none =>
          have hplain : firstLibrary ms g (ways r.target) = none := hlibrary ▸ hold
          have hmem := ht.queued.plain_waits hknown hdone hold
          cases hnew : firstLibrary ms g (ways r.source ++ [r]) with
          | some description => exact (rank_lt_of_plain_of_library hplain (by simp [hnew])).le
          | none =>
              rw [rank_of_plain hplain, rank_of_plain hnew, Prod.Lex.toLex_le_toLex]
              simpa using (ht.ordered.plain_ahead hmem).2
      | some description =>
          have hnew : (firstLibrary ms g (ways r.source ++ [r])).isSome := by
            rw [← hlib, Option.isSome_iff_ne_none]
            exact hrefuses hdone (by simp [hold])
          have hmem := ht.queued.deferred_waits hknown hdone (by simp [hold])
          rw [rank_snoc_of_library hnew]
          exact (ht.ordered.deferred_ahead hmem (by simp [Deferred, ← hlibrary, hold])).2

theorem Followed.of_covers {r : Reference} (hf : Followed ms g s.visits ways (r :: pending))
    (hcovers : IsFollowed ms g r → Covers ms g s.visits ways (ways r.source ++ [r]) r.target) :
    Followed ms g s.visits ways pending where
  source := hf.source
  reference := by
    intro other u hu hother r' hmem hr' hpending
    by_cases heq : r' = r
    · subst heq
      obtain rfl := Graph.source_of_mem_references hmem
      exact hcovers hr'
    · exact hf.reference hu hother hmem hr' (by simp [heq, hpending])

theorem Traversal.follow {r : Reference}
    (ht : Traversal ms g s ways wanted (ways r.source) (r :: pending))
    (hmem : r ∈ g.references r.source)
    (hv : s.visits[r.source]? = some { v with done := true }) :
    ∃ ways', Traversal ms g (s.follow g ms v r) ways' wanted (ways' r.source) pending ∧
      Improves ms g s.visits (s.follow g ms v r).visits ways ways' := by
  by_cases hr : standingOf ms g r = .ignored
  · rw [follow_of_ignored hr]
    have hf := ht.followed.of_covers fun hfollowed ↦ absurd hr hfollowed
    exact ⟨ways, { ht with followed := hf }, .refl⟩
  rw [follow_of_ne_ignored hr, Search.reach]
  have hlib : (v.library <|> (standingOf ms g r).library?) =
      firstLibrary ms g (ways r.source ++ [r]) := by
    rw [firstLibrary_snoc, ← ht.recorded.library hv, libraryOf]
  by_cases hacc : s.accepts r.target (v.library <|> (standingOf ms g r).library?) = true
  · rw [if_pos hacc]
    have hm : Meets ms g s ways r { v with done := true }
        (v.library <|> (standingOf ms g r).library?) :=
      ⟨hv, rfl, hmem, hr, hlib, fun hknown ↦ accepts_iff.1 hacc _ hknown⟩
    refine ⟨extend ways r, ?_, ?_⟩
    · have ht' := ht.meet hm
      rwa [extend_of_ne (hm.ne_of_done hv rfl)]
    · rw [visits_meet]
      exact hm.improves ht.recorded
  · rw [if_neg hacc]
    have hf := ht.followed.of_covers fun _ ↦ ht.covers_of_not_accepts hlib hacc
    exact ⟨ways, { ht with followed := hf }, .refl⟩

theorem Traversal.foldl_follow (hmem : ∀ r ∈ pending, r ∈ g.references id)
    (ht : Traversal ms g s ways wanted (ways id) pending)
    (hv : s.visits[id]? = some { v with done := true }) :
    ∃ ways', Traversal ms g (pending.foldl (Search.follow g ms v) s) ways' wanted (ways' id) [] ∧
      Improves ms g s.visits (pending.foldl (Search.follow g ms v) s).visits ways ways' := by
  induction pending generalizing s ways with
  | nil => exact ⟨ways, ht, .refl⟩
  | cons r pending ih =>
      have hr := hmem r List.mem_cons_self
      obtain rfl := Graph.source_of_mem_references hr
      obtain ⟨ways', ht', himproves⟩ := ht.follow hr hv
      obtain ⟨hv', -⟩ := himproves.done hv rfl
      have hrest : ∀ r' ∈ pending, r' ∈ g.references r.source :=
        fun r' h ↦ hmem r' (List.mem_cons_of_mem _ h)
      obtain ⟨ways'', ht'', himproves'⟩ := ih hrest ht' hv'
      exact ⟨ways'', ht'', himproves.trans himproves'⟩

end Search

end HeapSentry.Leak
