import HeapSentry.Proofs.Leak.Outcome
import Mathlib.Logic.Function.Iterate

/-!
# One course for all searches of a heap

What a search looks for decides what it takes down and when it stops, but not where it goes.  Two
searches of one heap therefore follow one course, the one perhaps further than the other, and what
the shorter one has settled the longer one leaves as it is.
-/

namespace HeapSentry.Leak

open Heap Matcher

namespace Search

variable {ms : List Matcher} {g : Graph} {s s' rest : Search} {wanted wanted' : Std.HashSet ObjectId}
  {ways : ObjectId → List Reference} {front : List Reference} {id : ObjectId}

/-- Serves one more entry, if there is one, whatever has been found. -/
def advance (g : Graph) (ms : List Matcher) (wanted : Std.HashSet ObjectId) (s : Search) : Search :=
  match s.next? with
  | none => s
  | some (id, rest) => rest.serve g ms wanted id

theorem advance_of_none (h : s.next? = none) : s.advance g ms wanted = s := by
  simp [advance, h]

theorem advance_of_some (h : s.next? = some (id, rest)) :
    s.advance g ms wanted = rest.serve g ms wanted id := by
  simp [advance, h]

theorem exists_run_eq (g : Graph) (ms : List Matcher) (wanted : Std.HashSet ObjectId) (fuel : ℕ)
    (s : Search) : ∃ n, s.run g ms wanted fuel = (advance g ms wanted)^[n] s := by
  induction fuel generalizing s with
  | zero => exact ⟨0, rfl⟩
  | succ fuel ih =>
      rw [Search.run]
      split
      · split
        · exact ⟨0, rfl⟩
        next id rest hnext =>
          obtain ⟨n, hn⟩ := ih (rest.serve g ms wanted id)
          refine ⟨n + 1, ?_⟩
          rw [hn, Function.iterate_succ_apply, advance_of_some hnext]
      · exact ⟨0, rfl⟩

/-! ## What has been found does not matter -/

theorem next?_withFound (s : Search) (found : Array ObjectId) :
    ({ s with found } : Search).next? =
      s.next?.map fun (id, rest) ↦ (id, { rest with found }) := by
  unfold next?
  cases hplain : s.plain.pop? with
  | some popped => rfl
  | none => cases hdeferred : s.deferred.pop? <;> rfl

theorem meet_withFound (s : Search) (found : Array ObjectId) (id : ObjectId) (v : Visit) :
    ({ s with found } : Search).meet id v = { s.meet id v with found } := by
  unfold meet
  split <;> rfl

theorem reach_withFound (s : Search) (found : Array ObjectId) (r : Reference) (root : RootKind)
    (library : Option String) :
    ({ s with found } : Search).reach r root library = { s.reach r root library with found } := by
  have haccepts : ({ s with found } : Search).accepts r.target library =
      s.accepts r.target library := rfl
  unfold reach
  rw [haccepts]
  split
  · exact meet_withFound ..
  · rfl

theorem follow_withFound (v : Visit) (s : Search) (found : Array ObjectId) (r : Reference) :
    ({ s with found } : Search).follow g ms v r = { s.follow g ms v r with found } := by
  unfold follow
  split
  · rfl
  · exact reach_withFound ..
  · exact reach_withFound ..

theorem foldl_follow_withFound (g : Graph) (ms : List Matcher) (v : Visit)
    (pending : List Reference) (s : Search) (found : Array ObjectId) :
    pending.foldl (Search.follow g ms v) { s with found } =
      { pending.foldl (Search.follow g ms v) s with found } := by
  induction pending generalizing s with
  | nil => rfl
  | cons r pending ih => rw [List.foldl_cons, List.foldl_cons, follow_withFound, ih]

/-- Serving an entry settles its object. -/
def settles (s : Search) (id : ObjectId) : Bool := s.visits[id]?.any (!·.done)

theorem serve_withFound (g : Graph) (ms : List Matcher) (wanted wanted' : Std.HashSet ObjectId)
    (s : Search) (found : Array ObjectId) (id : ObjectId) :
    ({ s with found } : Search).serve g ms wanted' id = { s.serve g ms wanted id with
      found := if s.settles id && wanted'.contains id then found.push id else found } := by
  unfold Search.serve
  cases hv : s.visits[id]? with
  | none => simp [settles, hv]
  | some v =>
      cases hdone : v.done with
      | true => simp [settles, hv, hdone]
      | false =>
          have hexpand := foldl_follow_withFound g ms v (g.references id) (s.settle wanted id v)
            (if wanted'.contains id then found.push id else found)
          simp only [settles, hv, hdone, Option.any_some, Bool.not_false, Bool.true_and,
            Bool.false_eq_true, if_false]
          exact hexpand

theorem found_serve (g : Graph) (ms : List Matcher) (wanted : Std.HashSet ObjectId) (s : Search)
    (id : ObjectId) : (s.serve g ms wanted id).found =
      if s.settles id && wanted.contains id then s.found.push id else s.found :=
  congrArg Search.found (serve_withFound g ms wanted wanted s s.found id)

/-! ## Searches abreast -/

/-- Two searches have come equally far, and each has found what it wants of what the other found. -/
structure Abreast (wanted wanted' : Std.HashSet ObjectId) (s s' : Search) : Prop where
  same : s' = { s with found := s'.found }
  found : s.found.toList.filter (wanted'.contains ·) = s'.found.toList.filter (wanted.contains ·)

theorem Abreast.serve (h : Abreast wanted wanted' s s') (g : Graph) (ms : List Matcher)
    (id : ObjectId) :
    Abreast wanted wanted' (s.serve g ms wanted id) (s'.serve g ms wanted' id) := by
  have hserve : s'.serve g ms wanted' id = { s.serve g ms wanted id with
      found := if s.settles id && wanted'.contains id then s'.found.push id else s'.found } := by
    rw [h.same]
    exact serve_withFound g ms wanted wanted' s s'.found id
  constructor
  · rw [hserve]
  · rw [hserve, found_serve]
    have hfound := h.found
    cases hsettles : s.settles id with
    | false => simpa [hsettles] using hfound
    | true =>
        cases hid : wanted.contains id <;> cases hid' : wanted'.contains id <;>
          simp [hid, hid', hfound]

theorem Abreast.advance (h : Abreast wanted wanted' s s') (g : Graph) (ms : List Matcher) :
    Abreast wanted wanted' (s.advance g ms wanted) (s'.advance g ms wanted') := by
  have hnext' : s'.next? = s.next?.map fun (id, rest) ↦ (id, { rest with found := s'.found }) := by
    rw [h.same]
    exact next?_withFound s s'.found
  cases hnext : s.next? with
  | none =>
      rw [hnext, Option.map_none] at hnext'
      rw [advance_of_none hnext, advance_of_none hnext']
      exact h
  | some popped =>
      obtain ⟨id, rest⟩ := popped
      rw [hnext, Option.map_some] at hnext'
      rw [advance_of_some hnext, advance_of_some hnext']
      have hrest : Abreast wanted wanted' rest { rest with found := s'.found } := by
        refine ⟨rfl, ?_⟩
        rw [(next?_eq_some hnext).2.1]
        exact h.found
      exact hrest.serve g ms id

theorem Abreast.iterate (h : Abreast wanted wanted' s s') (g : Graph) (ms : List Matcher) (n : ℕ) :
    Abreast wanted wanted' ((Search.advance g ms wanted)^[n] s)
      ((Search.advance g ms wanted')^[n] s') := by
  induction n with
  | zero => exact h
  | succ n ih =>
      rw [Function.iterate_succ_apply', Function.iterate_succ_apply']
      exact ih.advance g ms

/-! ## Searches that go on -/

theorem Traversal.advance (ht : Traversal ms g s ways wanted front []) :
    ∃ ways' front', Traversal ms g (s.advance g ms wanted) ways' wanted front' [] ∧
      Improves ms g s.visits (s.advance g ms wanted).visits ways ways' := by
  cases hnext : s.next? with
  | none =>
      rw [advance_of_none hnext]
      exact ⟨ways, front, ht, .refl⟩
  | some popped =>
      rw [advance_of_some hnext]
      exact ht.serve hnext

theorem Traversal.iterate (ht : Traversal ms g s ways wanted front []) (n : ℕ) :
    ∃ ways' front', Traversal ms g ((Search.advance g ms wanted)^[n] s) ways' wanted front' [] ∧
      Improves ms g s.visits ((Search.advance g ms wanted)^[n] s).visits ways ways' := by
  induction n with
  | zero => exact ⟨ways, front, ht, .refl⟩
  | succ n ih =>
      obtain ⟨ways', front', ht', himproves⟩ := ih
      obtain ⟨ways'', front'', ht'', himproves'⟩ := ht'.advance
      rw [Function.iterate_succ_apply']
      exact ⟨ways'', front'', ht'', himproves.trans himproves'⟩

theorem found_prefix_advance (g : Graph) (ms : List Matcher) (wanted : Std.HashSet ObjectId)
    (s : Search) : s.found.toList <+: (s.advance g ms wanted).found.toList := by
  cases hnext : s.next? with
  | none =>
      have hstays : s.advance g ms wanted = s := advance_of_none hnext
      exact hstays.symm ▸ List.prefix_refl _
  | some popped =>
      obtain ⟨id, rest⟩ := popped
      rw [advance_of_some hnext, found_serve, ← (next?_eq_some hnext).2.1]
      split
      next => simp
      next => exact List.prefix_refl _

theorem found_prefix_iterate (g : Graph) (ms : List Matcher) (wanted : Std.HashSet ObjectId)
    (s : Search) (n : ℕ) :
    s.found.toList <+: ((Search.advance g ms wanted)^[n] s).found.toList := by
  induction n with
  | zero => exact List.prefix_refl _
  | succ n ih =>
      have hstep := found_prefix_advance g ms wanted ((Search.advance g ms wanted)^[n] s)
      rw [Function.iterate_succ_apply']
      exact ih.trans hstep

theorem Traversal.reaches_of_found (ht : Traversal ms g s ways wanted front [])
    (hid : id ∈ s.found) : id ∈ wanted ∧ ∃ way, g.LeadsTo (IsFollowed ms g) way id := by
  obtain ⟨hwanted, v, hv, -⟩ := ht.found.mem_iff.1 hid
  obtain ⟨source, hchain, -⟩ := ht.recorded.exists_chain hv
  exact ⟨hwanted, ways id, hchain.leadsTo⟩

/-- A search that has ended finds no more when it goes on. -/
theorem found_iterate_ofGraph (g : Graph) (ms : List Matcher) (wanted : Std.HashSet ObjectId)
    (n : ℕ) : ((Search.advance g ms wanted)^[n] (ofGraph g ms wanted)).found.toList =
      (ofGraph g ms wanted).found.toList := by
  obtain ⟨ways₀, ho⟩ := exists_outcome ms g wanted
  obtain ⟨ways, front, ht, -⟩ := (traversal_start ms g wanted).run (entryBound g + 1)
  obtain ⟨ways', front', ht', -⟩ := Traversal.iterate ht n
  obtain ⟨more, hmore⟩ := found_prefix_iterate g ms wanted (ofGraph g ms wanted) n
  have hnodup := ht'.found.nodup
  change (((Search.advance g ms wanted)^[n] (ofGraph g ms wanted)).found.toList).Nodup at hnodup
  rw [← hmore, List.nodup_append] at hnodup
  -- What would be found later is wanted and can be reached, so that it was found in time.
  have hnone : more = [] := by
    refine List.eq_nil_iff_forall_not_mem.2 fun id hid ↦ ?_
    have hlater : id ∈ ((Search.advance g ms wanted)^[n] (ofGraph g ms wanted)).found := by
      rw [← Array.mem_toList_iff, ← hmore]
      exact List.mem_append_right _ hid
    obtain ⟨hwanted, way, hway⟩ := Traversal.reaches_of_found ht' hlater
    have hbefore := Array.mem_toList_iff.2 (ho.reached hwanted hway)
    exact hnodup.2.2 id hbefore id hid rfl
  rw [← hmore, hnone, List.append_nil]

/-! ## Searches for different objects -/

theorem exists_ofGraph_eq (g : Graph) (ms : List Matcher) (wanted : Std.HashSet ObjectId) :
    ∃ n, ofGraph g ms wanted = (Search.advance g ms wanted)^[n] (start g) :=
  exists_run_eq g ms wanted (entryBound g + 1) (start g)

theorem abreast_start (g : Graph) : Abreast wanted wanted' (start g) (start g) := by
  have hfound : (start g).found = #[] := (entered_start g).found
  refine ⟨rfl, ?_⟩
  rw [hfound]
  rfl

/-- Of two searches the shorter one would have come abreast of the longer one. -/
theorem abreast_ofGraph (g : Graph) (ms : List Matcher) (wanted wanted' : Std.HashSet ObjectId) :
    (∃ n, Abreast wanted wanted' ((Search.advance g ms wanted)^[n] (ofGraph g ms wanted))
      (ofGraph g ms wanted')) ∨
    ∃ n, Abreast wanted' wanted ((Search.advance g ms wanted')^[n] (ofGraph g ms wanted'))
      (ofGraph g ms wanted) := by
  obtain ⟨n, hn⟩ := exists_ofGraph_eq g ms wanted
  obtain ⟨n', hn'⟩ := exists_ofGraph_eq g ms wanted'
  -- Both are iterates from one start, and the one with fewer steps goes on for the rest.
  rcases Nat.le_total n n' with hle | hle
  · obtain ⟨more, rfl⟩ := Nat.exists_eq_add_of_le' hle
    left
    refine ⟨more, ?_⟩
    rw [hn, hn', ← Function.iterate_add_apply]
    exact (abreast_start g).iterate g ms _
  · obtain ⟨more, rfl⟩ := Nat.exists_eq_add_of_le' hle
    right
    refine ⟨more, ?_⟩
    rw [hn, hn', ← Function.iterate_add_apply]
    exact (abreast_start g).iterate g ms _

/-- What a search has settled is the same in one that has gone further. -/
theorem visit_of_abreast {n : ℕ}
    (h : Abreast wanted wanted' ((Search.advance g ms wanted)^[n] (ofGraph g ms wanted))
      (ofGraph g ms wanted')) (hid : id ∈ (ofGraph g ms wanted).found) :
    (ofGraph g ms wanted).visits[id]? = (ofGraph g ms wanted').visits[id]? ∧
      (ofGraph g ms wanted).way id = (ofGraph g ms wanted').way id := by
  obtain ⟨ways, front, ht, -⟩ := (traversal_start ms g wanted).run (entryBound g + 1)
  obtain ⟨ways', front', ht', himproves⟩ := Traversal.iterate ht n
  have hvisits : (ofGraph g ms wanted').visits =
      ((Search.advance g ms wanted)^[n] (ofGraph g ms wanted)).visits := by
    rw [h.same]
  obtain ⟨-, v, hv, hdone⟩ := ht.found.mem_iff.1 hid
  obtain ⟨hv', hway⟩ := himproves.done hv hdone
  have hrecorded : Recorded ms g (ofGraph g ms wanted').visits ways' := hvisits ▸ ht'.recorded
  have hlater : (ofGraph g ms wanted').visits[id]? = some v := by
    rw [hvisits]
    exact hv'
  constructor
  · exact hv.trans hlater.symm
  · calc
      (ofGraph g ms wanted).way id = (v.root, ways id) := ht.recorded.way_eq hv
      _ = (v.root, ways' id) := by rw [hway]
      _ = (ofGraph g ms wanted').way id := (hrecorded.way_eq hlater).symm

/-- What two searches have both found they have met on one way. -/
theorem visit_eq_of_found (hid : id ∈ (ofGraph g ms wanted).found)
    (hid' : id ∈ (ofGraph g ms wanted').found) :
    (ofGraph g ms wanted).visits[id]? = (ofGraph g ms wanted').visits[id]? ∧
      (ofGraph g ms wanted).way id = (ofGraph g ms wanted').way id := by
  rcases abreast_ofGraph g ms wanted wanted' with ⟨n, h⟩ | ⟨n, h⟩
  · exact visit_of_abreast h hid
  · obtain ⟨hvisit, hway⟩ := visit_of_abreast h hid'
    exact ⟨hvisit.symm, hway.symm⟩

/-- What two searches both look for they find in one order. -/
theorem filter_found_eq (g : Graph) (ms : List Matcher) (wanted wanted' : Std.HashSet ObjectId) :
    (ofGraph g ms wanted).found.toList.filter (wanted'.contains ·) =
      (ofGraph g ms wanted').found.toList.filter (wanted.contains ·) := by
  rcases abreast_ofGraph g ms wanted wanted' with ⟨n, h⟩ | ⟨n, h⟩
  · rw [← h.found, found_iterate_ofGraph]
  · rw [← h.found, found_iterate_ofGraph]

end Search

end HeapSentry.Leak
