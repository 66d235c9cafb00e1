import HeapSentry.Leak.Findings
import HeapSentry.Proofs.Heap.Renaming
import HeapSentry.Proofs.Results

/-!
# Searching a renamed heap

Two searches, one of a heap and one of the same heap under other ids, go on side by side: whatever
the one has met, found or keeps waiting, the other has under the new id.  Traces name classes and
fields only, so that the findings have the same groups and signatures.
-/

namespace HeapSentry.Leak

open Heap

/-! ## Findings under other ids -/

def Candidate.rename (f : ObjectId → ObjectId) (c : Candidate) : Candidate :=
  { c with object := f c.object }

def Visit.rename (f : ObjectId → ObjectId) (v : Visit) : Visit :=
  { v with parent := v.parent.map (Reference.rename f) }

def Leaking.rename (f : ObjectId → ObjectId) (l : Leaking) : Leaking :=
  { l with object := f l.object }

def Trace.rename (f : ObjectId → ObjectId) (t : Trace) : Trace :=
  { t with leaking := t.leaking.rename f }

def Member.rename (f : ObjectId → ObjectId) (m : Member) : Member :=
  { m with trace := m.trace.rename f }

def Group.rename (f : ObjectId → ObjectId) (group : Group) : Group :=
  { group with trace := group.trace.rename f, objects := group.objects.map f }

def Findings.rename (f : ObjectId → ObjectId) (x : Findings) : Findings where
  application := x.application.map (Group.rename f)
  library := x.library.map (Group.rename f)
  unreachable := x.unreachable.map f

def Queue.map {α β : Type} (h : α → β) (q : Queue α) : Queue β := ⟨q.front.map h, q.back.map h⟩

theorem Queue.push_map {α β : Type} (h : α → β) (q : Queue α) (a : α) :
    (q.map h).push (h a) = (q.push a).map h := rfl

theorem Queue.pop?_map {α β : Type} (h : α → β) (q : Queue α) :
    (q.map h).pop? = q.pop?.map fun (a, rest) ↦ (h a, rest.map h) := by
  obtain ⟨front, back⟩ := q
  cases front with
  | cons a front => rfl
  | nil =>
      simp only [Queue.map, Queue.pop?, List.map_nil, ← List.map_reverse]
      cases back.reverse <;> rfl

variable {f : ObjectId → ObjectId} {g g' : Graph} {ms : List Matcher}

/-- Matchers look at names only. -/
theorem Matcher.standingOf_rename (hg : g.IsRenaming f g') (ms : List Matcher) (r : Reference) :
    standingOf ms g' (r.rename f) = standingOf ms g r := by
  have happlies : ∀ p : Pattern, p.applies g' (r.rename f) = p.applies g r := by
    intro p
    have hclass : (r.rename f).declaringClass >>= g'.class? = _ :=
      hg.classOf_eq r.declaringClass
    rw [Pattern.applies, Pattern.applies, hclass, Option.any_map]
    rfl
  simp only [standingOf, happlies]

namespace Search

/-- A search has met, under the new ids, what another one has met. -/
structure Renames (f : ObjectId → ObjectId) (s s' : Search) : Prop where
  visits : IsRenamed f (Visit.rename f) s.visits s'.visits
  plain : s'.plain = s.plain.map f
  deferred : s'.deferred = s.deferred.map f
  found : s'.found = s.found.map f

variable {s s' : Search} {wanted wanted' : Std.HashSet ObjectId}

theorem Renames.meet (h : Renames f s s') (hf : f.Injective) (id : ObjectId) (v : Visit) :
    Renames f (s.meet id v) (s'.meet (f id) (v.rename f)) := by
  have hvisits := h.visits.insert hf id v
  have hlibrary : (v.rename f).library = v.library := rfl
  unfold Search.meet
  rw [hlibrary]
  split
  · exact ⟨hvisits, h.plain, by simp only [h.deferred, Queue.push_map], h.found⟩
  · exact ⟨hvisits, by simp only [h.plain, Queue.push_map], h.deferred, h.found⟩

theorem Renames.enter (h : Renames f s s') (hg : g.IsRenaming f g') (root : Root) :
    Renames f (s.enter g root) (s'.enter g' (root.rename f)) := by
  have hid : (root.rename f).id = f root.id := rfl
  have hcontains : s'.visits.contains (f root.id) = s.visits.contains root.id := by
    rw [Bool.eq_iff_iff, Std.HashMap.contains_iff_mem, Std.HashMap.contains_iff_mem]
    exact h.visits.mem_iff root.id
  unfold Search.enter
  rw [hid, hcontains, hg.object?_eq, Option.isNone_map]
  split
  · exact h
  · exact h.meet hg.injective root.id ⟨none, root.kind, none, false⟩

theorem renames_start (hg : g.IsRenaming f g') :
    Renames f (start g) (start g') := by
  have hfold : ∀ (roots : List Root) (s s' : Search), Renames f s s' →
      Renames f (roots.foldl (enter g) s)
        ((roots.map (Root.rename f)).foldl (enter g') s') := by
    intro roots
    induction roots with
    | nil => exact fun _ _ h ↦ h
    | cons root roots ih => exact fun s s' h ↦ ih _ _ (h.enter hg root)
  rw [start, start, hg.roots, ← Array.foldl_toList, ← Array.foldl_toList, Array.toList_map]
  exact hfold g.roots.toList {} {} ⟨isRenamed_empty f _, rfl, rfl, Array.map_empty.symm⟩

theorem Renames.accepts_eq (h : Renames f s s') (id : ObjectId) (library : Option String) :
    s'.accepts (f id) library = s.accepts id library := by
  rw [accepts, accepts, h.visits id]
  cases s.visits[id]? <;> rfl

theorem Renames.reach (h : Renames f s s') (hf : f.Injective) (r : Reference) (root : RootKind)
    (library : Option String) :
    Renames f (s.reach r root library) (s'.reach (r.rename f) root library) := by
  have htarget : (r.rename f).target = f r.target := rfl
  unfold Search.reach
  rw [htarget, h.accepts_eq]
  split
  · exact h.meet hf r.target ⟨some r, root, library, false⟩
  · exact h

theorem Renames.follow (h : Renames f s s') (hg : g.IsRenaming f g') (v : Visit)
    (r : Reference) :
    Renames f (s.follow g ms v r) (s'.follow g' ms (v.rename f) (r.rename f)) := by
  unfold Search.follow
  rw [Matcher.standingOf_rename hg]
  cases Matcher.standingOf ms g r with
  | ignored => exact h
  | plain => exact h.reach hg.injective r v.root v.library
  | library description => exact h.reach hg.injective r v.root (v.library <|> some description)

theorem Renames.foldl_follow (h : Renames f s s') (hg : g.IsRenaming f g') (v : Visit)
    (pending : List Reference) :
    Renames f (pending.foldl (Search.follow g ms v) s)
      ((pending.map (Reference.rename f)).foldl
        (Search.follow g' ms (v.rename f)) s') := by
  induction pending generalizing s s' with
  | nil => exact h
  | cons r pending ih => exact ih (h.follow hg v r)

theorem Renames.settle (h : Renames f s s') (hf : f.Injective)
    (hwanted : ∀ id, wanted'.contains (f id) = wanted.contains id) (id : ObjectId) (v : Visit) :
    Renames f (s.settle wanted id v) (s'.settle wanted' (f id) (v.rename f)) := by
  refine ⟨h.visits.insert hf id { v with done := true }, h.plain, h.deferred, ?_⟩
  simp only [Search.settle, hwanted, h.found]
  split
  · rw [Array.map_push]
  · rfl

theorem Renames.serve (h : Renames f s s') (hg : g.IsRenaming f g')
    (hwanted : ∀ id, wanted'.contains (f id) = wanted.contains id) (id : ObjectId) :
    Renames f (s.serve g ms wanted id) (s'.serve g' ms wanted' (f id)) := by
  unfold Search.serve
  rw [h.visits id]
  cases s.visits[id]? with
  | none => exact h
  | some v =>
      have hdone : (v.rename f).done = v.done := rfl
      simp only [Option.map_some, hdone]
      split
      · exact h
      · rw [expand, expand, hg.references_eq]
        exact (h.settle hg.injective hwanted id v).foldl_follow hg v (g.references id)

/-- Both searches serve the same object next. -/
theorem Renames.next? (h : Renames f s s') :
    (s.next? = none ∧ s'.next? = none) ∨ ∃ id rest rest', s.next? = some (id, rest) ∧
      s'.next? = some (f id, rest') ∧ Renames f rest rest' := by
  have hplain : s'.plain.pop? = _ := h.plain ▸ Queue.pop?_map f s.plain
  have hdeferred : s'.deferred.pop? = _ := h.deferred ▸ Queue.pop?_map f s.deferred
  unfold Search.next?
  rw [hplain, hdeferred]
  cases s.plain.pop? with
  | some popped => exact .inr ⟨_, _, _, rfl, rfl, h.visits, rfl, h.deferred, h.found⟩
  | none =>
      cases s.deferred.pop? with
      | some popped => exact .inr ⟨_, _, _, rfl, rfl, h.visits, h.plain, rfl, h.found⟩
      | none => exact .inl ⟨rfl, rfl⟩

theorem Renames.run (h : Renames f s s') (hg : g.IsRenaming f g')
    (hwanted : ∀ id, wanted'.contains (f id) = wanted.contains id)
    (hsize : wanted'.size = wanted.size) (fuel : ℕ) :
    Renames f (s.run g ms wanted fuel) (s'.run g' ms wanted' fuel) := by
  induction fuel generalizing s s' with
  | zero => exact h
  | succ fuel ih =>
      have hfound : s'.found.size = s.found.size := by rw [h.found, Array.size_map]
      rw [Search.run, Search.run, hfound, hsize]
      split
      · rcases h.next? with ⟨hnone, hnone'⟩ | ⟨id, rest, rest', hnext, hnext', hrest⟩
        · rw [hnone, hnone']
          exact h
        · rw [hnext, hnext']
          exact ih (hrest.serve hg hwanted id)
      · exact h

theorem entryBound_rename (hg : g.IsRenaming f g') :
    entryBound g' = entryBound g := by
  have hroots : g'.roots.size = g.roots.size := by rw [hg.roots, Array.size_map]
  have hkeys := (hg.slots.keys_perm hg.injective).flatMap_right g'.references
  rw [entryBound, entryBound, hroots, hkeys.length_eq, List.length_flatMap, List.length_flatMap,
    List.map_map]
  congr 3
  funext id
  rw [Function.comp_apply, hg.references_eq, List.length_map]

theorem renames_ofGraph (hg : g.IsRenaming f g')
    (hwanted : ∀ id, wanted'.contains (f id) = wanted.contains id)
    (hsize : wanted'.size = wanted.size) (ms : List Matcher) :
    Renames f (ofGraph g ms wanted) (ofGraph g' ms wanted') := by
  rw [ofGraph, ofGraph, entryBound_rename hg]
  exact (renames_start hg).run hg hwanted hsize _

/-! ## Ways -/

theorem Renames.wayBack_eq (h : Renames f s s') (fuel : ℕ) (id : ObjectId) (root : RootKind)
    (way : List Reference) :
    s'.wayBack fuel (f id) root (way.map (Reference.rename f)) =
      ((s.wayBack fuel id root way).1,
        (s.wayBack fuel id root way).2.map (Reference.rename f)) := by
  induction fuel generalizing id root way with
  | zero =>
      rw [wayBack, wayBack, h.visits id]
      cases s.visits[id]? with
      | none => rfl
      | some v => cases hparent : v.parent <;> simp [Visit.rename, hparent]
  | succ fuel ih =>
      rw [wayBack, wayBack, h.visits id]
      cases s.visits[id]? with
      | none => rfl
      | some v =>
          obtain ⟨parent, kind, library, done⟩ := v
          cases parent with
          | none => rfl
          | some r => exact ih r.source kind (r :: way)

theorem Renames.way_eq (h : Renames f s s') (hf : f.Injective) (id : ObjectId) :
    s'.way (f id) = ((s.way id).1, (s.way id).2.map (Reference.rename f)) := by
  rw [way, way, h.visits.size_eq hf]
  exact h.wayBack_eq _ id .unknown []

end Search

/-! ## Traces and groups -/

theorem size_eq_of_contains {wanted wanted' : Std.HashSet ObjectId} (hf : f.Injective)
    (hwanted : ∀ id, wanted'.contains (f id) = wanted.contains id) :
    wanted'.size = wanted.size := by
  have hsurjective : f.Surjective := Finite.injective_iff_surjective.1 hf
  have hperm : wanted'.toList.Perm (wanted.toList.map f) := by
    have hdistinct (t : Std.HashSet ObjectId) : t.toList.Nodup :=
      Std.HashSet.distinct_toList.imp fun hne ↦ beq_eq_false_iff_ne.1 hne
    have hnodup : (wanted.toList.map f).Nodup := (hdistinct wanted).map hf
    refine (List.perm_ext_iff_of_nodup (hdistinct wanted') hnodup).2 fun renamed ↦ ?_
    obtain ⟨id, rfl⟩ := hsurjective renamed
    rw [List.mem_map_of_injective hf, Std.HashSet.mem_toList, Std.HashSet.mem_toList,
      ← Std.HashSet.contains_iff_mem, ← Std.HashSet.contains_iff_mem, hwanted]
  simpa using hperm.length_eq

theorem contains_map {α : Type} [DecidableEq α] {f : α → α} (hf : f.Injective) (as : List α)
    (a : α) : (as.map f).contains (f a) = as.contains a := by
  rw [Bool.eq_iff_iff, List.contains_iff_mem, List.contains_iff_mem, List.mem_map_of_injective hf]

theorem renames_searchFor (hg : g.IsRenaming f g') (candidates : List Candidate)
    (ms : List Matcher) :
    (searchFor g candidates ms).Renames f
      (searchFor g' (candidates.map (Candidate.rename f)) ms) := by
  have hobjects : (candidates.map (Candidate.rename f)).map Candidate.object =
      (candidates.map Candidate.object).map f := by
    rw [List.map_map, List.map_map]
    rfl
  have hwanted : ∀ id,
      (Std.HashSet.ofList ((candidates.map Candidate.object).map f)).contains (f id) =
        (Std.HashSet.ofList (candidates.map Candidate.object)).contains id := by
    intro id
    rw [Std.HashSet.contains_ofList, Std.HashSet.contains_ofList, contains_map hg.injective]
  rw [searchFor, searchFor, hobjects]
  exact Search.renames_ofGraph hg hwanted (size_eq_of_contains hg.injective hwanted) ms

theorem classNameOf_rename (hg : g.IsRenaming f g') (id : ObjectId) :
    classNameOf g' (f id) = renameResult f (fun name ↦ name) (classNameOf g id) := by
  rw [classNameOf, classNameOf, hg.className?_eq]
  cases g.className? id <;> rfl

theorem Hop.ofReference_rename (hg : g.IsRenaming f g') (r : Reference) :
    Hop.ofReference g' (r.rename f) =
      renameResult f (fun hop ↦ hop) (Hop.ofReference g r) := by
  have hsource : classNameOf g' (r.rename f).source = _ :=
    classNameOf_rename hg r.source
  have hclass : (r.rename f).declaringClass >>= g'.class? = _ :=
    hg.classOf_eq r.declaringClass
  rw [Hop.ofReference, Hop.ofReference, hsource, hclass, Option.map_map]
  refine bind_renameResult (fun _ ↦ ?_) _
  rfl

theorem Leaking.ofCandidate_rename (hg : g.IsRenaming f g') (c : Candidate) :
    Leaking.ofCandidate g' (c.rename f) =
      renameResult f (Leaking.rename f) (Leaking.ofCandidate g c) := by
  have hobject : g'.object? (c.rename f).object = _ := hg.object?_eq c.object
  have hname : classNameOf g' (c.rename f).object = _ :=
    classNameOf_rename hg c.object
  rw [Leaking.ofCandidate, Leaking.ofCandidate, hobject, hname]
  cases g.object? c.object with
  | none => rfl
  | some o =>
      refine bind_renameResult (fun _ ↦ ?_) _
      cases o <;> rfl

theorem Trace.ofSearch_rename {s s' : Search} (h : s.Renames f s') (hg : g.IsRenaming f g')
    (c : Candidate) :
    Trace.ofSearch g' s' (c.rename f) =
      renameResult f (Trace.rename f) (Trace.ofSearch g s c) := by
  have hway : s'.way (c.rename f).object = _ := h.way_eq hg.injective c.object
  rw [Trace.ofSearch, Trace.ofSearch, hway, Leaking.ofCandidate_rename hg]
  obtain ⟨root, way⟩ := s.way c.object
  simp only [mapM_renameResult (Hop.ofReference_rename hg)]
  refine bind_renameResult (fun path ↦ ?_) _
  rw [List.map_id']
  refine bind_renameResult (fun _ ↦ ?_) _
  rfl

theorem Member.ofSearch_rename {s s' : Search} (h : s.Renames f s') (hg : g.IsRenaming f g')
    (candidates : List Candidate) (id : ObjectId) :
    Member.ofSearch g' s' (candidates.map (Candidate.rename f)) (f id) =
      renameResult f (Member.rename f) (Member.ofSearch g s candidates id) := by
  have hfind : (candidates.map (Candidate.rename f)).find? (·.object == f id) =
      (candidates.find? (·.object == id)).map (Candidate.rename f) := by
    rw [List.find?_map]
    congr 2
    funext c
    exact hg.injective.beq_eq
  have hlibrary : s'.visits[f id]?.bind Visit.library = s.visits[id]?.bind Visit.library := by
    rw [h.visits id]
    cases s.visits[id]? <;> rfl
  rw [Member.ofSearch, Member.ofSearch, hfind, hlibrary]
  cases candidates.find? (·.object == id) with
  | none => rfl
  | some c =>
      simp only [Option.map_some, Trace.ofSearch_rename h hg]
      refine bind_renameResult (fun _ ↦ ?_) _
      rfl

theorem Group.insert_rename (f : ObjectId → ObjectId) (signature : String) (m : Member)
    (groups : List Group) :
    Group.insert signature (m.rename f) (groups.map (Group.rename f)) =
      (Group.insert signature m groups).map (Group.rename f) := by
  induction groups with
  | nil => rfl
  | cons group groups ih =>
      have hsignature : (group.rename f).signature = group.signature := rfl
      rw [List.map_cons, Group.insert, Group.insert, hsignature]
      split
      · rw [List.map_cons]
        simp [Group.rename, Member.rename, Trace.rename, Leaking.rename]
      · rw [List.map_cons, ih]

/-- Signatures are made of names, so that members are grouped as before. -/
theorem Group.ofMembers_rename (f : ObjectId → ObjectId) (members : List Member) :
    Group.ofMembers (members.map (Member.rename f)) =
      (Group.ofMembers members).map (Group.rename f) := by
  induction members using List.reverseRecOn with
  | nil => rfl
  | append_singleton members m ih =>
      have hsignature : (m.rename f).trace.signature = m.trace.signature := rfl
      rw [List.map_append, List.map_singleton, Group.ofMembers, List.foldl_append,
        ← Group.ofMembers, ih, List.foldl_cons, List.foldl_nil, hsignature, Group.insert_rename]
      rw [Group.ofMembers, Group.ofMembers, List.foldl_append, List.foldl_cons, List.foldl_nil]

theorem sortCandidates_rename (hg : g.IsRenaming f g') (candidates : List Candidate)
    (ms : List Matcher) :
    sortCandidates g' (candidates.map (Candidate.rename f)) ms =
      renameResult f (Findings.rename f) (sortCandidates g candidates ms) := by
  have h := renames_searchFor hg candidates ms
  have hmembers := mapM_renameResult (Member.ofSearch_rename h hg candidates)
    (searchFor g candidates ms).found.toList
  rw [sortCandidates, sortCandidates, h.found, Array.toList_map, hmembers]
  refine bind_renameResult (fun members ↦ ?_) _
  have happlication : (members.map (Member.rename f)).filter (·.library.isNone) =
      (members.filter (·.library.isNone)).map (Member.rename f) := List.filter_map ..
  have hlibrary : (members.map (Member.rename f)).filter (·.library.isSome) =
      (members.filter (·.library.isSome)).map (Member.rename f) := List.filter_map ..
  have hunreachable : ((candidates.map (Candidate.rename f)).map Candidate.object).filter
        (!((searchFor g candidates ms).found.map f).contains ·) =
      ((candidates.map Candidate.object).filter
        (!(searchFor g candidates ms).found.contains ·)).map f := by
    have hobjects : (candidates.map (Candidate.rename f)).map Candidate.object =
        (candidates.map Candidate.object).map f := by
      rw [List.map_map, List.map_map]
      rfl
    rw [hobjects, List.filter_map]
    congr 2
    funext id
    simp [hg.injective.eq_iff]
  rw [happlication, hlibrary, hunreachable, Group.ofMembers_rename, Group.ofMembers_rename]
  rfl

theorem findPaths_rename (hg : g.IsRenaming f g') (candidates : List Candidate)
    (ms : List Matcher) :
    findPaths g' (candidates.map (Candidate.rename f)) ms =
      renameResult f (Findings.rename f) (findPaths g candidates ms) := by
  rw [findPaths, findPaths, sortCandidates_rename hg]
  refine bind_renameResult (fun all ↦ ?_) _
  simp [renameResult, Findings.truncate, Findings.rename, List.map_take]

end HeapSentry.Leak
