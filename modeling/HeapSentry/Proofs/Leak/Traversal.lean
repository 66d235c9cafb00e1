import HeapSentry.Proofs.Leak.Way

/-!
# What holds while a search goes on

`ways` gives the way to each object that has been met.  It is not part of a search, which keeps
parents only; the way to an object is settled once the object is done, as parents are done before
what they lead to is served.

The objects that wait are served in the order of the ranks of their ways: `front` is the way of the
object served last, and the ways of what waits rank from `front` on to just behind it.
-/

namespace HeapSentry.Leak

open Heap Matcher

namespace Search

variable (ms : List Matcher) (g : Graph) (s : Search) (visits : Std.HashMap ObjectId Visit)
  (ways : ObjectId → List Reference)

/-- How an object came to be met: it is a root, or a reference of an object that is done leads to
it. -/
inductive Origin (id : ObjectId) (v : Visit) : Prop where
  | root (kind : g.sourceKind? id = some v.root) (parent : v.parent = none) (way : ways id = [])
  | step {r : Reference} {u : Visit} (parent : v.parent = some r) (target : r.target = id)
      (mem : r ∈ g.references r.source) (followed : IsFollowed ms g r)
      (visit : visits[r.source]? = some u) (done : u.done = true) (root : v.root = u.root)
      (way : ways id = ways r.source ++ [r])

/-- What the visits tell is true of the ways. -/
structure Recorded : Prop where
  origin : ∀ {id v}, visits[id]? = some v → Origin ms g visits ways id v
  library : ∀ {id v}, visits[id]? = some v → v.library = firstLibrary ms g (ways id)

/-- What has been met and is not done waits, once in the queue for its kind of way.  In the deferred
queue there may also be objects that have been met again on a plain way. -/
structure Queued : Prop where
  mem_plain : ∀ {id}, id ∈ s.plain.toList →
    ∃ v, s.visits[id]? = some v ∧ v.done = false ∧ v.library = none
  mem_deferred : ∀ {id}, id ∈ s.deferred.toList →
    ∃ v, s.visits[id]? = some v ∧ (v.library.isSome → v.done = false)
  plain_waits : ∀ {id v}, s.visits[id]? = some v → v.done = false → v.library = none →
    id ∈ s.plain.toList
  deferred_waits : ∀ {id v}, s.visits[id]? = some v → v.done = false → v.library.isSome →
    id ∈ s.deferred.toList
  plain_nodup : s.plain.toList.Nodup
  deferred_nodup : s.deferred.toList.Nodup

/-- Whether the way to an object leads through a library. -/
abbrev Deferred (id : ObjectId) : Prop := (firstLibrary ms g (ways id)).isSome

/-- What waits is served in the order of ranks. -/
structure Ordered (front : List Reference) : Prop where
  plain_sorted : s.plain.toList.Pairwise fun a b ↦ rank ms g (ways a) ≤ rank ms g (ways b)
  deferred_sorted : s.deferred.toList.Pairwise fun a b ↦
    Deferred ms g ways b → rank ms g (ways a) ≤ rank ms g (ways b)
  plain_ahead : ∀ {id}, id ∈ s.plain.toList →
    rank ms g front ≤ rank ms g (ways id) ∧ (ways id).length ≤ front.length + 1
  deferred_ahead : ∀ {id}, id ∈ s.deferred.toList → Deferred ms g ways id →
    rank ms g front ≤ rank ms g (ways id) ∧ rank ms g (ways id) ≤ nextRank ms g front
  done_behind : ∀ {id v}, s.visits[id]? = some v → v.done = true →
    rank ms g (ways id) ≤ rank ms g front

/-- An object has been met on a way that is at least as good as another. -/
def Covers (way : List Reference) (id : ObjectId) : Prop :=
  (∃ v, visits[id]? = some v) ∧ rank ms g (ways id) ≤ rank ms g way

/-- Roots have been met, and so has all that objects which are done refer to, but for the
references that are still to be followed. -/
structure Followed (pending : List Reference) : Prop where
  source : ∀ {id}, g.IsSource id → Covers ms g visits ways [] id
  reference : ∀ {id v}, visits[id]? = some v → v.done = true → ∀ {r}, r ∈ g.references id →
    IsFollowed ms g r → r ∉ pending → Covers ms g visits ways (ways id ++ [r]) r.target

/-- The wanted objects that are done have been found, the best ways first. -/
structure Found (wanted : Std.HashSet ObjectId) : Prop where
  mem_iff : ∀ {id}, id ∈ s.found ↔ id ∈ wanted ∧ ∃ v, s.visits[id]? = some v ∧ v.done = true
  nodup : s.found.toList.Nodup
  sorted : s.found.toList.Pairwise fun a b ↦ rank ms g (ways a) ≤ rank ms g (ways b)

/-- All that holds between the steps of a search. -/
structure Traversal (wanted : Std.HashSet ObjectId) (front pending : List Reference) : Prop where
  recorded : Recorded ms g s.visits ways
  queued : Queued s
  ordered : Ordered ms g s ways front
  followed : Followed ms g s.visits ways pending
  found : Found ms g s ways wanted

variable {ms g s visits ways}

/-! ## Steps -/

/-- Later visits tell of better ways, and the same of the objects that were done before. -/
structure Improves (ms : List Matcher) (g : Graph) (visits visits' : Std.HashMap ObjectId Visit)
    (ways ways' : ObjectId → List Reference) : Prop where
  met : ∀ {id v}, visits[id]? = some v →
    (∃ v', visits'[id]? = some v') ∧ rank ms g (ways' id) ≤ rank ms g (ways id)
  done : ∀ {id v}, visits[id]? = some v → v.done = true →
    visits'[id]? = some v ∧ ways' id = ways id

variable {visits' : Std.HashMap ObjectId Visit} {ways' : ObjectId → List Reference}

theorem Improves.refl : Improves ms g visits visits ways ways :=
  ⟨fun hv ↦ ⟨⟨_, hv⟩, le_rfl⟩, fun hv _ ↦ ⟨hv, rfl⟩⟩

theorem Improves.trans {visits'' : Std.HashMap ObjectId Visit}
    {ways'' : ObjectId → List Reference} (h : Improves ms g visits visits' ways ways')
    (h' : Improves ms g visits' visits'' ways' ways'') :
    Improves ms g visits visits'' ways ways'' where
  met := by
    intro id v hv
    obtain ⟨⟨v', hv'⟩, hle⟩ := h.met hv
    obtain ⟨hmet, hle'⟩ := h'.met hv'
    exact ⟨hmet, hle'.trans hle⟩
  done := by
    intro id v hv hdone
    obtain ⟨hv', hway⟩ := h.done hv hdone
    obtain ⟨hv'', hway'⟩ := h'.done hv' hdone
    exact ⟨hv'', hway'.trans hway⟩

theorem Covers.improve {way : List Reference} {id : ObjectId}
    (hc : Covers ms g visits ways way id) (h : Improves ms g visits visits' ways ways') :
    Covers ms g visits' ways' way id := by
  obtain ⟨⟨v, hv⟩, hle⟩ := hc
  obtain ⟨hmet, hle'⟩ := h.met hv
  exact ⟨hmet, hle'.trans hle⟩

theorem Origin.improve {id : ObjectId} {v v' : Visit} (ho : Origin ms g visits ways id v)
    (h : Improves ms g visits visits' ways ways') (hway : ways' id = ways id)
    (hparent : v'.parent = v.parent) (hroot : v'.root = v.root) :
    Origin ms g visits' ways' id v' := by
  cases ho with
  | root kind parent way =>
      exact .root (hroot ▸ kind) (hparent.trans parent) (hway.trans way)
  | step parent target mem followed visit done root way =>
      obtain ⟨hvisit, hsource⟩ := h.done visit done
      refine .step (hparent.trans parent) target mem followed hvisit done (hroot.trans root) ?_
      rw [hway, way, hsource]

theorem getElem?_insert_eq_some {id other : ObjectId} {v u : Visit} :
    (visits.insert id v)[other]? = some u ↔
      other = id ∧ u = v ∨ other ≠ id ∧ visits[other]? = some u := by
  by_cases hid : other = id
  · subst hid
    simp [eq_comm]
  · simp [Std.HashMap.getElem?_insert, hid, Ne.symm hid]

theorem mem_visits {id : ObjectId} {v : Visit} (hv : visits[id]? = some v) : id ∈ visits :=
  Std.HashMap.mem_iff_isSome_getElem?.2 (Option.isSome_of_eq_some hv)

/-! ## What can be said at any time -/

/-- A property of visits that passes from objects to what they lead to holds of all. -/
theorem Recorded.induction (h : Recorded ms g visits ways) {P : ObjectId → Visit → Prop}
    (root : ∀ {id v}, visits[id]? = some v → g.sourceKind? id = some v.root →
      v.parent = none → ways id = [] → P id v)
    (step : ∀ {id v u r}, visits[id]? = some v → v.parent = some r → r.target = id →
      r ∈ g.references r.source → IsFollowed ms g r → visits[r.source]? = some u →
      u.done = true → v.root = u.root → ways id = ways r.source ++ [r] → P r.source u → P id v)
    {id : ObjectId} {v : Visit} (hv : visits[id]? = some v) : P id v := by
  -- Parents have been met on shorter ways.
  induction hn : (ways id).length using Nat.strong_induction_on generalizing id v with
  | _ n ih =>
      cases h.origin hv with
      | root kind parent way => exact root hv kind parent way
      | step parent target mem followed visit done hroot way =>
          refine step hv parent target mem followed visit done hroot way ?_
          exact ih _ (by simp [← hn, way]) visit rfl

/-- Every way to an object has been overtaken: the object has been met on one that is as good, or
something waits whose way is as good. -/
theorem Traversal.covers_or_waits {wanted : Std.HashSet ObjectId} {front : List Reference}
    (h : Traversal ms g s ways wanted front []) {way : List Reference} {id : ObjectId}
    (hway : g.LeadsTo (IsFollowed ms g) way id) :
    Covers ms g s.visits ways way id ∨
      ∃ other v, s.visits[other]? = some v ∧ v.done = false ∧
        rank ms g (ways other) ≤ rank ms g way := by
  -- What waits is as good as a part of the way, hence as good as all of it.
  obtain ⟨source, hsource, hleads⟩ := hway
  induction hleads with
  | nil => exact Or.inl (h.followed.source hsource)
  | @snoc way b r _ hmem hr ih =>
      rcases ih with ⟨⟨v, hv⟩, hle⟩ | ⟨other, v, hv, hdone, hle⟩
      · cases hdone : v.done with
        | false => exact Or.inr ⟨b, v, hv, hdone, hle.trans (rank_lt_snoc way r).le⟩
        | true =>
            obtain ⟨hmet, hle'⟩ := h.followed.reference hv hdone hmem hr (by simp)
            exact Or.inl ⟨hmet, hle'.trans (rank_snoc_mono hle r)⟩
      · exact Or.inr ⟨other, v, hv, hdone, hle.trans (rank_lt_snoc way r).le⟩

/-- What waits is no better than what was served last. -/
theorem Traversal.front_le {wanted : Std.HashSet ObjectId} {front pending : List Reference}
    (h : Traversal ms g s ways wanted front pending) {id : ObjectId} {v : Visit}
    (hv : s.visits[id]? = some v) (hdone : v.done = false) :
    rank ms g front ≤ rank ms g (ways id) := by
  cases hlib : v.library with
  | none => exact (h.ordered.plain_ahead (h.queued.plain_waits hv hdone hlib)).1
  | some description =>
      have hmem := h.queued.deferred_waits hv hdone (by simp [hlib])
      exact (h.ordered.deferred_ahead hmem (by simp [Deferred, ← h.recorded.library hv, hlib])).1

/-- No way to an object that is done is better than the one it was met on. -/
theorem Traversal.rank_le_of_done {wanted : Std.HashSet ObjectId} {front : List Reference}
    (h : Traversal ms g s ways wanted front []) {id : ObjectId} {v : Visit}
    (hv : s.visits[id]? = some v) (hdone : v.done = true) {way : List Reference}
    (hway : g.LeadsTo (IsFollowed ms g) way id) : rank ms g (ways id) ≤ rank ms g way := by
  rcases h.covers_or_waits hway with hcovers | ⟨other, u, hu, hwaits, hle⟩
  · exact hcovers.2
  · calc
      rank ms g (ways id) ≤ rank ms g front := h.ordered.done_behind hv hdone
      _ ≤ rank ms g (ways other) := h.front_le hu hwaits
      _ ≤ rank ms g way := hle

end Search

end HeapSentry.Leak
