import HeapSentry.Proofs.Leak.Start
import Mathlib.Data.List.Flatten
import Mathlib.Data.List.Nodup

/-!
# The end of a search

Every entry that is served leaves less to do: a stale entry only goes away, and an object that is
settled adds at most one entry for each of its references, which need not be followed again.  So a
search ends because it has found all it wants or because nothing waits, whatever the graph.
-/

namespace HeapSentry.Leak

open Heap Matcher

namespace Search

/-- Whether the references of an object have been followed. -/
def isDone (visits : Std.HashMap ObjectId Visit) (id : ObjectId) : Bool :=
  visits[id]?.any (·.done)

/-- The references of objects that are not done. -/
def unfollowed (g : Graph) (visits : Std.HashMap ObjectId Visit) : List Reference :=
  (g.slots.keys.filter fun id ↦ !isDone visits id).flatMap g.references

/-- The number of entries in both queues. -/
def entries (s : Search) : ℕ := s.plain.toList.length + s.deferred.toList.length

variable {ms : List Matcher} {g : Graph} {s rest : Search} {wanted : Std.HashSet ObjectId}
  {id : ObjectId} {v : Visit}

theorem entries_meet (s : Search) (id : ObjectId) (v : Visit) :
    (s.meet id v).entries = s.entries + 1 := by
  rw [entries, entries, toList_plain_meet, toList_deferred_meet]
  split
  · rw [List.length_append, List.length_singleton]
    omega
  · rw [List.length_append, List.length_singleton]
    omega

theorem entries_of_next? (h : s.next? = some (id, rest)) : s.entries = rest.entries + 1 := by
  obtain ⟨-, -, ⟨hp, hd⟩ | ⟨hp, hp', hd⟩⟩ := next?_eq_some h
  · rw [entries, entries, hp, hd, List.length_cons]
    omega
  · rw [entries, entries, hp, hp', hd, List.length_cons]
    omega

theorem isDone_insert {visits : Std.HashMap ObjectId Visit} {other : ObjectId} :
    isDone (visits.insert id v) other = if other = id then v.done else isDone visits other := by
  by_cases hid : other = id
  · subst hid
    simp [isDone]
  · simp [isDone, Std.HashMap.getElem?_insert, hid, Ne.symm hid]

/-- What accepts a way is not done, and does not become so. -/
theorem isDone_meet (haccepts : s.accepts id v.library = true) (hwaits : v.done = false) :
    isDone (s.meet id v).visits = isDone s.visits := by
  funext other
  rw [visits_meet, isDone_insert, hwaits]
  split
  next hid =>
    subst hid
    cases hknown : s.visits[other]? with
    | none => simp [isDone, hknown]
    | some known => simp [isDone, hknown, (accepts_iff.1 haccepts known hknown).1]
  next => rfl

theorem follow_le (ms : List Matcher) (g : Graph) (v : Visit) (s : Search) (r : Reference) :
    isDone (s.follow g ms v r).visits = isDone s.visits ∧
      (s.follow g ms v r).entries ≤ s.entries + 1 := by
  by_cases hr : standingOf ms g r = .ignored
  · rw [follow_of_ignored hr]
    exact ⟨rfl, Nat.le_succ _⟩
  rw [follow_of_ne_ignored hr, Search.reach]
  split
  next haccepts => exact ⟨isDone_meet haccepts rfl, (entries_meet ..).le⟩
  next => exact ⟨rfl, Nat.le_succ _⟩

theorem foldl_follow_le (ms : List Matcher) (g : Graph) (v : Visit) (pending : List Reference)
    (s : Search) :
    isDone (pending.foldl (Search.follow g ms v) s).visits = isDone s.visits ∧
      (pending.foldl (Search.follow g ms v) s).entries ≤ s.entries + pending.length := by
  induction pending generalizing s with
  | nil => exact ⟨rfl, le_rfl⟩
  | cons r pending ih =>
      obtain ⟨hdone, hle⟩ := ih (s.follow g ms v r)
      obtain ⟨hdone', hle'⟩ := follow_le ms g v s r
      refine ⟨hdone.trans hdone', ?_⟩
      rw [List.foldl_cons, List.length_cons]
      omega

theorem references_eq_nil (h : id ∉ g.slots.keys) : g.references id = [] := by
  have hnone : g.slots[id]? = none :=
    Std.HashMap.getElem?_eq_none fun hmem ↦ h (Std.HashMap.mem_keys.2 hmem)
  simp [Graph.references, Graph.object?, hnone]

/-- Settling an object takes its references away from those that are still to be followed. -/
theorem unfollowed_perm_settle (g : Graph) (hdone : isDone s.visits id = false) (v : Visit) :
    (unfollowed g s.visits).Perm
      (g.references id ++ unfollowed g (s.visits.insert id { v with done := true })) := by
  have hsettled : (g.slots.keys.filter fun other ↦
      !isDone (s.visits.insert id { v with done := true }) other) =
        (g.slots.keys.filter fun other ↦ !isDone s.visits other).erase id := by
    rw [(Std.HashMap.nodup_keys.filter _).erase_eq_filter, List.filter_filter]
    refine List.filter_congr fun other _ ↦ ?_
    rw [isDone_insert]
    by_cases hid : other = id <;> simp [hid]
  rw [unfollowed, unfollowed, hsettled]
  by_cases hmem : id ∈ g.slots.keys.filter fun other ↦ !isDone s.visits other
  · exact (List.perm_cons_erase hmem).flatMap_right g.references
  · have hkeys : id ∉ g.slots.keys := fun hid ↦ hmem (List.mem_filter.2 ⟨hid, by simp [hdone]⟩)
    rw [List.erase_of_not_mem hmem, references_eq_nil hkeys, List.nil_append]

/-- What is left to do: the entries that wait, and the references that may add some. -/
def remaining (g : Graph) (s : Search) : ℕ := s.entries + (unfollowed g s.visits).length

theorem remaining_serve_lt (ms : List Matcher) (g : Graph) (wanted : Std.HashSet ObjectId)
    (h : s.next? = some (id, rest)) :
    (rest.serve g ms wanted id).remaining g < s.remaining g := by
  have hentries := entries_of_next? h
  have hvisits := (next?_eq_some h).1
  have hrest : rest.remaining g < s.remaining g := by
    rw [remaining, remaining, hvisits]
    omega
  rw [Search.serve]
  split
  · exact hrest
  next v hv =>
    split
    · exact hrest
    next hdone =>
      rw [Search.expand]
      obtain ⟨hsame, hle⟩ := foldl_follow_le ms g v (g.references id) (rest.settle wanted id v)
      -- The references that are now followed pay for the entries that they add.
      have hwaits : isDone rest.visits id = false := by simp [isDone, hv, hdone]
      have hsettle := (unfollowed_perm_settle g hwaits v).length_eq
      rw [List.length_append] at hsettle
      have hunfollowed : unfollowed g
          ((g.references id).foldl (Search.follow g ms v) (rest.settle wanted id v)).visits =
            unfollowed g (rest.visits.insert id { v with done := true }) := by
        rw [unfollowed, hsame]
        rfl
      have hsame' : (rest.settle wanted id v).entries = rest.entries := rfl
      rw [remaining, remaining] at hrest
      rw [remaining, remaining, hunfollowed]
      omega

/-- A search with enough fuel ends by itself. -/
theorem run_ends (ms : List Matcher) (wanted : Std.HashSet ObjectId) (fuel : ℕ) (s : Search)
    (h : s.remaining g < fuel) :
    wanted.size ≤ (s.run g ms wanted fuel).found.size ∨
      (s.run g ms wanted fuel).next? = none := by
  induction fuel generalizing s with
  | zero => omega
  | succ fuel ih =>
      rw [Search.run]
      split
      · split
        next hnext => exact Or.inr hnext
        next id rest hnext =>
          have hlt := remaining_serve_lt ms g wanted hnext
          exact ih _ (by omega)
      next hsize => exact Or.inl (not_lt.1 hsize)

theorem remaining_start_le (g : Graph) : (start g).remaining g ≤ entryBound g := by
  have he := entered_start g
  have hentries : (start g).entries ≤ g.roots.size := by
    have hsubset : (start g).plain.toList ⊆ g.roots.toList.map Root.id := by
      intro id hmem
      obtain ⟨v, hv⟩ := he.plain.1 hmem
      rw [he.visits] at hv
      split at hv
      · obtain ⟨root, hroot, -⟩ := Option.map_eq_some_iff.1 hv
        have hid := List.find?_some hroot
        exact List.mem_map.2 ⟨root, List.mem_of_find?_eq_some hroot, by simpa using hid⟩
      · simp at hv
    have hle := he.plain_nodup.length_le_of_subset hsubset
    simpa [entries, he.deferred] using hle
  have hunfollowed : (unfollowed g (start g).visits).length ≤
      (g.slots.keys.flatMap g.references).length :=
    (List.filter_sublist.flatMap g.references).length_le
  rw [remaining, entryBound]
  omega

end Search

end HeapSentry.Leak
