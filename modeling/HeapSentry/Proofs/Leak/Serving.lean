import HeapSentry.Proofs.Leak.Following
import HeapSentry.Proofs.Leak.Settling

/-!
# Serving what waits

One entry of the queues is served at a time, which keeps all that holds of a search; so does serving
any number of them.
-/

namespace HeapSentry.Leak

open Heap Matcher

namespace Search

variable {ms : List Matcher} {g : Graph} {s rest : Search} {ways : ObjectId → List Reference}
  {wanted : Std.HashSet ObjectId} {front : List Reference} {id : ObjectId}

theorem Traversal.serve (ht : Traversal ms g s ways wanted front [])
    (h : s.next? = some (id, rest)) :
    ∃ ways' front', Traversal ms g (rest.serve g ms wanted id) ways' wanted front' [] ∧
      Improves ms g s.visits (rest.serve g ms wanted id).visits ways ways' := by
  obtain ⟨v, hv⟩ := ht.queued.met_of_next? h
  have hvisits := (next?_eq_some h).1
  rw [Search.serve, hvisits, hv]
  cases hdone : v.done with
  | true =>
      simp only [hdone, if_true]
      exact ⟨ways, front, ht.drop h hv hdone, hvisits ▸ .refl⟩
  | false =>
      simp only [hdone, Bool.false_eq_true, if_false, Search.expand]
      have hsettled : (rest.settle wanted id v).visits =
          s.visits.insert id { v with done := true } := by
        rw [Search.settle, hvisits]
      have hv' : (rest.settle wanted id v).visits[id]? = some { v with done := true } := by
        simp [hsettled]
      obtain ⟨ways', ht', himproves⟩ := (ht.settle h hv hdone).foldl_follow (fun _ hr ↦ hr) hv'
      exact ⟨ways', ways' id, ht', (hsettled ▸ improves_settle hv hdone).trans himproves⟩

theorem Traversal.run (ht : Traversal ms g s ways wanted front []) (fuel : ℕ) :
    ∃ ways' front', Traversal ms g (s.run g ms wanted fuel) ways' wanted front' [] ∧
      Improves ms g s.visits (s.run g ms wanted fuel).visits ways ways' := by
  induction fuel generalizing s ways front with
  | zero => exact ⟨ways, front, ht, .refl⟩
  | succ fuel ih =>
      rw [Search.run]
      split
      · split
        · exact ⟨ways, front, ht, .refl⟩
        next id rest hnext =>
          obtain ⟨ways', front', ht', himproves⟩ := ht.serve hnext
          obtain ⟨ways'', front'', ht'', himproves'⟩ := ih ht'
          exact ⟨ways'', front'', ht'', himproves.trans himproves'⟩
      · exact ⟨ways, front, ht, .refl⟩

end Search

end HeapSentry.Leak
