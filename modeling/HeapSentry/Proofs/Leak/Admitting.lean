import HeapSentry.Proofs.Leak.Flagging

/-!
# Admission

Of the flagged objects of one class name, whatever flags them, the first ones become candidates.
-/

namespace HeapSentry.Leak

open Heap

variable {fs : List Flagged} {s : Survey}

def flaggedOf (className : String) (fs : List Flagged) : Nat := fs.countP (·.className = className)

/-- The flagged objects that have fewer than the limit of their class name before them. -/
def admitted (fs : List Flagged) : List Flagged :=
  (fs.zipIdx.filter fun (f, position) ↦
    flaggedOf f.className (fs.take position) < sameClassLimit).map Prod.fst

theorem flaggedOf_snoc (className : String) (fs : List Flagged) (f : Flagged) :
    flaggedOf className (fs ++ [f]) =
      flaggedOf className fs + if f.className = className then 1 else 0 := by
  simp [flaggedOf, List.countP_append, List.countP_singleton]

/-- Whether an object is admitted depends on what stands before it only. -/
theorem admitted_snoc (fs : List Flagged) (f : Flagged) :
    admitted (fs ++ [f]) =
      admitted fs ++ if flaggedOf f.className fs < sameClassLimit then [f] else [] := by
  have hearlier : ∀ p ∈ fs.zipIdx, (fs ++ [f]).take p.2 = fs.take p.2 := by
    intro p hp
    have hposition : p.2 < fs.length := (List.mem_zipIdx' hp).1
    exact List.take_append_of_le_length (Nat.le_of_lt hposition)
  have hinit : (fs.zipIdx.filter fun p ↦
      flaggedOf p.1.className ((fs ++ [f]).take p.2) < sameClassLimit).map Prod.fst =
      admitted fs := by
    refine congrArg (List.map Prod.fst) (List.filter_congr fun p hp ↦ ?_)
    rw [hearlier p hp]
  rw [admitted, List.zipIdx_append, List.filter_append, List.map_append, hinit]
  congr 1
  split
  next hroom => simp [hroom]
  next hfull => simp [Nat.le_of_not_lt hfull]

/-- So many objects of a class name are admitted as there are, up to the limit. -/
theorem flaggedOf_admitted (className : String) (fs : List Flagged) :
    flaggedOf className (admitted fs) = min (flaggedOf className fs) sameClassLimit := by
  induction fs using List.reverseRecOn with
  | nil => rfl
  | append_singleton fs f ih =>
      rw [admitted_snoc, flaggedOf_snoc]
      by_cases hroom : flaggedOf f.className fs < sameClassLimit
      · rw [if_pos hroom, flaggedOf_snoc, ih]
        by_cases heq : f.className = className
        · rw [heq] at hroom
          rw [if_pos heq]
          omega
        · rw [if_neg heq, Nat.add_zero, Nat.add_zero]
      · rw [if_neg hroom, List.append_nil, ih]
        by_cases heq : f.className = className
        · rw [heq] at hroom
          rw [if_pos heq]
          omega
        · rw [if_neg heq, Nat.add_zero]

/-- What a survey has listed, of the objects that were flagged so far. -/
structure Survey.Lists (s : Survey) (fs : List Flagged) : Prop where
  accepted : ∀ className, s.accepted.getD className 0 = flaggedOf className (admitted fs)
  candidates : s.candidates.toList = (admitted fs).map Flagged.candidate
  bigObjects : s.bigObjects.toList = (admitted fs).filterMap Flagged.bigObject?

namespace Survey

variable {id : ObjectId} {className : String} {flag : Flag}

theorem accept_of_le (h : sameClassLimit ≤ s.accepted.getD className 0) :
    s.accept id className flag = s := if_pos h

theorem accept_of_lt (h : s.accepted.getD className 0 < sameClassLimit) :
    s.accept id className flag = { s with
      accepted := s.accepted.insert className (s.accepted.getD className 0 + 1)
      candidates := s.candidates.push ⟨id, className, flag.reason⟩
      bigObjects := match flag.size with
        | none => s.bigObjects
        | some size => s.bigObjects.push ⟨className, size, id.untagged, flag.detail⟩ } :=
  if_neg (Nat.not_le_of_lt h)

theorem lists_empty : Lists {} [] := by
  refine ⟨fun className ↦ ?_, rfl, rfl⟩
  exact Std.HashMap.getD_empty

namespace Lists

theorem accept_of_full (h : s.Lists fs) {f : Flagged}
    (hfull : sameClassLimit ≤ flaggedOf f.className fs) :
    (s.accept f.object f.className f.flag).Lists (fs ++ [f]) := by
  have haccepted : sameClassLimit ≤ s.accepted.getD f.className 0 := by
    rw [h.accepted, flaggedOf_admitted]
    omega
  have hadmitted : admitted (fs ++ [f]) = admitted fs := by
    rw [admitted_snoc, if_neg (Nat.not_lt_of_le hfull), List.append_nil]
  rw [accept_of_le haccepted]
  exact ⟨hadmitted ▸ h.accepted, hadmitted ▸ h.candidates, hadmitted ▸ h.bigObjects⟩

theorem accept_of_room (h : s.Lists fs) {f : Flagged}
    (hroom : flaggedOf f.className fs < sameClassLimit) :
    (s.accept f.object f.className f.flag).Lists (fs ++ [f]) := by
  have haccepted : s.accepted.getD f.className 0 < sameClassLimit := by
    rw [h.accepted, flaggedOf_admitted]
    omega
  have hadmitted : admitted (fs ++ [f]) = admitted fs ++ [f] := by
    rw [admitted_snoc, if_pos hroom]
  rw [accept_of_lt haccepted]
  refine ⟨fun className ↦ ?_, ?_, ?_⟩
  · rw [Std.HashMap.getD_insert, hadmitted, flaggedOf_snoc]
    by_cases heq : f.className = className
    · subst heq
      rw [if_pos (beq_self_eq_true _), if_pos rfl, h.accepted]
    · simp only [beq_iff_eq, heq, if_false, Nat.add_zero, h.accepted]
  · rw [hadmitted, List.map_append, Array.toList_push, h.candidates]
    rfl
  · rw [hadmitted, List.filterMap_append, ← h.bigObjects]
    cases hsize : f.flag.size with
    | none => simp [Flagged.bigObject?, hsize]
    | some size => simp [Flagged.bigObject?, hsize, untagged_eq]

theorem accept (h : s.Lists fs) (f : Flagged) :
    (s.accept f.object f.className f.flag).Lists (fs ++ [f]) := by
  by_cases hroom : flaggedOf f.className fs < sameClassLimit
  · exact h.accept_of_room hroom
  · exact h.accept_of_full (Nat.le_of_not_lt hroom)

theorem acceptIf (h : s.Lists fs) (id : ObjectId) (className : String) (flag : Option Flag) :
    (s.acceptIf id className flag).Lists (fs ++ (flag.map (⟨id, className, ·⟩)).toList) := by
  cases flag with
  | none => exact (List.append_nil fs).symm ▸ h
  | some flag => exact h.accept ⟨id, className, flag⟩

/-- A pass over arrays lists those that are flagged. -/
theorem foldl {α : Type} (h : s.Lists fs) (visit : Survey → α → Survey)
    (flagged? : α → Option Flagged)
    (hvisit : ∀ fs s a, s.Lists fs → (visit s a).Lists (fs ++ (flagged? a).toList))
    (as : List α) :
    (as.foldl visit s).Lists (fs ++ as.filterMap flagged?) := by
  induction as generalizing s fs with
  | nil => simpa using h
  | cons a as ih =>
      have hrest := ih (hvisit fs s a h)
      cases hflag : flagged? a <;> simpa [hflag] using hrest

end Lists

end Survey

end HeapSentry.Leak
