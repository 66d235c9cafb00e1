import HeapSentry.Proofs.Leak.Flagging
import HeapSentry.Proofs.Lists

/-!
# Tallies

Each class of a watched family that has an instance gets one tally, in order of the first instances.
A tally counts all leaks of its class, also those that are too many to become candidates.
-/

namespace HeapSentry.Leak

open Heap

/-- An instance of a class that is counted, and whether it leaks. -/
structure Sighting where
  classId : ObjectId
  leaking : Bool

variable {g : Graph} {s : Survey} {seen : List Sighting}

def sighting? (g : Graph) (limits : Settings.Analysis) (i : Instance) : Option Sighting :=
  let family := instanceFamily g i
  if (watchedClass? g i).isSome ∧ family ≠ .other then
    some ⟨i.classId, (flagOf g limits i family).isSome⟩
  else none

def tallyOf (g : Graph) (seen : List Sighting) (classId : ObjectId) : Tally where
  className := classNameOr "" g classId
  instances := seen.countP (·.classId = classId)
  leaks := seen.countP fun sighting ↦ sighting.classId = classId ∧ sighting.leaking

/-- The classes that were seen, in order of their first instances. -/
def seenClasses (seen : List Sighting) : List ObjectId := (seen.map Sighting.classId).eraseDups

/-- One tally for each class that was seen. -/
def talliesOf (g : Graph) (seen : List Sighting) : List Tally :=
  (seenClasses seen).map (tallyOf g seen)

theorem mem_seenClasses {id : ObjectId} :
    id ∈ seenClasses seen ↔ id ∈ seen.map Sighting.classId := List.mem_eraseDups

theorem seenClasses_snoc (seen : List Sighting) (new : Sighting) :
    seenClasses (seen ++ [new]) =
      if new.classId ∈ seenClasses seen then seenClasses seen
      else seenClasses seen ++ [new.classId] := by
  rw [seenClasses, List.map_append, List.map_singleton, eraseDups_snoc]
  simp only [mem_seenClasses]
  rfl

theorem tallyOf_snoc_of_ne {new : Sighting} {id : ObjectId} (h : new.classId ≠ id) :
    tallyOf g (seen ++ [new]) id = tallyOf g seen id := by
  simp [tallyOf, List.countP_append, h]

theorem tallyOf_snoc_self (seen : List Sighting) (new : Sighting) :
    tallyOf g (seen ++ [new]) new.classId = (tallyOf g seen new.classId).count new.leaking := by
  cases hleaking : new.leaking <;> simp [tallyOf, List.countP_append, hleaking, Tally.count]

/-- A class that was not seen has nothing to count. -/
theorem tallyOf_of_not_mem {id : ObjectId} (h : id ∉ seenClasses seen) :
    tallyOf g seen id = ⟨classNameOr "" g id, 0, 0⟩ := by
  have hother : ∀ sighting ∈ seen, sighting.classId ≠ id := by
    rintro sighting hmem rfl
    exact h (mem_seenClasses.2 (List.mem_map_of_mem hmem))
  simp only [tallyOf, Tally.mk.injEq, true_and, List.countP_eq_zero]
  exact ⟨by simpa using hother, fun sighting hmem ↦ by simp [hother sighting hmem]⟩

/-- What a survey has counted, of the instances that were seen so far. -/
structure Survey.Counts (s : Survey) (g : Graph) (seen : List Sighting) : Prop where
  tallies : s.tallies.toList = talliesOf g seen
  slots : ∀ (id : ObjectId) (slot : Nat),
    s.tallySlots[id]? = some slot ↔ (seenClasses seen)[slot]? = some id

namespace Survey

theorem counts_empty : Counts {} g [] := by
  refine ⟨rfl, fun id slot ↦ ?_⟩
  simp [seenClasses]

namespace Counts

variable (h : s.Counts g seen)

include h

theorem size_tallies : s.tallies.size = (seenClasses seen).length := by
  rw [← Array.length_toList, h.tallies, talliesOf, List.length_map]

theorem mem_seenClasses_iff {id : ObjectId} :
    id ∈ seenClasses seen ↔ ∃ slot, s.tallySlots[id]? = some slot := by
  rw [List.mem_iff_getElem?]
  simp only [h.slots]

/-- A known class has its tally changed in place. -/
theorem tally_of_slot {new : Sighting} {slot : Nat}
    (hslot : s.tallySlots[new.classId]? = some slot) :
    (s.tally g new.classId new.leaking).Counts g (seen ++ [new]) := by
  have hclass := (h.slots _ _).1 hslot
  have hseen : seenClasses (seen ++ [new]) = seenClasses seen := by
    rw [seenClasses_snoc, if_pos (List.mem_of_getElem? hclass)]
  have hsurvey : s.tally g new.classId new.leaking =
      { s with tallies := s.tallies.modify slot (·.count new.leaking) } := by
    simp [tally, hslot]
  rw [hsurvey]
  refine ⟨?_, fun id slot' ↦ by rw [hseen]; exact h.slots id slot'⟩
  rw [Array.toList_modify, h.tallies, talliesOf, talliesOf, hseen]
  refine List.ext_getElem? fun position ↦ ?_
  rw [List.getElem?_modify, List.getElem?_map, List.getElem?_map]
  cases hid : (seenClasses seen)[position]? with
  | none => rfl
  | some id =>
      by_cases heq : slot = position
      · obtain rfl : new.classId = id := Option.some.inj (hclass.symm.trans (heq ▸ hid))
        simp [heq, tallyOf_snoc_self]
      · have hne : new.classId ≠ id := by
          rintro rfl
          have hlength : slot < (seenClasses seen).length := (List.getElem?_eq_some_iff.1 hclass).1
          exact heq ((List.getElem?_inj hlength (nodup_eraseDups _)).1 (hclass.trans hid.symm))
        simp [heq, tallyOf_snoc_of_ne hne]

/-- A new class gets the last tally. -/
theorem tally_of_new {new : Sighting} (hslot : s.tallySlots[new.classId]? = none) :
    (s.tally g new.classId new.leaking).Counts g (seen ++ [new]) := by
  have hnew : new.classId ∉ seenClasses seen := by
    rw [h.mem_seenClasses_iff]
    simp [hslot]
  have hseen : seenClasses (seen ++ [new]) = seenClasses seen ++ [new.classId] := by
    rw [seenClasses_snoc, if_neg hnew]
  have hsurvey : s.tally g new.classId new.leaking =
      { s with
        tallySlots := s.tallySlots.insert new.classId s.tallies.size
        tallies := s.tallies.push ((tallyOf g seen new.classId).count new.leaking) } := by
    simp [tally, hslot, tallyOf_of_not_mem hnew]
  rw [hsurvey]
  constructor
  · have hold : ∀ id ∈ seenClasses seen, tallyOf g (seen ++ [new]) id = tallyOf g seen id := by
      intro id hid
      have hne : new.classId ≠ id := by
        rintro rfl
        exact hnew hid
      exact tallyOf_snoc_of_ne hne
    rw [Array.toList_push, h.tallies, talliesOf, talliesOf, hseen, List.map_append,
      List.map_singleton, tallyOf_snoc_self, List.map_congr_left hold]
  · intro id slot
    rw [Std.HashMap.getElem?_insert, hseen, h.size_tallies]
    rw [getElem?_snoc_eq_some_iff, ← h.slots]
    by_cases heq : new.classId = id
    · subst heq
      simp [hslot, eq_comm]
    · simp [heq]

theorem tally (new : Sighting) :
    (s.tally g new.classId new.leaking).Counts g (seen ++ [new]) := by
  cases hslot : s.tallySlots[new.classId]? with
  | none => exact h.tally_of_new hslot
  | some slot => exact h.tally_of_slot hslot

end Counts

end Survey

end HeapSentry.Leak
