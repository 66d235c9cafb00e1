import HeapSentry.Proofs.Leak.Classifying

/-!
# What instances must have

Activities and bitmaps must have the fields that their rules read, and every instance must have a
known class.  A classification fails for the first instance that lacks something, with the fault of
the first thing that it lacks.  Nothing else makes it fail.
-/

namespace HeapSentry.Leak

open Heap

variable {g : Graph} {limits : Settings.Analysis} {s : Survey} {i : Instance}

/-- A field of some type that is declared by a class of some name. -/
structure Demand where
  className : String
  name : String
  typeName : String
  deriving DecidableEq, Repr

/-- What instances of a family must have, in the order in which it is asked for. -/
def demands : Family → List Demand
  | .activity =>
    [⟨activityClassName, "mDestroyed", "boolean"⟩, ⟨activityClassName, "mFinished", "boolean"⟩]
  | .bitmap => [⟨bitmapClassName, "mWidth", "int"⟩, ⟨bitmapClassName, "mHeight", "int"⟩]
  | .fragment | .tallyOnly | .other => []

namespace Demand

/-- Whether a field is the one that is meant, whatever its type. -/
def Means (g : Graph) (d : Demand) (f : Field) : Prop :=
  f.name = d.name ∧ ∃ c ∈ g.class? f.declaringClass, c.name = d.className

instance (g : Graph) (d : Demand) : DecidablePred (d.Means g) :=
  fun _ ↦ inferInstanceAs (Decidable (_ ∧ _))

/-- How an instance fails a demand.  Of several fields that could be meant only the first counts. -/
def fault? (g : Graph) (i : Instance) (d : Demand) : Option Fault :=
  match i.fields.find? (d.Means g) with
  | none => some (.missingField i.id d.className d.name)
  | some f =>
    if f.value.typeName = d.typeName then none
    else some (.fieldType d.className d.name d.typeName f.value.typeName)

end Demand

/-- What is wrong with an instance.  Nothing is asked of one that boxes a primitive value. -/
def instanceFault? (g : Graph) (i : Instance) : Option Fault :=
  match g.class? i.classId with
  | none => some (.unknownObject i.classId)
  | some c =>
    if isPrimitiveWrapper c.name then none
    else (demands (instanceFamily g i)).findSome? (Demand.fault? g i)

/-! ## Reading one field -/

theorem declares_eq (g : Graph) (d : Demand) :
    g.declares d.className d.name = fun f ↦ decide (d.Means g f) := by
  funext f
  rw [Bool.eq_iff_iff, decide_eq_true_iff]
  simp [Graph.declares, Demand.Means, Option.any_eq_true]

/-- A reader that turns down the values of all other types fails exactly where its demand is
not met. -/
theorem errorOf?_read {α : Type} {d : Demand} {check : FieldValue → Except Fault α}
    (hcheck : ∀ value, errorOf? (check value) = if value.typeName = d.typeName then none
      else some (.fieldType d.className d.name d.typeName value.typeName)) :
    errorOf? (g.field i d.className d.name >>= check) = d.fault? g i := by
  rw [Graph.field, declares_eq, Demand.fault?]
  cases i.fields.find? (d.Means g) with
  | none => rfl
  | some f => exact hcheck f.value

theorem errorOf?_boolField (g : Graph) (i : Instance) (className name : String) :
    errorOf? (g.boolField i className name) = Demand.fault? g i ⟨className, name, "boolean"⟩ := by
  apply errorOf?_read (d := ⟨className, name, "boolean"⟩)
  intro value
  cases value <;> rfl

theorem errorOf?_intField (g : Graph) (i : Instance) (className name : String) :
    errorOf? (g.intField i className name) = Demand.fault? g i ⟨className, name, "int"⟩ := by
  apply errorOf?_read (d := ⟨className, name, "int"⟩)
  intro value
  cases value <;> rfl

/-! ## The rules and the pass -/

/-- The first of two demands is asked for first. -/
theorem errorOf?_both {α β γ : Type} {d e : Demand} {x : Except Fault α} {y : Except Fault β}
    {f : α → β → γ} (hx : errorOf? x = d.fault? g i) (hy : errorOf? y = e.fault? g i) :
    errorOf? (x >>= fun a ↦ y >>= fun b ↦ .ok (f a b)) = [d, e].findSome? (Demand.fault? g i) := by
  have hrest : ∀ a, errorOf? (y >>= fun b ↦ .ok (f a b)) = e.fault? g i :=
    fun a ↦ errorOf?_bind_ok.trans hy
  rw [errorOf?_bind fun a _ ↦ hrest a, hx]
  cases hd : d.fault? g i with
  | none => cases he : e.fault? g i <;> simp [hd, he]
  | some fault => simp [hd]

theorem errorOf?_instanceFlag (g : Graph) (limits : Settings.Analysis) (m : Markers) (i : Instance)
    (family : Family) : errorOf? (instanceFlag g limits m i family) =
      (demands family).findSome? (Demand.fault? g i) := by
  cases family with
  | activity => exact errorOf?_both (errorOf?_boolField ..) (errorOf?_boolField ..)
  | bitmap => exact errorOf?_both (errorOf?_intField ..) (errorOf?_intField ..)
  | fragment => rfl
  | tallyOnly => rfl
  | other => rfl

namespace Survey

theorem errorOf?_visitInstance (h : s.Knows g) (limits : Settings.Analysis) (i : Instance) :
    errorOf? (s.visitInstance g limits (.ofGraph g) i) = instanceFault? g i := by
  have hfamily : (s.familyOf g (.ofGraph g) i.classId).1 = instanceFamily g i :=
    (h.familyOf i.classId).1
  unfold visitInstance instanceFault?
  cases g.class? i.classId with
  | none => rfl
  | some c =>
      by_cases hwrapper : isPrimitiveWrapper c.name
      · simp only [if_pos hwrapper]
        rfl
      · simp only [if_neg hwrapper]
        rw [← hfamily, ← errorOf?_instanceFlag g limits (.ofGraph g)]
        exact errorOf?_bind_ok

theorem Knows.visitInstance (h : s.Knows g) {s' : Survey}
    (hvisit : s.visitInstance g limits (.ofGraph g) i = .ok s') : s'.Knows g := by
  rcases visitInstance_cases hvisit with ⟨-, rfl⟩ | ⟨c, flag, -, -, rfl⟩
  · exact h
  · have hknows := (h.familyOf i.classId).2
    apply Knows.acceptIf
    split
    · exact hknows
    · exact hknows.tally i.classId flag.isSome

end Survey

theorem errorOf?_classify (g : Graph) (limits : Settings.Analysis) :
    errorOf? (classify g limits) = g.instances.findSome? (instanceFault? g) := by
  have hempty : Survey.Knows {} g :=
    (Survey.covers_empty : Survey.Covers {} g limits []).knows
  have hfault : ∀ s i, Survey.Knows s g →
      errorOf? (s.visitInstance g limits (.ofGraph g) i) = instanceFault? g i :=
    fun s i hs ↦ Survey.errorOf?_visitInstance hs limits i
  have hpass : errorOf? (g.instances.foldlM (Survey.visitInstance g limits (.ofGraph g)) {}) =
      g.instances.findSome? (instanceFault? g) :=
    errorOf?_foldlM hfault (fun s i s' hs hvisit ↦ hs.visitInstance hvisit) hempty g.instances
  exact errorOf?_bind_ok.trans hpass

/-- A classification fails exactly if something is wrong with an instance, and with what is wrong
with the first such one.  Nothing is asked of the fields of most instances, fragments among them,
and nothing at all of arrays. -/
theorem classify_fails_iff (g : Graph) (limits : Settings.Analysis) :
    (∀ fault, classify g limits = .error fault ↔
      ∃ before i after, g.instances = before ++ i :: after ∧
        (∀ other ∈ before, instanceFault? g other = none) ∧ instanceFault? g i = some fault) ∧
      ((∃ c, classify g limits = .ok c) ↔ ∀ i ∈ g.instances, instanceFault? g i = none) ∧
      ∀ i c, g.class? i.classId = some c →
        instanceFamily g i ≠ .activity → instanceFamily g i ≠ .bitmap →
          instanceFault? g i = none := by
  refine ⟨fun fault ↦ ?_, ?_, fun i c hc hactivity hbitmap ↦ ?_⟩
  · rw [← errorOf?_eq_some_iff, errorOf?_classify, List.findSome?_eq_some_iff]
    constructor
    · rintro ⟨before, i, after, heq, hi, hbefore⟩
      exact ⟨before, i, after, heq, hbefore, hi⟩
    · rintro ⟨before, i, after, heq, hbefore, hi⟩
      exact ⟨before, i, after, heq, hi, hbefore⟩
  · rw [← errorOf?_eq_none_iff, errorOf?_classify, List.findSome?_eq_none_iff]
  · have hnone : demands (instanceFamily g i) = [] := by
      cases hfamily : instanceFamily g i <;> simp_all [demands]
    simp [instanceFault?, hc, hnone]

end HeapSentry.Leak
