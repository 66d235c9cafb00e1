import Mathlib.Data.List.Forall2
import Mathlib.Data.List.Induction

/-!
# Computations that may fail

A computation in steps gives a result exactly when every step does.
-/

namespace HeapSentry

variable {α β ε : Type}

theorem bind_eq_ok_iff {x : Except ε α} {f : α → Except ε β} {b : β} :
    x >>= f = .ok b ↔ ∃ a, x = .ok a ∧ f a = .ok b := by
  cases x <;> simp [bind, Except.bind]

theorem mapM_eq_ok_iff {f : α → Except ε β} {as : List α} {bs : List β} :
    as.mapM f = .ok bs ↔ List.Forall₂ (fun a b ↦ f a = .ok b) as bs := by
  induction as generalizing bs with
  | nil => simp [pure, Except.pure, eq_comm]
  | cons a as ih =>
      rw [List.mapM_cons, bind_eq_ok_iff, List.forall₂_cons_left_iff]
      simp only [bind_eq_ok_iff, ih, pure, Except.pure, Except.ok.injEq]
      constructor
      · rintro ⟨b, hb, bs', hbs, rfl⟩
        exact ⟨b, bs', hb, hbs, rfl⟩
      · rintro ⟨b, bs', hb, hbs, rfl⟩
        exact ⟨b, hb, bs', hbs, rfl⟩

theorem exists_mapM_eq_ok_iff {f : α → Except ε β} {as : List α} :
    (∃ bs, as.mapM f = .ok bs) ↔ ∀ a ∈ as, ∃ b, f a = .ok b := by
  simp only [mapM_eq_ok_iff]
  induction as with
  | nil => simp
  | cons a as ih =>
      rw [List.forall_mem_cons, ← ih]
      simp only [List.forall₂_cons_left_iff]
      constructor
      · rintro ⟨_, b, bs, hb, hbs, rfl⟩
        exact ⟨⟨b, hb⟩, bs, hbs⟩
      · rintro ⟨⟨b, hb⟩, bs, hbs⟩
        exact ⟨b :: bs, b, bs, hb, hbs, rfl⟩

/-- What holds at the start and is kept by every step holds of a whole pass. -/
theorem foldlM_induction {f : β → α → Except ε β} {P : List α → β → Prop} {b b' : β}
    (hstart : P [] b) (hstep : ∀ as a b b', P as b → f b a = .ok b' → P (as ++ [a]) b')
    {as : List α} (h : as.foldlM f b = .ok b') : P as b' := by
  induction as using List.reverseRecOn generalizing b' with
  | nil =>
      cases h
      exact hstart
  | append_singleton as a ih =>
      rw [List.foldlM_append] at h
      obtain ⟨mid, hmid, hlast⟩ := bind_eq_ok_iff.1 h
      rw [List.foldlM_cons] at hlast
      obtain ⟨_, hlast, hpure⟩ := bind_eq_ok_iff.1 hlast
      cases hpure
      exact hstep as a mid b' (ih hmid) hlast

/-! ## Errors

The error of a computation is the one of the first step that fails.
-/

def errorOf? : Except ε α → Option ε
  | .ok _ => none
  | .error e => some e

theorem errorOf?_eq_some_iff {x : Except ε α} {e : ε} : errorOf? x = some e ↔ x = .error e := by
  cases x <;> simp [errorOf?]

theorem errorOf?_eq_none_iff {x : Except ε α} : errorOf? x = none ↔ ∃ a, x = .ok a := by
  cases x <;> simp [errorOf?]

theorem errorOf?_bind {x : Except ε α} {f : α → Except ε β} {next : Option ε}
    (h : ∀ a, x = .ok a → errorOf? (f a) = next) :
    errorOf? (x >>= f) = (errorOf? x).or next := by
  cases x with
  | error e => rfl
  | ok a => exact h a rfl

theorem errorOf?_bind_ok {x : Except ε α} {f : α → β} :
    errorOf? (x >>= fun a ↦ .ok (f a)) = errorOf? x := by
  cases x <;> rfl

theorem errorOf?_mapM (f : α → Except ε β) (as : List α) :
    errorOf? (as.mapM f) = as.findSome? fun a ↦ errorOf? (f a) := by
  induction as with
  | nil => rfl
  | cons a as ih =>
      have hrest : ∀ b, errorOf? (as.mapM f >>= fun bs ↦ pure (b :: bs)) =
          as.findSome? fun a ↦ errorOf? (f a) := fun b ↦ errorOf?_bind_ok.trans ih
      rw [List.mapM_cons, errorOf?_bind fun b _ ↦ hrest b, List.findSome?_cons]
      cases errorOf? (f a) <;> rfl

/-- If a step fails for the sake of its element alone, so does a whole pass. -/
theorem errorOf?_foldlM {f : β → α → Except ε β} {Inv : β → Prop} {fault? : α → Option ε}
    (hfault : ∀ b a, Inv b → errorOf? (f b a) = fault? a)
    (hkeeps : ∀ b a b', Inv b → f b a = .ok b' → Inv b') {b : β} (hb : Inv b) (as : List α) :
    errorOf? (as.foldlM f b) = as.findSome? fault? := by
  induction as generalizing b with
  | nil => rfl
  | cons a as ih =>
      have hrest : ∀ b', f b a = .ok b' → errorOf? (as.foldlM f b') = as.findSome? fault? := by
        intro b' hb'
        exact ih (hkeeps b a b' hb hb')
      rw [List.foldlM_cons, errorOf?_bind hrest, hfault b a hb, List.findSome?_cons]
      cases fault? a <;> rfl

end HeapSentry
