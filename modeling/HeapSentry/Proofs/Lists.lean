import Mathlib.Algebra.Ring.Nat
import Mathlib.Algebra.BigOperators.Group.List.Basic
import Mathlib.Data.List.Forall2
import Mathlib.Data.List.Induction
import Mathlib.Data.List.Perm.Basic

/-!
# Lists that grow at their end

Also lists that correspond element by element, and sums over lists of which one element changes.
-/

namespace HeapSentry

variable {α β : Type}

theorem filterMap_snoc (f : α → Option β) (as : List α) (a : α) :
    (as ++ [a]).filterMap f = as.filterMap f ++ (f a).toList := by
  cases h : f a <;> simp [h]

theorem mem_snoc {as : List α} {a b : α} : b ∈ as ++ [a] ↔ b ∈ as ∨ b = a := by
  rw [List.mem_append, List.mem_singleton]

theorem mem_filterMap_snoc {f : α → Option β} {as : List α} {a : α} {b : β} :
    b ∈ (as ++ [a]).filterMap f ↔ b ∈ as.filterMap f ∨ f a = some b := by
  rw [filterMap_snoc, List.mem_append, Option.mem_toList]

theorem count_filterMap_snoc [DecidableEq β] {f : α → Option β} (as : List α) (a : α) (b : β) :
    ((as ++ [a]).filterMap f).count b =
      (as.filterMap f).count b + if f a = some b then 1 else 0 := by
  rw [filterMap_snoc, List.count_append]
  cases h : f a with
  | none => simp
  | some b' => simp [List.count_singleton, beq_iff_eq]

theorem filterMap_range_getElem? (f : α → Option β) (as : List α) :
    (List.range as.length).filterMap (fun position ↦ as[position]?.bind f) = as.filterMap f := by
  induction as using List.reverseRecOn with
  | nil => rfl
  | append_singleton as a ih =>
      have hearlier : ∀ position ∈ List.range as.length,
          (as ++ [a])[position]?.bind f = as[position]?.bind f := by
        intro position hposition
        rw [List.getElem?_append_left (List.mem_range.1 hposition)]
      rw [List.length_append, List.length_singleton, List.range_succ, List.filterMap_append,
        List.filterMap_congr hearlier, ih, List.filterMap_append]
      simp [List.filterMap_cons]

/-- A repetition adds nothing to the distinct elements. -/
theorem eraseDups_snoc [DecidableEq α] (as : List α) (a : α) :
    (as ++ [a]).eraseDups = if a ∈ as then as.eraseDups else as.eraseDups ++ [a] := by
  rw [List.eraseDups_append]
  split
  next hmem => simp [List.removeAll, hmem]
  next hnew => simp [List.removeAll, hnew, List.eraseDups_cons]

theorem nodup_eraseDups [DecidableEq α] (as : List α) : as.eraseDups.Nodup := by
  induction as using List.reverseRecOn with
  | nil => exact List.nodup_nil
  | append_singleton as a ih =>
      rw [eraseDups_snoc]
      split
      next => exact ih
      next hnew =>
        refine List.nodup_append.2 ⟨ih, List.pairwise_singleton _ a, ?_⟩
        intro b hb c hc heq
        obtain rfl := List.mem_singleton.1 hc
        exact hnew (List.mem_eraseDups.1 (heq ▸ hb))

theorem getElem?_snoc_eq_some_iff {as : List α} {a b : α} {position : Nat} :
    (as ++ [a])[position]? = some b ↔
      as[position]? = some b ∨ position = as.length ∧ a = b := by
  rcases Nat.lt_trichotomy position as.length with hlt | rfl | hgt
  · simp [List.getElem?_append_left hlt, Nat.ne_of_lt hlt]
  · simp
  · have hlong : (as ++ [a]).length ≤ position := by
      rw [List.length_append, List.length_singleton]
      exact hgt
    rw [List.getElem?_eq_none hlong, List.getElem?_eq_none (Nat.le_of_lt hgt)]
    simp [Nat.ne_of_gt hgt]

theorem getElem?_set_eq_some {as : List α} {position other : Nat} {new a : α}
    (h : (as.set position new)[other]? = some a) :
    (position = other ∧ new = a) ∨ (position ≠ other ∧ as[other]? = some a) := by
  by_cases heq : position = other
  · subst heq
    have hlt : position < (as.set position new).length := (List.getElem?_eq_some_iff.1 h).1
    rw [List.length_set] at hlt
    rw [List.getElem?_set_self hlt] at h
    exact .inl ⟨rfl, Option.some.inj h⟩
  · rw [List.getElem?_set_ne heq] at h
    exact .inr ⟨heq, h⟩

theorem getElem?_set_self_of_some {as : List α} {position : Nat} {old : α}
    (h : as[position]? = some old) (new : α) : (as.set position new)[position]? = some new :=
  List.getElem?_set_self (List.getElem?_eq_some_iff.1 h).1

theorem set_eq_self_of_some {as : List α} {position : Nat} {a : α}
    (h : as[position]? = some a) : as.set position a = as := by
  obtain ⟨hlt, rfl⟩ := List.getElem?_eq_some_iff.1 h
  exact List.set_getElem_self hlt

/-- Where an element stands in a list with one more at its end. -/
theorem snoc_eq_append_cons {as earlier later : List α} {a b : α}
    (h : as ++ [a] = earlier ++ b :: later) :
    (as = earlier ∧ a = b ∧ later = []) ∨
      ∃ before, later = before ++ [a] ∧ as = earlier ++ b :: before := by
  rcases List.eq_nil_or_concat later with rfl | ⟨before, last, rfl⟩
  · obtain ⟨has, ha⟩ := List.append_inj' h rfl
    exact .inl ⟨has, List.singleton_inj.1 ha, rfl⟩
  · rw [List.concat_eq_append, ← List.cons_append, ← List.append_assoc] at h
    obtain ⟨has, ha⟩ := List.append_inj' h rfl
    obtain rfl := List.singleton_inj.1 ha
    exact .inr ⟨before, List.concat_eq_append, has⟩

/-! ## Corresponding lists -/

section Corresponding

variable {R : α → β → Prop} {as : List α} {bs : List β}

/-- Corresponding lists have corresponding first elements of a kind. -/
theorem rel_find? {p : α → Bool} {q : β → Bool} (hpq : ∀ a b, R a b → p a = q b)
    (h : List.Forall₂ R as bs) : Option.Rel R (as.find? p) (bs.find? q) := by
  induction h with
  | nil => exact .none
  | @cons a b as bs hab _ ih =>
      rw [List.find?_cons, List.find?_cons, hpq a b hab]
      cases q b with
      | true => exact .some hab
      | false => exact ih

theorem filterMap_eq_of_forall₂ {γ : Type} {f : α → Option γ} {f' : β → Option γ}
    (hf : ∀ a b, R a b → f a = f' b) (h : List.Forall₂ R as bs) :
    as.filterMap f = bs.filterMap f' := by
  induction h with
  | nil => rfl
  | @cons a b as bs hab _ ih => rw [List.filterMap_cons, List.filterMap_cons, hf a b hab, ih]

theorem exists_of_mem_left {a : α} (h : List.Forall₂ R as bs) (ha : a ∈ as) : ∃ b ∈ bs, R a b := by
  induction h with
  | nil => cases ha
  | @cons a' b as bs hab _ ih =>
      rcases List.mem_cons.1 ha with rfl | ha
      · exact ⟨b, List.mem_cons_self, hab⟩
      · obtain ⟨b', hb', hab'⟩ := ih ha
        exact ⟨b', List.mem_cons_of_mem b hb', hab'⟩

end Corresponding

theorem exists_of_mem_right {R : α → β → Prop} {as : List α} {bs : List β} {b : β}
    (h : List.Forall₂ R as bs) (hb : b ∈ bs) : ∃ a ∈ as, R a b :=
  exists_of_mem_left h.flip hb

/-! ## Sums -/

theorem sum_map_set {f : α → Nat} {as : List α} {position : Nat} {old : α}
    (h : as[position]? = some old) (new : α) :
    ((as.set position new).map f).sum + f old = (as.map f).sum + f new := by
  induction as generalizing position with
  | nil => simp at h
  | cons a as ih =>
      cases position with
      | zero =>
          obtain rfl : a = old := by simpa using h
          simp only [List.set_cons_zero, List.map_cons, List.sum_cons]
          omega
      | succ position =>
          have hrest := ih (by simpa using h : as[position]? = some old)
          simp only [List.set_cons_succ, List.map_cons, List.sum_cons]
          omega

theorem sum_map_eraseIdx {f : α → Nat} {as : List α} {position : Nat} {old : α}
    (h : as[position]? = some old) :
    ((as.eraseIdx position).map f).sum + f old = (as.map f).sum := by
  obtain ⟨hlt, rfl⟩ := List.getElem?_eq_some_iff.1 h
  have hperm := (List.getElem_cons_eraseIdx_perm hlt).map f
  rw [← hperm.sum_eq, List.map_cons, List.sum_cons, Nat.add_comm]

end HeapSentry
