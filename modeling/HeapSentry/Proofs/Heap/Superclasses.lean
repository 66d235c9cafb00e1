import HeapSentry.Proofs.Heap.Building
import Mathlib.Data.List.Nodup
import Mathlib.Data.List.Perm.Subperm

/-!
# Chains of superclasses

The chain of a class follows the superclass links for as long as they lead to a class that is not in
it yet.  Links may dangle or run in circles.  Where a chain meets a class whose own chain ends at a
link that leads nowhere, both go on alike.
-/

namespace HeapSentry.Heap.Graph

variable {g : Graph} {id : Option ObjectId} {c : Class} {cs ds chain : List Class}

/-! ## Linked classes -/

/-- Whether the first of some classes is found under an id, and each other one as the superclass of
the one before it. -/
def IsLinked (g : Graph) : Option ObjectId → List Class → Prop
  | _, [] => True
  | id, c :: cs => id.bind g.class? = some c ∧ g.IsLinked c.superclass cs

/-- Where linked classes lead: to the superclass of the last one. -/
def beyond : Option ObjectId → List Class → Option ObjectId
  | id, [] => id
  | _, c :: cs => beyond c.superclass cs

def EndsOpen (g : Graph) (id : Option ObjectId) (cs : List Class) : Prop :=
  (beyond id cs).bind g.class? = none

theorem beyond_append (id : Option ObjectId) (cs ds : List Class) :
    beyond id (cs ++ ds) = beyond (beyond id cs) ds := by
  induction cs generalizing id with
  | nil => rfl
  | cons c cs ih => exact ih c.superclass

theorem isLinked_append :
    g.IsLinked id (cs ++ ds) ↔ g.IsLinked id cs ∧ g.IsLinked (beyond id cs) ds := by
  induction cs generalizing id with
  | nil => simp [IsLinked, beyond]
  | cons c cs ih => simp [IsLinked, beyond, ih, and_assoc]

theorem beyond_append_cons (id : Option ObjectId) (cs : List Class) (c : Class) (ds : List Class) :
    beyond id (cs ++ c :: ds) = beyond c.superclass ds :=
  beyond_append id cs (c :: ds)

theorem IsLinked.of_append_cons (h : g.IsLinked id (cs ++ c :: ds)) :
    g.IsLinked c.superclass ds :=
  (isLinked_append.1 h).2.2

theorem IsLinked.snoc (h : g.IsLinked id cs) (hnext : (beyond id cs).bind g.class? = some c) :
    g.IsLinked id (cs ++ [c]) :=
  isLinked_append.2 ⟨h, hnext, trivial⟩

theorem IsLinked.exists_class? (h : g.IsLinked id cs) (hc : c ∈ cs) :
    ∃ id, g.class? id = some c := by
  induction cs generalizing id with
  | nil => simp at hc
  | cons c' cs ih =>
      obtain ⟨hfirst, hrest⟩ := h
      rcases List.mem_cons.1 hc with rfl | hc
      · obtain ⟨id', -, hclass⟩ := Option.bind_eq_some_iff.1 hfirst
        exact ⟨id', hclass⟩
      · exact ih hrest hc

theorem IsLinked.class?_id (h : g.IsLinked id cs) (hg : g.IsLabelled) (hc : c ∈ cs) :
    g.class? c.id = some c := by
  obtain ⟨id', hclass⟩ := h.exists_class? hc
  rwa [hg.id_of_class? hclass]

theorem any_id_eq_true : cs.any (·.id == c.id) = true ↔ c.id ∈ cs.map Class.id := by
  simp

theorem IsLinked.mem_of_id_mem (h : g.IsLinked id cs) (hg : g.IsLabelled)
    (hclass : g.class? c.id = some c) (hmem : c.id ∈ cs.map Class.id) : c ∈ cs := by
  obtain ⟨c', hc', heq⟩ := List.mem_map.1 hmem
  have hclass' := h.class?_id hg hc'
  rw [heq, hclass] at hclass'
  exact Option.some.inj hclass' ▸ hc'

theorem IsLinked.any_id (h : g.IsLinked id cs) (hg : g.IsLabelled)
    (hclass : g.class? c.id = some c) : cs.any (·.id == c.id) = true ↔ c ∈ cs := by
  rw [any_id_eq_true]
  exact ⟨h.mem_of_id_mem hg hclass, List.mem_map_of_mem⟩

/-- Links leave no choice: of two lists of linked classes from one id on, the shorter one is the
first part of the other. -/
theorem IsLinked.isPrefix_or (hcs : g.IsLinked id cs) (hds : g.IsLinked id ds) :
    cs <+: ds ∨ ds <+: cs := by
  induction cs generalizing id ds with
  | nil => exact .inl List.nil_prefix
  | cons c cs ih =>
      cases ds with
      | nil => exact .inr List.nil_prefix
      | cons d ds =>
          obtain ⟨hfirst, hrest⟩ := hcs
          obtain ⟨hfirst', hrest'⟩ := hds
          obtain rfl := Option.some.inj (hfirst.symm.trans hfirst')
          rw [List.cons_prefix_cons, List.cons_prefix_cons]
          exact (ih hrest hrest').imp (⟨rfl, ·⟩) (⟨rfl, ·⟩)

/-- Where linked classes can only be followed by some class that is not in the list, all other ones
from the same id on are the first of them. -/
theorem IsLinked.isPrefix_of (hcs : g.IsLinked id cs) (hds : g.IsLinked id ds)
    (hend : ∀ c rest, (beyond id ds).bind g.class? = some c → cs ≠ ds ++ c :: rest) :
    cs <+: ds := by
  rcases hcs.isPrefix_or hds with hprefix | ⟨rest, rfl⟩
  · exact hprefix
  · cases rest with
    | nil => simp
    | cons c rest => exact absurd rfl (hend c rest (isLinked_append.1 hcs).2.1)

/-- If linked classes lead nowhere, all other ones from the same id on are the first of them. -/
theorem IsLinked.isPrefix (hcs : g.IsLinked id cs) (hds : g.IsLinked id ds)
    (hopen : g.EndsOpen id ds) : cs <+: ds :=
  hcs.isPrefix_of hds fun c rest hnext ↦ by
    rw [hopen] at hnext
    cases hnext

theorem ofClass_mem_objects {id : ObjectId} (h : g.class? id = some c) :
    .ofClass c ∈ g.objects := by
  obtain ⟨o, hobject, hkind⟩ := Option.bind_eq_some_iff.1 h
  obtain ⟨slot, -, hslot⟩ := Option.bind_eq_some_iff.1 hobject
  cases o with
  | ofClass c' =>
      obtain rfl := Option.some.inj hkind
      exact Array.mem_of_getElem? hslot
  | _ => cases hkind

theorem IsLinked.length_le_size (h : g.IsLinked id cs) (hnodup : cs.Nodup) :
    cs.length ≤ g.size := by
  have hobjects : (cs.map Object.ofClass).Nodup :=
    List.Nodup.map (fun _ _ heq ↦ Object.ofClass.inj heq) hnodup
  have hsubset : cs.map Object.ofClass ⊆ g.objects.toList := by
    intro o ho
    obtain ⟨c, hc, rfl⟩ := List.mem_map.1 ho
    obtain ⟨id', hclass⟩ := h.exists_class? hc
    exact Array.mem_toList_iff.2 (ofClass_mem_objects hclass)
  have hlength := (hobjects.subperm hsubset).length_le
  rwa [List.length_map, Array.length_toList] at hlength

/-! ## The chain of a class -/

/-- The longest list of linked classes in which no id occurs twice. -/
structure IsLongestChain (g : Graph) (id : Option ObjectId) (chain : List Class) : Prop where
  linked : g.IsLinked id chain
  nodup_ids : (chain.map Class.id).Nodup
  stops : ∀ c, (beyond id chain).bind g.class? = some c → c.id ∈ chain.map Class.id

/-- The longest list of linked classes in which none occurs twice. -/
structure IsSuperclassChain (g : Graph) (id : Option ObjectId) (chain : List Class) : Prop where
  linked : g.IsLinked id chain
  nodup : chain.Nodup
  maximal : ∀ c, (beyond id chain).bind g.class? = some c → c ∈ chain

theorem nodup_ids_concat (hnodup : (cs.map Class.id).Nodup) (hnew : c.id ∉ cs.map Class.id) :
    ((cs ++ [c]).map Class.id).Nodup := by
  rw [List.map_append, List.map_singleton, ← List.concat_eq_append]
  exact hnodup.concat hnew

theorem extendChain_succ (fuel : Nat) (chain : List Class) (id : Option ObjectId) :
    g.extendChain (fuel + 1) chain id = match id.bind g.class? with
      | none => chain
      | some c =>
        if chain.any (·.id == c.id) then chain
        else g.extendChain fuel (chain ++ [c]) c.superclass := by
  cases id <;> rfl

theorem isPrefix_extendChain (g : Graph) (fuel : Nat) (chain : List Class)
    (id : Option ObjectId) : chain <+: g.extendChain fuel chain id := by
  induction fuel generalizing chain id with
  | zero => exact List.prefix_refl chain
  | succ fuel ih =>
      rw [extendChain_succ]
      split
      · exact List.prefix_refl chain
      next c _ =>
        split
        · exact List.prefix_refl chain
        · exact (List.prefix_append chain [c]).trans (ih (chain ++ [c]) c.superclass)

/-- With less fuel a chain stops earlier, and with more it goes on alike. -/
theorem extendChain_eq_take {few fuel : Nat} (hle : few ≤ fuel) (chain : List Class)
    (id : Option ObjectId) :
    g.extendChain few chain id = (g.extendChain fuel chain id).take (chain.length + few) := by
  induction few generalizing fuel chain id with
  | zero => exact List.prefix_iff_eq_take.1 (isPrefix_extendChain g fuel chain id)
  | succ few ih =>
      obtain ⟨fuel, rfl⟩ := Nat.exists_eq_add_of_le' hle
      have htake : chain = chain.take (chain.length + (few + 1)) :=
        (List.take_of_length_le (Nat.le_add_right _ _)).symm
      rw [extendChain_succ, ← Nat.add_assoc fuel few 1, extendChain_succ]
      split
      · exact htake
      next c _ =>
        split
        · exact htake
        · rw [ih (Nat.le_add_left few fuel), List.length_append, List.length_singleton,
            Nat.add_assoc, Nat.add_comm 1 few]

/-- A chain grows by one class for each unit of fuel until it cannot go on. -/
theorem extendChain_grows (hlinked : g.IsLinked id chain) (hnodup : (chain.map Class.id).Nodup)
    (fuel : Nat) :
    let cs := g.extendChain fuel chain (beyond id chain)
    g.IsLinked id cs ∧ (cs.map Class.id).Nodup ∧
      (cs.length = chain.length + fuel ∨
        ∀ c, (beyond id cs).bind g.class? = some c → c.id ∈ cs.map Class.id) := by
  induction fuel generalizing chain with
  | zero => exact ⟨hlinked, hnodup, .inl rfl⟩
  | succ fuel ih =>
      rw [extendChain_succ]
      cases hnext : (beyond id chain).bind g.class? with
      | none => exact ⟨hlinked, hnodup, .inr fun c hc ↦ by simp [hnext] at hc⟩
      | some c =>
          dsimp only
          by_cases hmem : c.id ∈ chain.map Class.id
          · rw [if_pos (any_id_eq_true.2 hmem)]
            refine ⟨hlinked, hnodup, .inr fun c' hc' ↦ ?_⟩
            exact Option.some.inj (hnext.symm.trans hc') ▸ hmem
          · rw [if_neg (mt any_id_eq_true.1 hmem)]
            have hlonger := ih (hlinked.snoc hnext) (nodup_ids_concat hnodup hmem)
            rw [beyond_append_cons, List.length_append, List.length_singleton, Nat.add_assoc,
              Nat.add_comm 1 fuel] at hlonger
            exact hlonger

theorem extendChain_nil_grows (g : Graph) (fuel : Nat) (id : ObjectId) :
    let cs := g.extendChain fuel [] (some id)
    g.IsLinked (some id) cs ∧ (cs.map Class.id).Nodup ∧
      (cs.length = fuel ∨
        ∀ c, (beyond (some id) cs).bind g.class? = some c → c.id ∈ cs.map Class.id) := by
  have hnil : g.IsLinked (some id) [] := trivial
  have hgrows := extendChain_grows hnil List.nodup_nil fuel
  rw [List.length_nil, Nat.zero_add] at hgrows
  exact hgrows

theorem isLongestChain (g : Graph) (id : ObjectId) :
    g.IsLongestChain (some id) (g.superclassChain id) := by
  obtain ⟨hlinked, hnodup, hend⟩ := g.extendChain_nil_grows g.size id
  refine ⟨hlinked, hnodup, hend.elim (fun hlength c hnext ↦ ?_) fun hstops ↦ hstops⟩
  -- One more class would be more than there are objects.
  by_contra hnew
  have hlonger := (hlinked.snoc hnext).length_le_size (nodup_ids_concat hnodup hnew).of_map
  rw [List.length_append, List.length_singleton, hlength] at hlonger
  omega

theorem IsLongestChain.isSuperclassChain (hg : g.IsLabelled) (h : g.IsLongestChain id chain) :
    g.IsSuperclassChain id chain where
  linked := h.linked
  nodup := h.nodup_ids.of_map
  maximal := fun c hnext ↦ by
    have hclass := (h.linked.snoc hnext).class?_id hg List.mem_concat_self
    exact h.linked.mem_of_id_mem hg hclass (h.stops c hnext)

theorem isSuperclassChain (hg : g.IsLabelled) (id : ObjectId) :
    g.IsSuperclassChain (some id) (g.superclassChain id) :=
  (g.isLongestChain id).isSuperclassChain hg

theorem IsLongestChain.head?_eq {id : ObjectId} (h : g.IsLongestChain (some id) chain) :
    chain.head? = g.class? id := by
  cases chain with
  | nil =>
      cases hclass : g.class? id with
      | none => rfl
      | some c => exact absurd (h.stops c hclass) List.not_mem_nil
  | cons c chain => exact h.linked.1.symm

theorem head?_superclassChain (g : Graph) (id : ObjectId) :
    (g.superclassChain id).head? = g.class? id :=
  (g.isLongestChain id).head?_eq

/-- No other list of linked classes without repetition goes beyond the longest one. -/
theorem IsLongestChain.isPrefix (h : g.IsLongestChain id chain) (hcs : g.IsLinked id cs)
    (hnodup : (cs.map Class.id).Nodup) : cs <+: chain := by
  refine hcs.isPrefix_of h.linked fun c rest hnext heq ↦ ?_
  rw [heq, List.map_append, List.nodup_append] at hnodup
  exact hnodup.2.2 c.id (h.stops c hnext) c.id (by simp) rfl

theorem extendChain_eq_take_superclassChain (g : Graph) (fuel : Nat) (id : ObjectId) :
    g.extendChain fuel [] (some id) = (g.superclassChain id).take fuel := by
  rcases Nat.le_total fuel g.size with hle | hle
  · simpa [superclassChain] using extendChain_eq_take hle [] (some id)
  · obtain ⟨hlinked, hnodup, -⟩ := g.extendChain_nil_grows fuel id
    have hlength := hlinked.length_le_size hnodup.of_map
    have htake := extendChain_eq_take (g := g) hle [] (some id)
    rw [List.length_nil, Nat.zero_add, List.take_of_length_le hlength] at htake
    rw [superclassChain, htake, List.take_of_length_le (Nat.le_trans hlength hle)]

/-- The chain of a class is the longest one without repetition, whatever the links are like.  It
begins with the class and ends where no class follows or one that has been passed; nothing more is
added, however long one goes on. -/
theorem superclassChain_longest (g : Graph) (id : ObjectId) :
    g.IsLongestChain (some id) (g.superclassChain id) ∧
    (g.superclassChain id = [] ↔ g.class? id = none) ∧
    (g.superclassChain id).head? = g.class? id ∧
    (∀ cs, g.IsLinked (some id) cs → (cs.map Class.id).Nodup → cs <+: g.superclassChain id) ∧
    (g.IsBuilt → ∀ c, (beyond (some id) (g.superclassChain id)).bind g.class? = some c →
      c ∈ g.superclassChain id) ∧
    ∀ rounds, g.extendChain rounds [] (some id) = (g.superclassChain id).take rounds := by
  refine ⟨g.isLongestChain id, ?_, g.head?_superclassChain id,
    fun cs ↦ (g.isLongestChain id).isPrefix,
    fun hg ↦ (isSuperclassChain hg.isLabelled id).maximal,
    fun rounds ↦ g.extendChain_eq_take_superclassChain rounds id⟩
  rw [← List.head?_eq_none_iff, head?_superclassChain]

/-- Two classes that follow each other, one that leads to them, and one that leads to an instance. -/
def tangledObjects : List Object :=
  [.ofClass ⟨1, "com.example.Ring", some 2, []⟩, .ofClass ⟨2, "com.example.Rung", some 1, []⟩,
    .ofClass ⟨3, "com.example.Ladder", some 1, []⟩, .ofClass ⟨4, "com.example.Loose", some 5, []⟩,
    .ofInstance ⟨5, 4, []⟩]

def tangled : Graph := tangledObjects.foldl place empty

theorem nodup_ids_tangledObjects : (tangledObjects.map Object.id).Nodup := by decide

theorem class?_tangled (id : ObjectId) :
    tangled.class? id = (tangledObjects.find? (·.id == id)).bind Object.class? :=
  class?_foldl_place nodup_ids_tangledObjects id

/-- The chain that leads into the circle goes around once and stops where it would begin again. -/
theorem tangled_chains_longest : tangled.IsBuilt ∧ tangled.superclassChain 5 = [] ∧
    tangled.superclassChain 3 = [⟨3, "com.example.Ladder", some 1, []⟩,
      ⟨1, "com.example.Ring", some 2, []⟩, ⟨2, "com.example.Rung", some 1, []⟩] ∧
    (⟨1, "com.example.Ring", some 2, []⟩ : Class) ∈ tangled.superclassChain 3 := by
  have hbuilt : tangled.IsBuilt := isBuilt_foldl_place nodup_ids_tangledObjects
  have hsize : tangled.size = 5 := rfl
  have hchain : tangled.superclassChain 3 = [⟨3, "com.example.Ladder", some 1, []⟩,
      ⟨1, "com.example.Ring", some 2, []⟩, ⟨2, "com.example.Rung", some 1, []⟩] := by
    simp [superclassChain, hsize, extendChain, class?_tangled, tangledObjects, Object.id,
      Object.class?]
  obtain ⟨-, hnil, -⟩ := superclassChain_longest tangled 5
  obtain ⟨-, -, -, -, hstops, -⟩ := superclassChain_longest tangled 3
  refine ⟨hbuilt, hnil.2 (by rw [class?_tangled]; rfl), hchain, hstops hbuilt _ ?_⟩
  rw [hchain]
  exact class?_tangled 1

/-- Whether a class has a number of superclasses, the last of which has none in the graph. -/
structure HasHeight (g : Graph) (id : ObjectId) (height : Nat) : Prop where
  length_eq : (g.superclassChain id).length = height + 1
  endsOpen : g.EndsOpen (some id) (g.superclassChain id)

/-- From a class on whose own chain leads nowhere, a chain runs as that one. -/
theorem IsSuperclassChain.isSuffix {base : ObjectId} (hg : g.IsLabelled)
    (hcs : g.IsSuperclassChain id cs) (hds : g.IsSuperclassChain (some base) ds)
    (hopen : g.EndsOpen (some base) ds) (hc : c ∈ cs) (hid : c.id = base) : ds <:+ cs := by
  have hclass := hcs.linked.class?_id hg hc
  obtain ⟨before, after, rfl⟩ := List.append_of_mem hc
  have hfrom : g.IsLinked (some base) (c :: after) := ⟨hid ▸ hclass, hcs.linked.of_append_cons⟩
  obtain ⟨rest, rfl⟩ := hfrom.isPrefix hds.linked hopen
  cases rest with
  | nil => exact ⟨before, by rw [List.append_nil]⟩
  | cons d rest =>
      -- The long chain has stopped at `d` as it had passed it before `c`, so that the short one
      -- comes from `d` to `c` again.
      exfalso
      have hnext : (beyond id (before ++ c :: after)).bind g.class? = some d := by
        rw [beyond_append_cons]
        exact (isLinked_append.1 hds.linked).2.1
      have hnodup := List.nodup_append.1 hds.nodup
      have hbefore : d ∈ before := by
        rcases List.mem_append.1 (hcs.maximal d hnext) with hbefore | hafter
        · exact hbefore
        · exact absurd rfl (hnodup.2.2 d hafter d List.mem_cons_self)
      obtain ⟨before, between, rfl⟩ := List.append_of_mem hbefore
      have hlong : g.IsLinked d.superclass (between ++ c :: after) := by
        have hlinked := hcs.linked
        rw [List.append_assoc] at hlinked
        exact hlinked.of_append_cons
      have hopen' : g.EndsOpen d.superclass rest := by
        rwa [EndsOpen, beyond_append_cons] at hopen
      have hagain : c ∈ rest :=
        (hlong.isPrefix hds.linked.of_append_cons hopen').subset (by simp)
      exact hnodup.2.2 c List.mem_cons_self c (List.mem_cons_of_mem d hagain) rfl

end HeapSentry.Heap.Graph
