import HeapSentry.Heap.Document
import HeapSentry.Proofs.Lists
import HeapSentry.Proofs.Results
import Mathlib.Data.List.Nodup

/-!
# The tables of a graph

However a graph has been built, its tables lead to its objects: every id is known, what is found
under it has it, and the instances are all listed.
-/

namespace HeapSentry.Heap

namespace Graph

variable {g : Graph} {o : Object} {i : Instance} {id : ObjectId}

/-! ## Adding an object -/

@[simp] theorem objects_place (g : Graph) (o : Object) :
    (g.place o).objects = g.objects.push o := by
  cases o <;> rfl

@[simp] theorem slots_place (g : Graph) (o : Object) :
    (g.place o).slots = g.slots.insert o.id g.objects.size := by
  cases o <;> rfl

theorem mem_instanceSlots_place {slot : Nat} : slot ∈ (g.place o).instanceSlots ↔
    slot ∈ g.instanceSlots ∨ slot = g.objects.size ∧ ∃ i, o = .ofInstance i := by
  cases o <;> simp [place]

/-- A name stands for the first class that has it. -/
theorem classIds_place (g : Graph) (o : Object) (name : String) : (g.place o).classIds[name]? =
    g.classIds[name]?.or ((o.class?.toList.find? (·.name == name)).map Class.id) := by
  cases o with
  | ofClass c =>
      rw [Graph.place, Std.HashMap.getElem?_insertIfNew]
      cases heq : c.name == name with
      | false => simp [Object.class?, heq]
      | true =>
          obtain rfl := eq_of_beq heq
          simp only [Std.HashMap.mem_iff_isSome_getElem?]
          cases g.classIds[c.name]? <;> simp [Object.class?]
  | _ => simp [Graph.place, Object.class?]

/-- Other fields are given to an instance where it stands. -/
theorem exists_of_setFields {g' : Graph} {fields : List Field}
    (h : g.setFields id fields = .ok g') : ∃ slot i, g.slots[id]? = some slot ∧
      g.objects[slot]? = some (.ofInstance i) ∧
        g' = { g with objects := g.objects.setIfInBounds slot (.ofInstance { i with fields }) } := by
  rw [Graph.setFields] at h
  split at h
  next slot i hslot hobject =>
    cases h
    exact ⟨slot, i, hslot, by simpa [Graph.object?, hslot] using hobject, rfl⟩
  next => cases h

/-! ## Tables -/

/-- The tables lead to objects that there are, know the id of each and list all instances. -/
structure IsIndexed (g : Graph) : Prop where
  slot_lt : ∀ (id : ObjectId) (slot : Nat), g.slots[id]? = some slot → slot < g.objects.size
  mem_slots : ∀ o ∈ g.objects, o.id ∈ g.slots
  mem_instanceSlots : ∀ (slot : Nat) (i : Instance),
    g.objects[slot]? = some (.ofInstance i) → slot ∈ g.instanceSlots

theorem isIndexed_empty : empty.IsIndexed where
  slot_lt id slot h := by simp [empty] at h
  mem_slots o h := by simp [empty] at h
  mem_instanceSlots slot i h := by simp [empty] at h

namespace IsIndexed

theorem place (h : g.IsIndexed) (o : Object) : (g.place o).IsIndexed := by
  constructor
  · intro id slot hslot
    rw [slots_place, Std.HashMap.getElem?_insert] at hslot
    rw [objects_place, Array.size_push]
    split at hslot
    next => exact Option.some.inj hslot ▸ Nat.lt_succ_self _
    next => exact Nat.lt_succ_of_lt (h.slot_lt id slot hslot)
  · intro o' ho'
    rw [objects_place, Array.mem_push] at ho'
    rw [slots_place, Std.HashMap.mem_insert]
    rcases ho' with ho' | rfl
    · exact .inr (h.mem_slots o' ho')
    · exact .inl (beq_self_eq_true _)
  · intro slot i hslot
    rw [objects_place, Array.getElem?_push] at hslot
    rw [mem_instanceSlots_place]
    split at hslot
    next hlast => exact .inr ⟨hlast, i, Option.some.inj hslot⟩
    next => exact .inl (h.mem_instanceSlots slot i hslot)

theorem addRoot (h : g.IsIndexed) (root : Root) : (g.addRoot root).IsIndexed :=
  ⟨h.slot_lt, h.mem_slots, h.mem_instanceSlots⟩

/-- An instance with other fields stands where it stood before. -/
theorem setFields {g' : Graph} {fields : List Field} (h : g.IsIndexed)
    (hset : g.setFields id fields = .ok g') : g'.IsIndexed := by
  obtain ⟨slot, i, -, hbefore, rfl⟩ := exists_of_setFields hset
  constructor
  · intro id' slot' hslot'
    rw [Array.size_setIfInBounds]
    exact h.slot_lt id' slot' hslot'
  · intro o ho
    rcases Array.mem_or_eq_of_mem_setIfInBounds ho with ho | rfl
    · exact h.mem_slots o ho
    · exact h.mem_slots (.ofInstance i) (Array.mem_of_getElem? hbefore)
  · intro slot' i' hslot'
    rw [Array.getElem?_setIfInBounds] at hslot'
    split at hslot'
    next heq => exact heq ▸ h.mem_instanceSlots slot i hbefore
    next => exact h.mem_instanceSlots slot' i' hslot'

/-! ## What the tables lead to -/

theorem object?_isSome (h : g.IsIndexed) (ho : o ∈ g.objects) : (g.object? o.id).isSome := by
  obtain ⟨slot, hslot⟩ := Option.isSome_iff_exists.1
    (Std.HashMap.mem_iff_isSome_getElem?.1 (h.mem_slots o ho))
  have hlt := h.slot_lt o.id slot hslot
  simp [Graph.object?, hslot, hlt]

theorem mem_instances (h : g.IsIndexed) (hobject : g.object? id = some (.ofInstance i)) :
    i ∈ g.instances := by
  obtain ⟨slot, -, hslot⟩ := Option.bind_eq_some_iff.1 hobject
  have hmem := Array.mem_toList_iff.2 (h.mem_instanceSlots slot i hslot)
  refine List.mem_filterMap.2 ⟨slot, hmem, ?_⟩
  rw [hslot]
  rfl

end IsIndexed

theorem mem_objects_of_mem_objectsIn {α : Type} {slots : Array Nat} {kind : Object → Option α}
    {make : α → Object} (hkind : ∀ o a, kind o = some a → o = make a) {a : α}
    (h : a ∈ g.objectsIn slots kind) : make a ∈ g.objects := by
  obtain ⟨slot, -, hslot⟩ := List.mem_filterMap.1 h
  obtain ⟨o, ho, ha⟩ := Option.bind_eq_some_iff.1 hslot
  obtain rfl := hkind o a ha
  exact Array.mem_of_getElem? ho

theorem ofInstance_mem_objects (h : i ∈ g.instances) : .ofInstance i ∈ g.objects :=
  mem_objects_of_mem_objectsIn (fun o _ ho ↦ by cases o <;> cases ho; rfl) h

theorem ofPrimitiveArray_mem_objects {a : PrimitiveArray} (h : a ∈ g.primitiveArrays) :
    .ofPrimitiveArray a ∈ g.objects :=
  mem_objects_of_mem_objectsIn (fun o _ ho ↦ by cases o <;> cases ho; rfl) h

theorem ofObjectArray_mem_objects {a : ObjectArray} (h : a ∈ g.objectArrays) :
    .ofObjectArray a ∈ g.objects :=
  mem_objects_of_mem_objectsIn (fun o _ ho ↦ by cases o <;> cases ho; rfl) h

end Graph

/-! ## Graphs that have been built -/

def Builder.run (b : Builder) (edits : List Edit) : Builder :=
  edits.foldl (fun b edit ↦ (b.apply edit).2) b

theorem Builder.run_snoc (b : Builder) (edits : List Edit) (edit : Edit) :
    b.run (edits ++ [edit]) = ((b.run edits).apply edit).2 := by
  rw [run, List.foldl_append]
  rfl

/-- A graph is that of a document, or a builder has been led to it. -/
def Graph.IsBuilt (g : Graph) : Prop :=
  (∃ d : Document, d.toGraph = .ok g) ∨ ∃ edits : List Edit, (Builder.run {} edits).graph = g

section Keeping

variable {P : Graph → Prop} (hplace : ∀ g o, P g → P (g.place o))
include hplace

theorem keeps_insert {g g' : Graph} {o : Object} (h : P g) (hinsert : g.insert o = .ok g') :
    P g' := by
  unfold Graph.insert at hinsert
  split at hinsert
  · simp at hinsert
  · cases hinsert
    exact hplace g o h

theorem keeps_add {b : Builder} (h : P b.graph) (object : ObjectId → Object) :
    P (b.add object).graph :=
  hplace b.graph (object b.freshId) h

variable (hroot : ∀ g root, P g → P (g.addRoot root))
include hroot

theorem keeps_toGraph (hempty : P .empty) {d : Document} {g : Graph} (h : d.toGraph = .ok g) :
    P g := by
  obtain ⟨placed, hplaced, heq⟩ := bind_eq_ok_iff.1 h
  have hbefore : P placed := by
    refine foldlM_induction (P := fun _ g ↦ P g) hempty ?_ hplaced
    intro _ record before after hbefore hrecord
    obtain ⟨o, -, hinsert⟩ := bind_eq_ok_iff.1 hrecord
    exact keeps_insert hplace hbefore hinsert
  cases heq
  exact List.foldlRecOn d.roots _ hbefore fun g hg root _ ↦ hroot g root hg

variable (hfields : ∀ g g' id fields, g.setFields id fields = .ok g' → P g → P g')
include hfields

theorem keeps_apply {b : Builder} (h : P b.graph) (edit : Edit) : P (b.apply edit).2.graph := by
  cases edit with
  | newClass name superclass statics => exact keeps_add hplace h _
  | newInstance classId fields => exact keeps_add hplace h _
  | newPrimitiveArray elementType length => exact keeps_add hplace h _
  | newObjectArray classId elements => exact keeps_add hplace h _
  | insert o =>
      cases hinsert : b.graph.insert o with
      | error fault => simpa [Builder.apply, hinsert] using h
      | ok g => simpa [Builder.apply, hinsert] using keeps_insert hplace h hinsert
  | root r => exact hroot _ _ h
  | setFields id fields =>
      cases hset : b.graph.setFields id fields with
      | error fault => simpa [Builder.apply, hset] using h
      | ok g => simpa [Builder.apply, hset] using hfields _ _ _ _ hset h

/-- What holds of the empty graph and is kept by whatever changes a graph holds of all graphs that
have been built. -/
theorem Graph.IsBuilt.induction (hempty : P .empty) {g : Graph} (h : g.IsBuilt) : P g := by
  rcases h with ⟨d, hd⟩ | ⟨edits, rfl⟩
  · exact keeps_toGraph hplace hroot hempty hd
  · exact List.foldlRecOn (motive := fun b : Builder ↦ P b.graph) edits _ hempty
      fun _ hb edit _ ↦ keeps_apply hplace hroot hfields hb edit

end Keeping

namespace Graph

theorem IsBuilt.isIndexed {g : Graph} (h : g.IsBuilt) : g.IsIndexed :=
  h.induction (fun _ o hg ↦ hg.place o) (fun _ root hg ↦ hg.addRoot root)
    (fun _ _ _ _ hset hg ↦ hg.setFields hset) isIndexed_empty

/-! ## Ids -/

/-- Whether all that is found under an id has this id. -/
def IsLabelled (g : Graph) : Prop :=
  ∀ (id : ObjectId) (o : Object), g.object? id = some o → o.id = id

theorem isLabelled_empty : empty.IsLabelled := fun id o h ↦ by simp [object?, empty] at h

theorem IsIndexed.object?_place {g : Graph} (h : g.IsIndexed) (o : Object) (id : ObjectId) :
    (g.place o).object? id = if o.id == id then some o else g.object? id := by
  rw [object?, slots_place, objects_place, Std.HashMap.getElem?_insert]
  split
  next => exact Array.getElem?_push_size
  next =>
    cases hslot : g.slots[id]? with
    | none => rw [object?, hslot]; rfl
    | some slot =>
        have hlt := h.slot_lt id slot hslot
        simp [object?, hslot, Array.getElem?_push, Nat.ne_of_lt hlt]

theorem IsLabelled.place {g : Graph} (h : g.IsLabelled) (hindexed : g.IsIndexed) (o : Object) :
    (g.place o).IsLabelled := by
  intro id o' hobject
  rw [hindexed.object?_place] at hobject
  split at hobject
  next heq =>
    obtain rfl := Option.some.inj hobject
    exact eq_of_beq heq
  next => exact h id o' hobject

theorem IsLabelled.setFields {g g' : Graph} (h : g.IsLabelled) {id : ObjectId}
    {fields : List Field} (hset : g.setFields id fields = .ok g') : g'.IsLabelled := by
  obtain ⟨slot, i, -, hbefore, rfl⟩ := exists_of_setFields hset
  intro id' o hfound
  obtain ⟨slot', hslot', hfound⟩ := Option.bind_eq_some_iff.1 hfound
  rw [Array.getElem?_setIfInBounds] at hfound
  split at hfound
  next heq =>
    subst heq
    have hid := h id' _ (Option.bind_eq_some_iff.2 ⟨slot, hslot', hbefore⟩)
    split at hfound
    next =>
      rw [← Option.some.inj hfound]
      exact hid
    next => cases hfound
  next => exact h id' o (Option.bind_eq_some_iff.2 ⟨slot', hslot', hfound⟩)

theorem IsBuilt.isLabelled {g : Graph} (h : g.IsBuilt) : g.IsLabelled := by
  have hboth : g.IsIndexed ∧ g.IsLabelled :=
    h.induction (P := fun g ↦ g.IsIndexed ∧ g.IsLabelled)
      (fun _ o hg ↦ ⟨hg.1.place o, hg.2.place hg.1 o⟩)
      (fun _ root hg ↦ ⟨hg.1.addRoot root, hg.2⟩)
      (fun _ _ _ _ hset hg ↦ ⟨hg.1.setFields hset, hg.2.setFields hset⟩)
      ⟨isIndexed_empty, isLabelled_empty⟩
  exact hboth.2

theorem IsLabelled.id_of_class? {g : Graph} (h : g.IsLabelled) {id : ObjectId} {c : Class}
    (hclass : g.class? id = some c) : c.id = id := by
  obtain ⟨o, hobject, hkind⟩ := Option.bind_eq_some_iff.1 hclass
  cases o with
  | ofClass c' =>
      obtain rfl := Option.some.inj hkind
      exact h id _ hobject
  | _ => cases hkind

/-! ## Objects of distinct ids -/

theorem nodup_ids_snoc {os : List Object} {o : Object} : ((os ++ [o]).map Object.id).Nodup ↔
    (os.map Object.id).Nodup ∧ ∀ o' ∈ os, o'.id ≠ o.id := by
  simp [List.nodup_append]

theorem isIndexed_foldl_place (os : List Object) : (os.foldl place empty).IsIndexed :=
  List.foldlRecOn os place isIndexed_empty fun _ hg o _ ↦ hg.place o

theorem contains_foldl_place (os : List Object) (id : ObjectId) :
    (os.foldl place empty).contains id = os.any (·.id == id) := by
  induction os using List.reverseRecOn with
  | nil => simp [contains, empty]
  | append_singleton os o ih =>
      rw [List.any_append, ← ih, List.foldl_append]
      simp [contains, Bool.or_comm]

theorem object?_foldl_place {os : List Object} (hos : (os.map Object.id).Nodup) (id : ObjectId) :
    (os.foldl place empty).object? id = os.find? (·.id == id) := by
  induction os using List.reverseRecOn with
  | nil => simp [object?, empty]
  | append_singleton os o ih =>
      obtain ⟨hos, hnew⟩ := nodup_ids_snoc.1 hos
      rw [List.foldl_append, List.foldl_cons, List.foldl_nil, List.find?_append,
        (isIndexed_foldl_place os).object?_place, ih hos]
      cases heq : o.id == id with
      | true =>
          have hnone : os.find? (·.id == id) = none :=
            List.find?_eq_none.2 fun o' ho' heq' ↦
              hnew o' ho' ((eq_of_beq heq').trans (eq_of_beq heq).symm)
          simp [hnone, heq]
      | false => simp [heq]

theorem class?_foldl_place {os : List Object} (hos : (os.map Object.id).Nodup) (id : ObjectId) :
    (os.foldl place empty).class? id = (os.find? (·.id == id)).bind Object.class? := by
  rw [class?, object?_foldl_place hos]
  rfl

theorem object?_of_mem {os : List Object} {o : Object} (hos : (os.map Object.id).Nodup)
    (ho : o ∈ os) : (os.foldl place empty).object? o.id = some o := by
  rw [object?_foldl_place hos]
  cases hfind : os.find? (·.id == o.id) with
  | none => exact absurd (beq_self_eq_true o.id) (List.find?_eq_none.1 hfind o ho)
  | some o' =>
      have hid := List.find?_some hfind
      rw [List.inj_on_of_nodup_map hos (List.mem_of_find?_eq_some hfind) ho (eq_of_beq hid)]

theorem classIds_foldl_place (os : List Object) (name : String) :
    (os.foldl place empty).classIds[name]? =
      ((os.filterMap Object.class?).find? (·.name == name)).map Class.id := by
  induction os using List.reverseRecOn with
  | nil => simp [empty]
  | append_singleton os o ih =>
      rw [List.foldl_append, List.foldl_cons, List.foldl_nil, classIds_place, ih, filterMap_snoc,
        List.find?_append, Option.map_or]

/-- The class of a name is the first one that has been added under it. -/
theorem classNamed?_foldl_place {os : List Object} (hos : (os.map Object.id).Nodup)
    (name : String) : (os.foldl place empty).classNamed? name =
      (os.filterMap Object.class?).find? (·.name == name) := by
  have hclass : ∀ c ∈ os.filterMap Object.class?, (os.foldl place empty).class? c.id = some c := by
    intro c hc
    obtain ⟨o, ho, hkind⟩ := List.mem_filterMap.1 hc
    obtain rfl : o = .ofClass c := by
      cases o <;> cases hkind
      rfl
    rw [class?, show c.id = (Object.ofClass c).id from rfl, object?_of_mem hos ho]
    rfl
  rw [classNamed?, classIds_foldl_place]
  cases hfind : (os.filterMap Object.class?).find? (·.name == name) with
  | none => rfl
  | some c => exact hclass c (List.mem_of_find?_eq_some hfind)

theorem isBuilt_foldl_place {os : List Object} (hos : (os.map Object.id).Nodup) :
    (os.foldl place empty).IsBuilt := by
  refine .inr ⟨os.map .insert, ?_⟩
  induction os using List.reverseRecOn with
  | nil => rfl
  | append_singleton os o ih =>
      obtain ⟨hos, hnew⟩ := nodup_ids_snoc.1 hos
      have hfree : os.any (·.id == o.id) = false :=
        List.any_eq_false.2 fun o' ho' heq ↦ hnew o' ho' (eq_of_beq heq)
      have hinsert : (Builder.run {} (os.map .insert)).graph.insert o =
          .ok ((os.foldl place empty).place o) := by
        rw [ih hos, Graph.insert, contains_foldl_place, hfree]
        rfl
      rw [List.map_append, List.foldl_append]
      simp [Builder.run_snoc, Builder.apply, hinsert]

end Graph

end HeapSentry.Heap
