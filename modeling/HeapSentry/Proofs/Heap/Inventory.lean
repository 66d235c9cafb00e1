import HeapSentry.Proofs.Heap.Building
import HeapSentry.Proofs.Lists

/-!
# What stands in a graph

A graph tabulates a list of objects: every object has a slot of its own, known by its id, the slots
of each kind are listed in order, and a class name leads to the first class of that name.  Whatever
adds an object, adds a root or gives an instance other fields keeps the tables in step with the
list.
-/

namespace HeapSentry.Heap

/-- The objects of a heap in the order in which they were put in. -/
structure Inventory where
  objects : List Object := []
  roots : List Root := []

namespace Inventory

def ids (v : Inventory) : List ObjectId := v.objects.map Object.id

def add (v : Inventory) (o : Object) : Inventory := { v with objects := v.objects ++ [o] }

def addRoot (v : Inventory) (root : Root) : Inventory := { v with roots := v.roots ++ [root] }

/-- Gives the instance that stands somewhere other fields. -/
def setFields (v : Inventory) (slot : Nat) (i : Instance) (fields : List Field) : Inventory :=
  { v with objects := v.objects.set slot (.ofInstance { i with fields }) }

/-- Where the objects of one kind stand. -/
def slotsOf (v : Inventory) (isKind : Object → Bool) : List Nat :=
  (List.range v.objects.length).filter fun slot ↦ v.objects[slot]?.any isKind

end Inventory

namespace Graph

structure Tabulates (g : Graph) (v : Inventory) : Prop where
  objects_eq : g.objects.toList = v.objects
  slot_iff : ∀ (id : ObjectId) (slot : Nat),
    g.slots[id]? = some slot ↔ ∃ o : Object, v.objects[slot]? = some o ∧ o.id = id
  instanceSlots_eq : g.instanceSlots.toList = v.slotsOf (·.instance?.isSome)
  primitiveArraySlots_eq : g.primitiveArraySlots.toList = v.slotsOf (·.primitiveArray?.isSome)
  objectArraySlots_eq : g.objectArraySlots.toList = v.slotsOf (·.objectArray?.isSome)
  classIds_eq : ∀ name : String, g.classIds[name]? =
    ((v.objects.filterMap Object.class?).find? (·.name == name)).map Class.id
  roots_eq : g.roots.toList = v.roots

end Graph

/-! ## Lists of slots -/

namespace Inventory

variable {v : Inventory} {o : Object} {i : Instance} {slot : Nat}

theorem slotsOf_add (isKind : Object → Bool) :
    (v.add o).slotsOf isKind =
      v.slotsOf isKind ++ if isKind o then [v.objects.length] else [] := by
  have hearlier : ∀ slot ∈ List.range v.objects.length,
      (v.objects ++ [o])[slot]?.any isKind = v.objects[slot]?.any isKind := by
    intro slot hslot
    rw [List.getElem?_append_left (List.mem_range.1 hslot)]
  rw [slotsOf, add, List.length_append, List.length_singleton, List.range_succ,
    List.filter_append, List.filter_congr hearlier]
  cases hkind : isKind o <;> simp [slotsOf, hkind]

/-- Objects look the same after an instance has been given other fields, to whoever does not look
at the fields of instances. -/
theorem map_setFields {α : Type} {f : Object → α} (fields : List Field)
    (hslot : v.objects[slot]? = some (.ofInstance i))
    (hf : f (.ofInstance { i with fields }) = f (.ofInstance i)) :
    (v.setFields slot i fields).objects.map f = v.objects.map f := by
  have hsame : (v.objects.map f)[slot]? = some (f (.ofInstance { i with fields })) := by
    rw [List.getElem?_map, hslot, hf]
    rfl
  rw [setFields, List.map_set, set_eq_self_of_some hsame]

theorem slotsOf_congr {v' : Inventory} {isKind : Object → Bool}
    (h : v'.objects.map isKind = v.objects.map isKind) : v'.slotsOf isKind = v.slotsOf isKind := by
  have hany (w : Inventory) (slot : Nat) :
      w.objects[slot]?.any isKind = (w.objects.map isKind)[slot]?.any id := by
    rw [List.getElem?_map, Option.any_map]
    rfl
  have hlength := congrArg List.length h
  rw [List.length_map, List.length_map] at hlength
  simp only [slotsOf, hany, h, hlength]

theorem filterMap_congr {α : Type} {v' : Inventory} {kind : Object → Option α}
    (h : v'.objects.map kind = v.objects.map kind) :
    v'.objects.filterMap kind = v.objects.filterMap kind := by
  have hkind := congrArg (List.filterMap id) h
  rwa [List.filterMap_map, List.filterMap_map] at hkind

end Inventory

namespace Graph.Tabulates

variable {g : Graph} {v : Inventory} {o : Object} {id : ObjectId}

theorem empty : Graph.empty.Tabulates {} where
  objects_eq := rfl
  slot_iff id slot := by simp [Graph.empty]
  instanceSlots_eq := rfl
  primitiveArraySlots_eq := rfl
  objectArraySlots_eq := rfl
  classIds_eq name := by simp [Graph.empty]
  roots_eq := rfl

theorem objects_size_eq (h : g.Tabulates v) : g.objects.size = v.objects.length := by
  rw [← h.objects_eq, Array.length_toList]

theorem size_eq (h : g.Tabulates v) : g.size = v.objects.length := h.objects_size_eq

theorem contains_iff (h : g.Tabulates v) : g.contains id = true ↔ id ∈ v.ids := by
  rw [contains, Std.HashMap.contains_eq_isSome_getElem?, Option.isSome_iff_exists, Inventory.ids,
    List.mem_map]
  simp only [h.slot_iff, List.mem_iff_getElem?]
  constructor
  · rintro ⟨slot, o, hslot, hid⟩
    exact ⟨o, ⟨slot, hslot⟩, hid⟩
  · rintro ⟨o, ⟨slot, hslot⟩, hid⟩
    exact ⟨slot, o, hslot, hid⟩

theorem contains_eq_false_iff (h : g.Tabulates v) : g.contains id = false ↔ id ∉ v.ids := by
  rw [← h.contains_iff, Bool.not_eq_true]

theorem object?_eq_some_iff (h : g.Tabulates v) :
    g.object? id = some o ↔ o ∈ v.objects ∧ o.id = id := by
  have hobjects (slot : Nat) : g.objects[slot]? = v.objects[slot]? := by
    rw [← h.objects_eq, Array.getElem?_toList]
  rw [object?, Option.bind_eq_bind, Option.bind_eq_some_iff]
  simp only [hobjects, h.slot_iff]
  constructor
  · rintro ⟨slot, ⟨o', ho', hid⟩, hslot⟩
    obtain rfl := Option.some.inj (ho'.symm.trans hslot)
    exact ⟨List.mem_of_getElem? hslot, hid⟩
  · rintro ⟨ho, hid⟩
    obtain ⟨slot, hslot⟩ := List.mem_iff_getElem?.1 ho
    exact ⟨slot, ⟨o, hslot, hid⟩, hslot⟩

theorem insert_eq_ok (h : g.Tabulates v) (hnew : o.id ∉ v.ids) :
    g.insert o = .ok (g.place o) := by
  rw [Graph.insert, h.contains_eq_false_iff.2 hnew]
  rfl

theorem insert_eq_error (h : g.Tabulates v) (hold : o.id ∈ v.ids) :
    g.insert o = .error (.duplicateObject o.id) := by
  rw [Graph.insert, h.contains_iff.2 hold, if_pos rfl]

/-- Slots of their own mean that no id occurs twice. -/
theorem nodup_ids (h : g.Tabulates v) : v.ids.Nodup := by
  rw [List.nodup_iff_injective_getElem]
  intro slot slot' heq
  have hfound (k : Fin v.ids.length) : g.slots[v.ids[k.1]]? = some k.1 := by
    have hlt : k.1 < v.objects.length := by simpa [Inventory.ids] using k.2
    rw [h.slot_iff]
    exact ⟨v.objects[k.1], List.getElem?_eq_getElem hlt, by simp [Inventory.ids]⟩
  have hslot := hfound slot
  have heq' : v.ids[slot.1] = v.ids[slot'.1] := heq
  rw [heq', hfound slot'] at hslot
  exact Fin.ext (Option.some.inj hslot).symm

/-! ## What the tables tell -/

theorem objectsIn_eq {α : Type} (h : g.Tabulates v) {slots : Array Nat}
    {kind : Object → Option α} (hslots : slots.toList = v.slotsOf fun o ↦ (kind o).isSome) :
    g.objectsIn slots kind = v.objects.filterMap kind := by
  have hkind : ∀ slot ∈ List.range v.objects.length,
      (if v.objects[slot]?.any (fun o ↦ (kind o).isSome) then g.objects[slot]?.bind kind
        else none) = v.objects[slot]?.bind kind := by
    intro slot _
    rw [← Array.getElem?_toList, h.objects_eq]
    cases v.objects[slot]? with
    | none => rfl
    | some o => cases hkind : kind o <;> simp [hkind]
  rw [objectsIn, hslots, Inventory.slotsOf, List.filterMap_filter, ← filterMap_range_getElem? kind]
  exact List.filterMap_congr hkind

theorem instances_eq (h : g.Tabulates v) : g.instances = v.objects.filterMap Object.instance? :=
  h.objectsIn_eq h.instanceSlots_eq

theorem primitiveArrays_eq (h : g.Tabulates v) :
    g.primitiveArrays = v.objects.filterMap Object.primitiveArray? :=
  h.objectsIn_eq h.primitiveArraySlots_eq

theorem objectArrays_eq (h : g.Tabulates v) :
    g.objectArrays = v.objects.filterMap Object.objectArray? :=
  h.objectsIn_eq h.objectArraySlots_eq

theorem classNamed?_eq (h : g.Tabulates v) (name : String) :
    g.classNamed? name = (v.objects.filterMap Object.class?).find? (·.name == name) := by
  rw [classNamed?, h.classIds_eq]
  cases hfind : (v.objects.filterMap Object.class?).find? (·.name == name) with
  | none => rfl
  | some c =>
      obtain ⟨o, ho, hkind⟩ := List.mem_filterMap.1 (List.mem_of_find?_eq_some hfind)
      have hobject : g.object? o.id = some o := h.object?_eq_some_iff.2 ⟨ho, rfl⟩
      cases o with
      | ofClass c' =>
          obtain rfl := Option.some.inj hkind
          change g.object? c'.id >>= Object.class? = some c'
          rw [show c'.id = (Object.ofClass c').id from rfl, hobject]
          rfl
      | _ => cases hkind

/-! ## What keeps the tables in step -/

theorem place (h : g.Tabulates v) (hnew : o.id ∉ v.ids) : (g.place o).Tabulates (v.add o) where
  objects_eq := by
    rw [objects_place, Array.toList_push, h.objects_eq]
    rfl
  slot_iff id slot := by
    rw [slots_place, Std.HashMap.getElem?_insert, h.objects_size_eq]
    simp only [Inventory.add, getElem?_snoc_eq_some_iff]
    split
    next heq =>
      obtain rfl := eq_of_beq heq
      rw [Option.some.injEq]
      constructor
      · rintro rfl
        exact ⟨o, .inr ⟨rfl, rfl⟩, rfl⟩
      · rintro ⟨o', hslot | ⟨rfl, -⟩, hid⟩
        · rw [← hid] at hnew
          exact absurd (List.mem_map_of_mem (List.mem_of_getElem? hslot)) hnew
        · rfl
    next hne =>
      rw [h.slot_iff]
      constructor
      · rintro ⟨o', hslot, hid⟩
        exact ⟨o', .inl hslot, hid⟩
      · rintro ⟨o', hslot | ⟨-, rfl⟩, hid⟩
        · exact ⟨o', hslot, hid⟩
        · exact absurd (beq_iff_eq.2 hid) hne
  instanceSlots_eq := by
    rw [Inventory.slotsOf_add, ← h.instanceSlots_eq]
    cases o <;> simp [Graph.place, Object.instance?, h.objects_size_eq]
  primitiveArraySlots_eq := by
    rw [Inventory.slotsOf_add, ← h.primitiveArraySlots_eq]
    cases o <;> simp [Graph.place, Object.primitiveArray?, h.objects_size_eq]
  objectArraySlots_eq := by
    rw [Inventory.slotsOf_add, ← h.objectArraySlots_eq]
    cases o <;> simp [Graph.place, Object.objectArray?, h.objects_size_eq]
  classIds_eq name := by
    rw [Graph.classIds_place, h.classIds_eq, Inventory.add, filterMap_snoc, List.find?_append,
      Option.map_or]
  roots_eq := by
    rw [Inventory.add, ← h.roots_eq]
    cases o <;> rfl

theorem addRoot (h : g.Tabulates v) (root : Root) :
    (g.addRoot root).Tabulates (v.addRoot root) where
  objects_eq := h.objects_eq
  slot_iff := h.slot_iff
  instanceSlots_eq := h.instanceSlots_eq
  primitiveArraySlots_eq := h.primitiveArraySlots_eq
  objectArraySlots_eq := h.objectArraySlots_eq
  classIds_eq := h.classIds_eq
  roots_eq := by
    rw [Graph.addRoot, Array.toList_push, h.roots_eq]
    rfl

theorem setIfInBounds {slot : Nat} {i : Instance} {fields : List Field} (h : g.Tabulates v)
    (hslot : v.objects[slot]? = some (.ofInstance i)) :
    Tabulates { g with objects := g.objects.setIfInBounds slot (.ofInstance { i with fields }) }
      (v.setFields slot i fields) where
  objects_eq := by
    rw [Array.toList_setIfInBounds, h.objects_eq]
    rfl
  slot_iff id slot' := by
    have hids := v.map_setFields (f := Object.id) fields hslot rfl
    have hfound (w : Inventory) : (∃ o : Object, w.objects[slot']? = some o ∧ o.id = id) ↔
        (w.objects.map Object.id)[slot']? = some id := by
      rw [List.getElem?_map, Option.map_eq_some_iff]
    rw [hfound, hids, ← hfound]
    exact h.slot_iff id slot'
  instanceSlots_eq :=
    h.instanceSlots_eq.trans (Inventory.slotsOf_congr (v.map_setFields fields hslot rfl)).symm
  primitiveArraySlots_eq :=
    h.primitiveArraySlots_eq.trans (Inventory.slotsOf_congr (v.map_setFields fields hslot rfl)).symm
  objectArraySlots_eq :=
    h.objectArraySlots_eq.trans (Inventory.slotsOf_congr (v.map_setFields fields hslot rfl)).symm
  classIds_eq name := by
    rw [Inventory.filterMap_congr (v.map_setFields fields hslot rfl)]
    exact h.classIds_eq name
  roots_eq := h.roots_eq

/-- Other fields can be given to an instance, and to nothing else. -/
theorem setFields_cases (h : g.Tabulates v) (id : ObjectId) (fields : List Field) :
    (∃ slot i g', v.objects[slot]? = some (.ofInstance i) ∧ i.id = id ∧
        g.setFields id fields = .ok g' ∧ g'.Tabulates (v.setFields slot i fields)) ∨
      ((∀ i : Instance, .ofInstance i ∈ v.objects → i.id ≠ id) ∧
        g.setFields id fields = .error (.unknownObject id)) := by
  unfold Graph.setFields
  split
  next slot i hslot hobject =>
    obtain ⟨o, ho, hid⟩ := (h.slot_iff id slot).1 hslot
    have hinstance : g.objects[slot]? = some (.ofInstance i) := by
      simpa [Graph.object?, hslot] using hobject
    rw [← Array.getElem?_toList, h.objects_eq] at hinstance
    obtain rfl := Option.some.inj (ho.symm.trans hinstance)
    exact .inl ⟨slot, i, _, hinstance, hid, rfl, h.setIfInBounds hinstance⟩
  next hnone =>
    refine .inr ⟨fun i hi hid ↦ ?_, rfl⟩
    have hobject : g.object? id = some (.ofInstance i) := h.object?_eq_some_iff.2 ⟨hi, hid⟩
    obtain ⟨slot, hslot, -⟩ := Option.bind_eq_some_iff.1 hobject
    exact hnone slot i hslot hobject

end Graph.Tabulates

end HeapSentry.Heap
