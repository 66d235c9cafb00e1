import HeapSentry.Heap.Graph
import Mathlib.Data.FinEnum
import Mathlib.Data.Fintype.Card

/-!
# Renaming the ids of a heap

Ids are only compared with each other.  A heap whose ids are renamed throughout therefore answers
every question as before, in the new names, as long as no two ids become one.
-/

namespace HeapSentry.Heap

/-! ## Objects under other ids -/

def FieldValue.rename (f : ObjectId → ObjectId) : FieldValue → FieldValue
  | .object target => .object (target.map f)
  | value => value

def Field.rename (f : ObjectId → ObjectId) (x : Field) : Field :=
  ⟨f x.declaringClass, x.name, x.value.rename f⟩

def Class.rename (f : ObjectId → ObjectId) (c : Class) : Class :=
  ⟨f c.id, c.name, c.superclass.map f, c.staticFields.map (Field.rename f)⟩

def Instance.rename (f : ObjectId → ObjectId) (i : Instance) : Instance :=
  ⟨f i.id, f i.classId, i.fields.map (Field.rename f)⟩

def PrimitiveArray.rename (f : ObjectId → ObjectId) (a : PrimitiveArray) : PrimitiveArray :=
  { a with id := f a.id }

def ObjectArray.rename (f : ObjectId → ObjectId) (a : ObjectArray) : ObjectArray :=
  ⟨f a.id, f a.classId, a.elements.map (Option.map f)⟩

def Object.rename (f : ObjectId → ObjectId) : Object → Object
  | .ofClass c => .ofClass (c.rename f)
  | .ofInstance i => .ofInstance (i.rename f)
  | .ofObjectArray a => .ofObjectArray (a.rename f)
  | .ofPrimitiveArray a => .ofPrimitiveArray (a.rename f)

def Root.rename (f : ObjectId → ObjectId) (r : Root) : Root := { r with id := f r.id }

def Reference.rename (f : ObjectId → ObjectId) (r : Reference) : Reference :=
  { r with source := f r.source, target := f r.target, declaringClass := r.declaringClass.map f }

def Fault.rename (f : ObjectId → ObjectId) : Fault → Fault
  | .missingField object className field => .missingField (f object) className field
  | .unknownObject id => .unknownObject (f id)
  | .duplicateObject id => .duplicateObject (f id)
  | fault => fault

/-- A result under other ids, whether it is a fault or not. -/
def renameResult {α β : Type} (f : ObjectId → ObjectId) (h : α → β) :
    Except Fault α → Except Fault β
  | .ok a => .ok (h a)
  | .error fault => .error (fault.rename f)

section

variable {α α' β β' : Type} {f : ObjectId → ObjectId} {h : α → α'} {k : β → β'}

theorem bind_renameResult {F : α → Except Fault β} {F' : α' → Except Fault β'}
    (hF : ∀ a, F' (h a) = renameResult f k (F a)) (x : Except Fault α) :
    renameResult f h x >>= F' = renameResult f k (x >>= F) := by
  cases x with
  | error fault => rfl
  | ok a => exact hF a

theorem mapM_renameResult {F : α → Except Fault β} {F' : α' → Except Fault β'}
    (hF : ∀ a, F' (h a) = renameResult f k (F a)) (as : List α) :
    (as.map h).mapM F' = renameResult f (List.map k) (as.mapM F) := by
  induction as with
  | nil => rfl
  | cons a as ih =>
      rw [List.map_cons, List.mapM_cons, List.mapM_cons, hF, ih]
      refine bind_renameResult (fun b ↦ ?_) (F a)
      refine bind_renameResult (fun bs ↦ ?_) (as.mapM F)
      rfl

end

namespace Graph

/-- The same heap under other ids. -/
def rename (f : ObjectId → ObjectId) (g : Graph) : Graph where
  objects := g.objects.map (Object.rename f)
  slots := .ofList (g.slots.toList.map fun (id, slot) ↦ (f id, slot))
  classIds := g.classIds.map fun _ id ↦ f id
  instanceSlots := g.instanceSlots
  primitiveArraySlots := g.primitiveArraySlots
  objectArraySlots := g.objectArraySlots
  roots := g.roots.map (Root.rename f)

end Graph

/-! ## Tables of ids -/

section

variable {α β : Type} {f : ObjectId → ObjectId} {h : α → β} {t : Std.HashMap ObjectId α}
  {t' : Std.HashMap ObjectId β}

/-- A table holds under the new ids what another one holds under the old ones. -/
def IsRenamed (f : ObjectId → ObjectId) (h : α → β) (t : Std.HashMap ObjectId α)
    (t' : Std.HashMap ObjectId β) : Prop :=
  ∀ id, t'[f id]? = t[id]?.map h

theorem isRenamed_empty (f : ObjectId → ObjectId) (h : α → β) : IsRenamed f h ∅ ∅ := by
  simp [IsRenamed]

theorem IsRenamed.insert (ht : IsRenamed f h t t') (hf : f.Injective) (id : ObjectId) (a : α) :
    IsRenamed f h (t.insert id a) (t'.insert (f id) (h a)) := by
  intro other
  simp only [Std.HashMap.getElem?_insert, beq_iff_eq, hf.eq_iff]
  split
  · rfl
  · exact ht other

theorem IsRenamed.mem_iff (ht : IsRenamed f h t t') (id : ObjectId) : f id ∈ t' ↔ id ∈ t := by
  rw [Std.HashMap.mem_iff_isSome_getElem?, Std.HashMap.mem_iff_isSome_getElem?, ht id,
    Option.isSome_map]

/-- There are only so many ids, so that an injective renaming reaches all of them. -/
theorem IsRenamed.keys_perm (ht : IsRenamed f h t t') (hf : f.Injective) :
    t'.keys.Perm (t.keys.map f) := by
  have hsurjective : f.Surjective := Finite.injective_iff_surjective.1 hf
  have hnodup : (t.keys.map f).Nodup := Std.HashMap.nodup_keys.map hf
  refine (List.perm_ext_iff_of_nodup Std.HashMap.nodup_keys hnodup).2 fun renamed ↦ ?_
  obtain ⟨id, rfl⟩ := hsurjective renamed
  rw [Std.HashMap.mem_keys, ht.mem_iff, List.mem_map_of_injective hf, Std.HashMap.mem_keys]

theorem IsRenamed.size_eq (ht : IsRenamed f h t t') (hf : f.Injective) : t'.size = t.size := by
  have hlength := (ht.keys_perm hf).length_eq
  rwa [List.length_map, Std.HashMap.length_keys, Std.HashMap.length_keys] at hlength

end

variable {f : ObjectId → ObjectId} {g : Graph}

/-! ## References -/

theorem FieldValue.target?_rename (value : FieldValue) :
    (value.rename f).target? = value.target?.map f := by
  cases value <;> rfl

theorem Field.references_rename (source : ObjectId) (kind : ReferenceKind) (fields : List Field) :
    Field.references (f source) kind (fields.map (Field.rename f)) =
      (Field.references source kind fields).map (Reference.rename f) := by
  simp only [Field.references, List.filterMap_map, List.map_filterMap]
  congr 1
  funext x
  simp only [Function.comp_apply, Field.rename, FieldValue.target?_rename]
  cases x.value.target? <;> rfl

theorem ObjectArray.references_rename (source : ObjectId) (position : Nat)
    (elements : List (Option ObjectId)) :
    ObjectArray.references (f source) position (elements.map (Option.map f)) =
      (ObjectArray.references source position elements).map (Reference.rename f) := by
  induction elements generalizing position with
  | nil => rfl
  | cons e rest ih =>
      cases e with
      | none => exact ih (position + 1)
      | some target => exact congrArg (_ :: ·) (ih (position + 1))

theorem Object.references_rename (source : ObjectId) (o : Object) :
    (o.rename f).references (f source) = (o.references source).map (Reference.rename f) := by
  cases o with
  | ofClass c => exact Field.references_rename source .staticField c.staticFields
  | ofInstance i => exact Field.references_rename source .instanceField i.fields
  | ofObjectArray a => exact ObjectArray.references_rename source 0 a.elements
  | ofPrimitiveArray a => rfl

/-! ## What a graph holds -/

namespace Graph

/-- A heap is another one under other ids, no two of which have become one. -/
structure IsRenaming (f : ObjectId → ObjectId) (g g' : Graph) : Prop where
  injective : f.Injective
  objects : g'.objects = g.objects.map (Object.rename f)
  slots : IsRenamed f id g.slots g'.slots
  classIds (name : String) : g'.classIds[name]? = g.classIds[name]?.map f
  instanceSlots : g'.instanceSlots = g.instanceSlots
  primitiveArraySlots : g'.primitiveArraySlots = g.primitiveArraySlots
  objectArraySlots : g'.objectArraySlots = g.objectArraySlots
  roots : g'.roots = g.roots.map (Root.rename f)

theorem isRenaming_rename (hf : f.Injective) (g : Graph) : g.IsRenaming f (g.rename f) where
  injective := hf
  objects := rfl
  slots := by
    intro old
    rw [Option.map_id_fun, id_eq, rename]
    cases hslot : g.slots[old]? with
    | some slot =>
        refine Std.HashMap.getElem?_ofList_of_mem (k := f old) BEq.rfl ?_ ?_
        · rw [List.pairwise_map]
          refine Std.HashMap.distinct_keys_toList.imp fun hne ↦ ?_
          simpa [hf.eq_iff] using hne
        · have hmem := Std.HashMap.mem_toList_iff_getElem?_eq_some.2 hslot
          exact List.mem_map.2 ⟨(old, slot), hmem, rfl⟩
    | none =>
        refine Std.HashMap.getElem?_ofList_of_contains_eq_false ?_
        rw [List.map_map, List.contains_eq_mem, decide_eq_false_iff_not, List.mem_map]
        rintro ⟨⟨other, slot⟩, hmem, heq⟩
        obtain rfl := hf heq
        rw [Std.HashMap.mem_toList_iff_getElem?_eq_some, hslot] at hmem
        cases hmem
  classIds _ := Std.HashMap.getElem?_map
  instanceSlots := rfl
  primitiveArraySlots := rfl
  objectArraySlots := rfl
  roots := rfl

namespace IsRenaming

variable {g' : Graph} (hg : g.IsRenaming f g')

include hg

theorem object?_eq (id : ObjectId) : g'.object? (f id) = (g.object? id).map (Object.rename f) := by
  have hslot := hg.slots id
  rw [Option.map_id_fun, id_eq] at hslot
  simp only [object?, hslot, hg.objects, Array.getElem?_map]
  cases g.slots[id]? <;> rfl

theorem class?_eq (id : ObjectId) : g'.class? (f id) = (g.class? id).map (Class.rename f) := by
  rw [class?, class?, hg.object?_eq]
  cases g.object? id with
  | none => rfl
  | some o => cases o <;> rfl

theorem classOf_eq (id : Option ObjectId) :
    id.map f >>= g'.class? = (id >>= g.class?).map (Class.rename f) := by
  cases id with
  | none => rfl
  | some id => exact hg.class?_eq id

theorem classNamed?_eq (name : String) :
    g'.classNamed? name = (g.classNamed? name).map (Class.rename f) := by
  rw [classNamed?, hg.classIds]
  exact hg.classOf_eq g.classIds[name]?

theorem objectsIn_eq {α β : Type} {kind : Object → Option α} {kind' : Object → Option β}
    {h : α → β} (hkind : ∀ o : Object, kind' (o.rename f) = (kind o).map h) (slots : Array Nat) :
    g'.objectsIn slots kind' = (g.objectsIn slots kind).map h := by
  simp only [objectsIn, List.map_filterMap, hg.objects, Array.getElem?_map]
  congr 1
  funext slot
  cases g.objects[slot]? with
  | none => rfl
  | some o => exact hkind o

theorem instances_eq : g'.instances = g.instances.map (Instance.rename f) := by
  rw [instances, hg.instanceSlots]
  exact hg.objectsIn_eq (fun o ↦ by cases o <;> rfl) g.instanceSlots

theorem primitiveArrays_eq :
    g'.primitiveArrays = g.primitiveArrays.map (PrimitiveArray.rename f) := by
  rw [primitiveArrays, hg.primitiveArraySlots]
  exact hg.objectsIn_eq (fun o ↦ by cases o <;> rfl) g.primitiveArraySlots

theorem objectArrays_eq : g'.objectArrays = g.objectArrays.map (ObjectArray.rename f) := by
  rw [objectArrays, hg.objectArraySlots]
  exact hg.objectsIn_eq (fun o ↦ by cases o <;> rfl) g.objectArraySlots

theorem references_eq (id : ObjectId) :
    g'.references (f id) = (g.references id).map (Reference.rename f) := by
  rw [references, references, hg.object?_eq]
  cases g.object? id with
  | none => rfl
  | some o => exact Object.references_rename id o

theorem className?_eq (id : ObjectId) : g'.className? (f id) = g.className? id := by
  have hname (classId : ObjectId) :
      (g'.class? (f classId)).map Class.name = (g.class? classId).map Class.name := by
    rw [hg.class?_eq, Option.map_map]
    rfl
  rw [className?, className?, hg.object?_eq]
  cases g.object? id with
  | none => rfl
  | some o =>
      cases o with
      | ofClass c => rfl
      | ofInstance i => exact hname i.classId
      | ofObjectArray a => exact hname a.classId
      | ofPrimitiveArray a => rfl

/-! ## Superclasses and fields -/

theorem extendChain_eq (fuel : Nat) (chain : List Class) (id : Option ObjectId) :
    g'.extendChain fuel (chain.map (Class.rename f)) (id.map f) =
      (g.extendChain fuel chain id).map (Class.rename f) := by
  induction fuel generalizing chain id with
  | zero => cases id <;> rfl
  | succ fuel ih =>
      cases id with
      | none => rfl
      | some id =>
          rw [Option.map_some, extendChain, extendChain, hg.class?_eq]
          cases g.class? id with
          | none => rfl
          | some c =>
              have hany : (chain.map (Class.rename f)).any (·.id == (c.rename f).id) =
                  chain.any (·.id == c.id) := by
                rw [List.any_map]
                congr 1
                funext other
                exact hg.injective.beq_eq
              simp only [Option.map_some, hany]
              split
              · rfl
              · have hnext := ih (chain ++ [c]) c.superclass
                rwa [List.map_append] at hnext

theorem superclassChain_eq (id : ObjectId) :
    g'.superclassChain (f id) = (g.superclassChain id).map (Class.rename f) := by
  have hsize : g'.size = g.size := by rw [size, size, hg.objects, Array.size_map]
  rw [superclassChain, hsize]
  exact hg.extendChain_eq g.size [] (some id)

theorem declares_eq (className name : String) (x : Field) :
    g'.declares className name (x.rename f) = g.declares className name x := by
  have hclass : g'.class? (x.rename f).declaringClass = _ := hg.class?_eq x.declaringClass
  rw [declares, declares, hclass, Option.any_map]
  rfl

theorem field_eq (i : Instance) (className name : String) :
    g'.field (i.rename f) className name =
      renameResult f (FieldValue.rename f) (g.field i className name) := by
  have hfind : (i.rename f).fields.find? (g'.declares className name) =
      (i.fields.find? (g.declares className name)).map (Field.rename f) := by
    rw [Instance.rename, List.find?_map]
    congr 2
    funext x
    exact hg.declares_eq className name x
  rw [field, field, hfind]
  cases i.fields.find? (g.declares className name) <;> rfl

theorem boolField_eq (i : Instance) (className name : String) :
    g'.boolField (i.rename f) className name =
      renameResult f id (g.boolField i className name) := by
  rw [boolField, boolField, hg.field_eq]
  cases g.field i className name with
  | error fault => rfl
  | ok value => cases value <;> rfl

theorem intField_eq (i : Instance) (className name : String) :
    g'.intField (i.rename f) className name = renameResult f id (g.intField i className name) := by
  rw [intField, intField, hg.field_eq]
  cases g.field i className name with
  | error fault => rfl
  | ok value => cases value <;> rfl

end IsRenaming

end Graph

end HeapSentry.Heap
