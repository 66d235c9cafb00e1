import HeapSentry.Heap.Document
import HeapSentry.Proofs.Heap.Inventory
import HeapSentry.Proofs.Results

/-!
# Loading heap documents

The records of a document are put in one after the other.  A record fails if one of its fields lacks
a class, or if its id has been taken by an earlier record.  If none fails, the graph holds what the
records tell and nothing else; otherwise the fault is that of the first one that does.
-/

namespace HeapSentry.Heap

/-! ## What records tell -/

/-- Whether a record tells a field, of a class that declares it unless told otherwise. -/
def FieldRecord.Tells (owner : Option ObjectId) (r : FieldRecord) (f : Field) : Prop :=
  (r.declaringClass <|> owner) = some f.declaringClass ∧ r.name = f.name ∧ r.value = f.value

structure ClassRecord.Tells (r : ClassRecord) (c : Class) : Prop where
  id_eq : r.id = c.id
  name_eq : r.name = c.name
  superclass_eq : r.superclass = c.superclass
  staticFields : List.Forall₂ (FieldRecord.Tells (some r.id)) r.staticFields c.staticFields

structure InstanceRecord.Tells (r : InstanceRecord) (i : Instance) : Prop where
  id_eq : r.id = i.id
  classId_eq : r.classId = i.classId
  fields : List.Forall₂ (FieldRecord.Tells none) r.fields i.fields

inductive Record where
  | ofClass (r : ClassRecord)
  | ofInstance (r : InstanceRecord)
  | ofPrimitiveArray (a : PrimitiveArray)
  | ofObjectArray (a : ObjectArray)

def Document.records (d : Document) : List Record :=
  d.classes.map .ofClass ++ d.instances.map .ofInstance
    ++ d.primitiveArrays.map .ofPrimitiveArray ++ d.objectArrays.map .ofObjectArray

/-- The references that the records of fields tell. -/
def FieldRecord.references (source : ObjectId) (owner : Option ObjectId) (kind : ReferenceKind)
    (fields : List FieldRecord) : List Reference :=
  fields.filterMap fun f ↦
    match f.value with
    | .object (some target) => some ⟨source, target, kind, f.name, f.declaringClass <|> owner⟩
    | _ => none

namespace Record

def id : Record → ObjectId
  | ofClass r => r.id
  | ofInstance r => r.id
  | ofPrimitiveArray a => a.id
  | ofObjectArray a => a.id

inductive Tells : Record → Object → Prop
  | ofClass {r : ClassRecord} {c : Class} (h : r.Tells c) : Tells (ofClass r) (.ofClass c)
  | ofInstance {r : InstanceRecord} {i : Instance} (h : r.Tells i) :
      Tells (ofInstance r) (.ofInstance i)
  | ofPrimitiveArray (a : PrimitiveArray) : Tells (ofPrimitiveArray a) (.ofPrimitiveArray a)
  | ofObjectArray (a : ObjectArray) : Tells (ofObjectArray a) (.ofObjectArray a)

/-- Non-null references in field or element order. -/
def references : Record → List Reference
  | ofClass r => FieldRecord.references r.id (some r.id) .staticField r.staticFields
  | ofInstance r => FieldRecord.references r.id none .instanceField r.fields
  | ofPrimitiveArray _ => []
  | ofObjectArray a => a.elements.zipIdx.filterMap fun (element, position) ↦
      element.map fun target ↦ ⟨a.id, target, .arrayEntry, s!"[{position}]", none⟩

/-- Whether all fields of an instance have a class. -/
def IsDeclared : Record → Prop
  | ofInstance r => ∀ f ∈ r.fields, f.declaringClass ≠ none
  | _ => True

/-- What is wrong with a record after others. -/
inductive Fails (earlier : List Record) : Record → Fault → Prop
  | undeclared {r : InstanceRecord} {before after : List FieldRecord} {f : FieldRecord}
      (hfields : r.fields = before ++ f :: after)
      (hbefore : ∀ other ∈ before, other.declaringClass ≠ none) (hf : f.declaringClass = none) :
      Fails earlier (ofInstance r)
        (.malformed "<document>" s!"instance field `{f.name}` has no declaring class")
  | duplicate {r : Record} (hdeclared : r.IsDeclared) (hold : r.id ∈ earlier.map id) :
      Fails earlier r (.duplicateObject r.id)

end Record

/-- Records of which none fails. -/
structure AreSound (records : List Record) : Prop where
  nodup : (records.map Record.id).Nodup
  declared : ∀ r ∈ records, r.IsDeclared

/-- Whether the first record that fails does so with a fault. -/
def FailFirst (records : List Record) (fault : Fault) : Prop :=
  ∃ earlier r later, records = earlier ++ r :: later ∧ AreSound earlier ∧ r.Fails earlier fault

namespace Document

/-- The graph holds what the document tells. -/
structure IsShownBy (d : Document) (g : Graph) : Prop where
  instances : List.Forall₂ InstanceRecord.Tells d.instances g.instances
  primitiveArrays : g.primitiveArrays = d.primitiveArrays
  objectArrays : g.objectArrays = d.objectArrays
  roots : g.roots.toList = d.roots
  finds : ∀ r ∈ d.records, ∃ o, r.Tells o ∧ g.object? r.id = some o
  findsOnly : ∀ id o, g.object? id = some o → ∃ r ∈ d.records, r.id = id ∧ r.Tells o
  classNamed? : ∀ name,
    Option.Rel ClassRecord.Tells (d.classes.find? (·.name == name)) (g.classNamed? name)
  references : ∀ r ∈ d.records, g.references r.id = r.references

end Document

/-! ## From records to objects -/

namespace FieldRecord

variable {r : FieldRecord}

theorem tells_toStaticField (owner : ObjectId) (r : FieldRecord) :
    r.Tells (some owner) (r.toStaticField owner) := by
  refine ⟨?_, rfl, rfl⟩
  rw [toStaticField]
  cases r.declaringClass <;> rfl

theorem tells_of_toInstanceField {f : Field} (h : r.toInstanceField = .ok f) : r.Tells none f := by
  unfold toInstanceField at h
  split at h
  next hclass =>
    cases h
    exact ⟨by rw [hclass]; rfl, rfl, rfl⟩
  next => cases h

theorem errorOf?_toInstanceField (r : FieldRecord) : errorOf? r.toInstanceField =
    if r.declaringClass = none then
      some (.malformed "<document>" s!"instance field `{r.name}` has no declaring class")
    else none := by
  unfold toInstanceField
  cases r.declaringClass <;> rfl

end FieldRecord

namespace Record

variable {r : Record} {o : Object}

def object : Record → Except Fault Object
  | ofClass r => .ok r.toObject
  | ofInstance r => r.toObject
  | ofPrimitiveArray a => .ok (.ofPrimitiveArray a)
  | ofObjectArray a => .ok (.ofObjectArray a)

theorem Tells.id_eq (h : r.Tells o) : r.id = o.id := by
  cases h with
  | ofClass h => exact h.id_eq
  | ofInstance h => exact h.id_eq
  | ofPrimitiveArray | ofObjectArray => rfl

theorem Tells.isDeclared (h : r.Tells o) : r.IsDeclared := by
  cases h with
  | ofInstance h =>
      intro f hf hlacks
      obtain ⟨_, -, hclass, -⟩ := exists_of_mem_left h.fields hf
      rw [hlacks] at hclass
      cases hclass
  | ofClass | ofPrimitiveArray | ofObjectArray => trivial

theorem tells_of_object (h : r.object = .ok o) : r.Tells o := by
  cases r with
  | ofClass r =>
      cases h
      refine .ofClass ⟨rfl, rfl, rfl, ?_⟩
      rw [List.forall₂_map_right_iff, List.forall₂_same]
      exact fun f _ ↦ f.tells_toStaticField r.id
  | ofInstance r =>
      obtain ⟨fields, hfields, heq⟩ := bind_eq_ok_iff.1 h
      cases heq
      refine .ofInstance ⟨rfl, rfl, ?_⟩
      exact (mapM_eq_ok_iff.1 hfields).imp fun _ _ hf ↦ FieldRecord.tells_of_toInstanceField hf
  | ofPrimitiveArray a =>
      cases h
      exact .ofPrimitiveArray a
  | ofObjectArray a =>
      cases h
      exact .ofObjectArray a

theorem errorOf?_object_ofInstance (r : InstanceRecord) : errorOf? (ofInstance r).object =
    r.fields.findSome? fun f ↦ errorOf? f.toInstanceField :=
  errorOf?_bind_ok.trans (errorOf?_mapM _ _)

theorem fails_of_object {fault : Fault} (h : r.object = .error fault) (earlier : List Record) :
    r.Fails earlier fault := by
  cases r with
  | ofClass r | ofPrimitiveArray a | ofObjectArray a => cases h
  | ofInstance r =>
      rw [← errorOf?_eq_some_iff, errorOf?_object_ofInstance, List.findSome?_eq_some_iff] at h
      obtain ⟨before, f, after, hfields, hf, hbefore⟩ := h
      simp only [FieldRecord.errorOf?_toInstanceField, ite_eq_right_iff, reduceCtorEq,
        imp_false] at hf hbefore
      obtain ⟨hlacks, hfault⟩ := Option.ite_none_right_eq_some.1 hf
      rw [← Option.some.inj hfault]
      exact .undeclared hfields hbefore hlacks

/-! ## References -/

theorem references_eq_of_tells {source : ObjectId} {owner : Option ObjectId} {kind : ReferenceKind}
    {rs : List FieldRecord} {fs : List Field} (h : List.Forall₂ (FieldRecord.Tells owner) rs fs) :
    Field.references source kind fs = FieldRecord.references source owner kind rs := by
  induction h with
  | nil => rfl
  | @cons r f rs fs hf _ ih =>
      obtain ⟨hclass, hname, hvalue⟩ := hf
      rw [Field.references, FieldRecord.references] at ih ⊢
      rw [List.filterMap_cons, List.filterMap_cons, ih, hclass, hname, hvalue]
      cases f.value with
      | object target => cases target <;> rfl
      | _ => rfl

theorem references_eq_filterMap (source : ObjectId) (position : Nat)
    (elements : List (Option ObjectId)) : ObjectArray.references source position elements =
      (elements.zipIdx position).filterMap fun (element, position) ↦
        element.map fun target ↦ ⟨source, target, .arrayEntry, s!"[{position}]", none⟩ := by
  induction elements generalizing position with
  | nil => rfl
  | cons element elements ih =>
      rw [List.zipIdx_cons, List.filterMap_cons]
      cases element with
      | none => exact ih (position + 1)
      | some target =>
          rw [ObjectArray.references, ih]
          rfl

theorem Tells.references_eq (h : r.Tells o) : o.references r.id = r.references := by
  cases h with
  | ofClass h => exact references_eq_of_tells h.staticFields
  | ofInstance h => exact references_eq_of_tells h.fields
  | ofPrimitiveArray => rfl
  | ofObjectArray a => exact references_eq_filterMap a.id 0 a.elements

/-! ## Kinds -/

def class? : Record → Option ClassRecord
  | ofClass r => some r
  | _ => none

def instance? : Record → Option InstanceRecord
  | ofInstance r => some r
  | _ => none

def primitiveArray? : Record → Option PrimitiveArray
  | ofPrimitiveArray a => some a
  | _ => none

def objectArray? : Record → Option ObjectArray
  | ofObjectArray a => some a
  | _ => none

theorem Tells.class? (h : r.Tells o) : Option.Rel ClassRecord.Tells r.class? o.class? := by
  cases h with
  | ofClass h => exact .some h
  | _ => exact .none

theorem Tells.instance? (h : r.Tells o) :
    Option.Rel InstanceRecord.Tells r.instance? o.instance? := by
  cases h with
  | ofInstance h => exact .some h
  | _ => exact .none

theorem Tells.primitiveArray? (h : r.Tells o) : r.primitiveArray? = o.primitiveArray? := by
  cases h <;> rfl

theorem Tells.objectArray? (h : r.Tells o) : r.objectArray? = o.objectArray? := by
  cases h <;> rfl

end Record

/-! ## Loading record by record -/

variable {records : List Record} {r : Record} {fault : Fault}

theorem map_id_eq_of_tells {os : List Object} (h : List.Forall₂ Record.Tells records os) :
    records.map Record.id = os.map Object.id := by
  induction h with
  | nil => rfl
  | cons hr _ ih => rw [List.map_cons, List.map_cons, hr.id_eq, ih]

theorem areSound_of_tabulates {os : List Object} {roots : List Root} {g : Graph}
    (hos : List.Forall₂ Record.Tells records os) (h : g.Tabulates ⟨os, roots⟩) :
    AreSound records where
  nodup := by
    rw [map_id_eq_of_tells hos]
    exact h.nodup_ids
  declared r hr := by
    obtain ⟨_, -, htells⟩ := exists_of_mem_left hos hr
    exact htells.isDeclared

theorem FailFirst.not_areSound (h : FailFirst records fault) : ¬ AreSound records := by
  obtain ⟨earlier, r, later, rfl, -, hfails⟩ := h
  intro hsound
  cases hfails with
  | @undeclared r before after f hfields _ hf =>
      have hdeclared : (Record.ofInstance r).IsDeclared := hsound.declared _ (by simp)
      exact hdeclared f (by rw [hfields]; simp) hf
  | duplicate _ hold =>
      have hnodup := hsound.nodup
      rw [List.map_append, List.map_cons, List.nodup_append] at hnodup
      exact hnodup.2.2 _ hold _ List.mem_cons_self rfl

theorem FailFirst.append (h : FailFirst records fault) (more : List Record) :
    FailFirst (records ++ more) fault := by
  obtain ⟨earlier, r, later, rfl, hsound, hfails⟩ := h
  exact ⟨earlier, r, later ++ more, by simp, hsound, hfails⟩

def load (records : List Record) : Except Fault Graph :=
  (records.map Record.object).foldlM Document.insertRecord .empty

theorem load_snoc (records : List Record) (r : Record) : load (records ++ [r]) = (do
    let g ← load records
    Document.insertRecord g r.object) := by
  simp [load, List.foldlM_append]

/-- Either all records are loaded, or loading stops at the first one that fails. -/
theorem load_cases (records : List Record) :
    (∃ os g, load records = .ok g ∧ List.Forall₂ Record.Tells records os ∧
        g.Tabulates ⟨os, []⟩) ∨
      ∃ fault, load records = .error fault ∧ FailFirst records fault := by
  induction records using List.reverseRecOn with
  | nil => exact .inl ⟨[], .empty, rfl, .nil, Graph.Tabulates.empty⟩
  | append_singleton records r ih =>
      rw [load_snoc]
      rcases ih with ⟨os, g, hload, hos, hg⟩ | ⟨fault, hload, hfirst⟩
      · have hsound := areSound_of_tabulates hos hg
        rw [hload]
        cases hobject : r.object with
        | error fault =>
            have hfails := Record.fails_of_object hobject records
            exact .inr ⟨fault, rfl, records, r, [], rfl, hsound, hfails⟩
        | ok o =>
            have htells := Record.tells_of_object hobject
            have hids : records.map Record.id = Inventory.ids ⟨os, []⟩ := map_id_eq_of_tells hos
            change (∃ os g', g.insert o = .ok g' ∧ _) ∨ ∃ fault, g.insert o = .error fault ∧ _
            by_cases hold : r.id ∈ records.map Record.id
            · refine .inr ⟨.duplicateObject r.id, ?_, records, r, [], rfl, hsound,
                .duplicate htells.isDeclared hold⟩
              rw [hids] at hold
              rw [htells.id_eq] at hold ⊢
              exact hg.insert_eq_error hold
            · have hnew : o.id ∉ Inventory.ids ⟨os, []⟩ := by rwa [← htells.id_eq, ← hids]
              exact .inl ⟨os ++ [o], _, hg.insert_eq_ok hnew,
                List.rel_append hos (.cons htells .nil), hg.place hnew⟩
      · rw [hload]
        exact .inr ⟨fault, rfl, hfirst.append [r]⟩

/-! ## Documents -/

namespace Document

variable {d : Document} {os : List Object} {g : Graph}

theorem objects_eq (d : Document) : d.objects = d.records.map Record.object := by
  simp [objects, records, Record.object, Function.comp_def]

theorem tabulates_foldl_addRoot {earlier : List Root} (h : g.Tabulates ⟨os, earlier⟩)
    (roots : List Root) : (roots.foldl Graph.addRoot g).Tabulates ⟨os, earlier ++ roots⟩ := by
  induction roots generalizing g earlier with
  | nil => simpa using h
  | cons root roots ih => simpa [Inventory.addRoot] using ih (h.addRoot root)

theorem filterMap_class?_records (d : Document) :
    d.records.filterMap Record.class? = d.classes := by
  simp [records, List.filterMap_map, Function.comp_def, Record.class?]

theorem filterMap_instance?_records (d : Document) :
    d.records.filterMap Record.instance? = d.instances := by
  simp [records, List.filterMap_map, Function.comp_def, Record.instance?]

theorem filterMap_primitiveArray?_records (d : Document) :
    d.records.filterMap Record.primitiveArray? = d.primitiveArrays := by
  simp [records, List.filterMap_map, Function.comp_def, Record.primitiveArray?]

theorem filterMap_objectArray?_records (d : Document) :
    d.records.filterMap Record.objectArray? = d.objectArrays := by
  simp [records, List.filterMap_map, Function.comp_def, Record.objectArray?]

theorem isShownBy_of_tabulates (hos : List.Forall₂ Record.Tells d.records os)
    (h : g.Tabulates ⟨os, d.roots⟩) : d.IsShownBy g := by
  have hclasses : List.Forall₂ ClassRecord.Tells d.classes (os.filterMap Object.class?) := by
    rw [← d.filterMap_class?_records]
    exact List.rel_filterMap (fun _ _ htells ↦ htells.class?) hos
  have hfinds : ∀ r ∈ d.records, ∃ o, r.Tells o ∧ g.object? r.id = some o := by
    intro r hr
    obtain ⟨o, ho, htells⟩ := exists_of_mem_left hos hr
    exact ⟨o, htells, h.object?_eq_some_iff.2 ⟨ho, htells.id_eq.symm⟩⟩
  refine ⟨?_, ?_, ?_, h.roots_eq, hfinds, fun id o hobject ↦ ?_, fun name ↦ ?_, fun r hr ↦ ?_⟩
  · rw [h.instances_eq, ← d.filterMap_instance?_records]
    exact List.rel_filterMap (fun _ _ htells ↦ htells.instance?) hos
  · rw [h.primitiveArrays_eq, ← d.filterMap_primitiveArray?_records]
    exact (filterMap_eq_of_forall₂ (fun _ _ htells ↦ htells.primitiveArray?) hos).symm
  · rw [h.objectArrays_eq, ← d.filterMap_objectArray?_records]
    exact (filterMap_eq_of_forall₂ (fun _ _ htells ↦ htells.objectArray?) hos).symm
  · obtain ⟨ho, rfl⟩ := h.object?_eq_some_iff.1 hobject
    obtain ⟨r, hr, htells⟩ := exists_of_mem_right hos ho
    exact ⟨r, hr, htells.id_eq, htells⟩
  · rw [h.classNamed?_eq]
    refine rel_find? (fun r c htells ↦ ?_) hclasses
    rw [htells.name_eq]
  · obtain ⟨o, htells, hobject⟩ := hfinds r hr
    rw [Graph.references, hobject]
    exact htells.references_eq

/-- A document has a graph, which shows it, if its records are sound; otherwise its first record
that fails decides what is wrong. -/
theorem toGraph_shows_or_fails (d : Document) :
    match d.toGraph with
    | .ok g => AreSound d.records ∧ d.IsShownBy g
    | .error fault => ¬ AreSound d.records ∧ FailFirst d.records fault := by
  have htoGraph : d.toGraph = load d.records >>= fun g ↦ .ok (d.roots.foldl Graph.addRoot g) := by
    rw [toGraph, objects_eq]
    rfl
  rw [htoGraph]
  rcases load_cases d.records with ⟨os, g, hload, hos, hg⟩ | ⟨fault, hload, hfirst⟩
  · rw [hload]
    exact ⟨areSound_of_tabulates hos hg,
      isShownBy_of_tabulates hos (tabulates_foldl_addRoot hg d.roots)⟩
  · rw [hload]
    exact ⟨hfirst.not_areSound, hfirst⟩

end Document

end HeapSentry.Heap
