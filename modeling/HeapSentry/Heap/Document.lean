import HeapSentry.Heap.Builder

/-!
# Heap documents

A document lists the objects of a heap by kind.  It stands for a graph if no id occurs twice and the
declaring class of every instance field is given.
-/

namespace HeapSentry.Heap

/-- A field; a static field may leave out the class, which is then the one it stands in. -/
structure FieldRecord where
  declaringClass : Option ObjectId
  name : String
  value : FieldValue

structure ClassRecord where
  id : ObjectId
  name : String
  superclass : Option ObjectId
  staticFields : List FieldRecord

structure InstanceRecord where
  id : ObjectId
  classId : ObjectId
  fields : List FieldRecord

structure Document where
  classes : List ClassRecord := []
  instances : List InstanceRecord := []
  primitiveArrays : List PrimitiveArray := []
  objectArrays : List ObjectArray := []
  roots : List Root := []

def FieldRecord.toStaticField (owner : ObjectId) (r : FieldRecord) : Field :=
  ⟨r.declaringClass.getD owner, r.name, r.value⟩

def FieldRecord.toInstanceField (r : FieldRecord) : Except Fault Field :=
  match r.declaringClass with
  | some declaringClass => .ok ⟨declaringClass, r.name, r.value⟩
  | none => .error (.malformed "<document>" s!"instance field `{r.name}` has no declaring class")

def ClassRecord.toObject (r : ClassRecord) : Object :=
  .ofClass ⟨r.id, r.name, r.superclass, r.staticFields.map (FieldRecord.toStaticField r.id)⟩

def InstanceRecord.toObject (r : InstanceRecord) : Except Fault Object := do
  let fields ← r.fields.mapM FieldRecord.toInstanceField
  .ok (.ofInstance ⟨r.id, r.classId, fields⟩)

namespace Document

/-- The objects of a document in the order in which they are added; a record may have none. -/
def objects (d : Document) : List (Except Fault Object) :=
  d.classes.map (fun r ↦ .ok r.toObject)
    ++ d.instances.map InstanceRecord.toObject
    ++ d.primitiveArrays.map (fun a ↦ .ok (.ofPrimitiveArray a))
    ++ d.objectArrays.map (fun a ↦ .ok (.ofObjectArray a))

def insertRecord (g : Graph) (record : Except Fault Object) : Except Fault Graph := do
  let o ← record
  g.insert o

/-- The graph of a document, or the fault of its first faulty record. -/
def toGraph (d : Document) : Except Fault Graph := do
  let g ← d.objects.foldlM insertRecord .empty
  .ok (d.roots.foldl Graph.addRoot g)

end Document

end HeapSentry.Heap
