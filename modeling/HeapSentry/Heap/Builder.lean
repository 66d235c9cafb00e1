import HeapSentry.Heap.Graph

/-!
# Building heap graphs

Objects come with an id of their own, which must be new, or are given one that is free.
-/

namespace HeapSentry.Heap

namespace Graph

/-- Adds an object under its id, which must be free. -/
def place (g : Graph) (o : Object) : Graph :=
  let slot := g.objects.size
  let placed := { g with
    objects := g.objects.push o
    slots := g.slots.insert o.id slot }
  match o with
  | .ofClass c => { placed with classIds := g.classIds.insertIfNew c.name c.id }
  | .ofInstance _ => { placed with instanceSlots := g.instanceSlots.push slot }
  | .ofObjectArray _ => { placed with objectArraySlots := g.objectArraySlots.push slot }
  | .ofPrimitiveArray _ => { placed with primitiveArraySlots := g.primitiveArraySlots.push slot }

/-- Adds an object unless its id is taken. -/
def insert (g : Graph) (o : Object) : Except Fault Graph :=
  if g.contains o.id then .error (.duplicateObject o.id) else .ok (g.place o)

def addRoot (g : Graph) (root : Root) : Graph := { g with roots := g.roots.push root }

def setFields (g : Graph) (id : ObjectId) (fields : List Field) : Except Fault Graph :=
  match g.slots[id]?, g.object? id with
  | some slot, some (.ofInstance i) =>
    .ok { g with objects := g.objects.setIfInBounds slot (.ofInstance { i with fields }) }
  | _, _ => .error (.unknownObject id)

end Graph

structure Builder where
  graph : Graph := .empty
  /-- The next id to hand out, if it is free.  Ids of real dumps carry such a tag. -/
  nextId : ObjectId := 0x700001000

/-- One step of building a graph.  The first four get a free id. -/
inductive Edit where
  | newClass (name : String) (superclass : Option ObjectId) (statics : List (String × FieldValue))
  | newInstance (classId : ObjectId) (fields : List Field)
  | newPrimitiveArray (elementType : PrimitiveType) (length : UInt64)
  | newObjectArray (classId : ObjectId) (elements : List (Option ObjectId))
  | insert (o : Object)
  | root (r : Root)
  | setFields (id : ObjectId) (fields : List Field)

namespace Builder

/-- The first free id from `id` on, among `fuel + 1`. -/
def freeId (g : Graph) : Nat → ObjectId → ObjectId
  | 0, id => id
  | fuel + 1, id => if g.contains id then freeId g fuel (id + 1) else id

/-- The id that is handed out next: one of the first ids is free, as there is one more of them than
of objects. -/
def freshId (b : Builder) : ObjectId := freeId b.graph b.graph.size b.nextId

def add (b : Builder) (object : ObjectId → Object) : Builder :=
  let id := b.freshId
  ⟨b.graph.place (object id), id + 1⟩

/-- Static fields are declared by the new class itself. -/
def newClass (name : String) (superclass : Option ObjectId) (statics : List (String × FieldValue))
    (id : ObjectId) : Object :=
  .ofClass ⟨id, name, superclass, statics.map fun (field, value) ↦ ⟨id, field, value⟩⟩

/-- Carries out an edit.  The answer holds the id of a new object; a failed edit changes nothing. -/
def apply (b : Builder) : Edit → Except Fault (Option ObjectId) × Builder
  | .newClass name superclass statics =>
    (.ok (some b.freshId), b.add (newClass name superclass statics))
  | .newInstance classId fields =>
    (.ok (some b.freshId), b.add fun id ↦ .ofInstance ⟨id, classId, fields⟩)
  | .newPrimitiveArray elementType length =>
    (.ok (some b.freshId), b.add fun id ↦ .ofPrimitiveArray ⟨id, elementType, length⟩)
  | .newObjectArray classId elements =>
    (.ok (some b.freshId), b.add fun id ↦ .ofObjectArray ⟨id, classId, elements⟩)
  | .insert o =>
    match b.graph.insert o with
    | .ok graph => (.ok (some o.id), { b with graph })
    | .error fault => (.error fault, b)
  | .root r => (.ok none, { b with graph := b.graph.addRoot r })
  | .setFields id fields =>
    match b.graph.setFields id fields with
    | .ok graph => (.ok none, { b with graph })
    | .error fault => (.error fault, b)

end Builder

end HeapSentry.Heap
