import HeapSentry.Heap.Object
import Std.Data.HashMap

/-!
# Heap graphs

Objects stand in slots, in the order in which they were added.  Ids and class names are looked up in
tables; references may dangle and superclasses may run in circles.
-/

namespace HeapSentry.Heap

structure Graph where
  objects : Array Object := #[]
  /-- The slot of each id. -/
  slots : Std.HashMap ObjectId Nat := ∅
  /-- The first class of each name. -/
  classIds : Std.HashMap String ObjectId := ∅
  instanceSlots : Array Nat := #[]
  primitiveArraySlots : Array Nat := #[]
  objectArraySlots : Array Nat := #[]
  roots : Array Root := #[]

namespace Graph

def empty : Graph := {}

def size (g : Graph) : Nat := g.objects.size

def contains (g : Graph) (id : ObjectId) : Bool := g.slots.contains id

def object? (g : Graph) (id : ObjectId) : Option Object := do
  let slot ← g.slots[id]?
  g.objects[slot]?

def class? (g : Graph) (id : ObjectId) : Option Class := g.object? id >>= Object.class?

def classNamed? (g : Graph) (name : String) : Option Class := do
  let id ← g.classIds[name]?
  g.class? id

/-- The objects in some slots that are of one kind. -/
def objectsIn {α : Type} (g : Graph) (slots : Array Nat) (kind : Object → Option α) : List α :=
  slots.toList.filterMap fun slot ↦ g.objects[slot]? >>= kind

def instances (g : Graph) : List Instance := g.objectsIn g.instanceSlots Object.instance?

def primitiveArrays (g : Graph) : List PrimitiveArray :=
  g.objectsIn g.primitiveArraySlots Object.primitiveArray?

def objectArrays (g : Graph) : List ObjectArray :=
  g.objectsIn g.objectArraySlots Object.objectArray?

/-! ## Superclasses -/

/-- Extends a chain of classes until there is no further class or the next one is in it already. -/
def extendChain (g : Graph) : Nat → List Class → Option ObjectId → List Class
  | 0, chain, _ => chain
  | _, chain, none => chain
  | fuel + 1, chain, some id =>
    match g.class? id with
    | none => chain
    | some c =>
      if chain.any (·.id == c.id) then chain
      else extendChain g fuel (chain ++ [c]) c.superclass

/-- A class and its superclasses, nearest first.  A chain has no more classes than there are
objects. -/
def superclassChain (g : Graph) (id : ObjectId) : List Class :=
  g.extendChain g.size [] (some id)

/-! ## Names and fields -/

/-- The class name of an object; a class has its own. -/
def className? (g : Graph) (id : ObjectId) : Option String :=
  g.object? id >>= fun
    | .ofClass c => some c.name
    | .ofInstance i => (g.class? i.classId).map Class.name
    | .ofObjectArray a => (g.class? a.classId).map Class.name
    | .ofPrimitiveArray a => some a.className

/-- Whether a field has a name and is declared by a class of a name. -/
def declares (g : Graph) (className name : String) (f : Field) : Bool :=
  f.name == name && (g.class? f.declaringClass).any (·.name == className)

/-- The first field of an instance of that name that a class of that name declares. -/
def field (g : Graph) (i : Instance) (className name : String) : Except Fault FieldValue :=
  match i.fields.find? (g.declares className name) with
  | some f => .ok f.value
  | none => .error (.missingField i.id className name)

def boolField (g : Graph) (i : Instance) (className name : String) : Except Fault Bool := do
  let value ← g.field i className name
  match value.boolean? with
  | some b => .ok b
  | none => .error (.fieldType className name "boolean" value.typeName)

def intField (g : Graph) (i : Instance) (className name : String) : Except Fault Int32 := do
  let value ← g.field i className name
  match value.int? with
  | some n => .ok n
  | none => .error (.fieldType className name "int" value.typeName)

/-- The outgoing references of an object; none if there is no such object. -/
def references (g : Graph) (id : ObjectId) : List Reference :=
  match g.object? id with
  | some o => o.references id
  | none => []

theorem source_of_mem_references {g : Graph} {id : ObjectId} {r : Reference}
    (h : r ∈ g.references id) : r.source = id := by
  unfold references at h
  split at h
  · exact Object.source_of_mem_references h
  · simp at h

end Graph

end HeapSentry.Heap
